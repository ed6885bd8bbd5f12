import Mathlib.Data.Finset.Insert
import RustMcpCore.Library.Interleaving

/-! # The client notification hub

A call of `notify` takes the whole list of peers out of the shared state, sends to
one peer after the other, and merges the peers that have accepted back. Between the
two it is the only one who knows about them.
-/
namespace RustMcpCore.ClientNotificationHub
open Library

/-- A connection. Clones of a peer share it. -/
abbrev Peer := ℕ

structure RequestContext where
  peer : Peer
  /-- The `MCP-Session-Id` header, where there is one that is text. -/
  sessionId : Option String
  /-- The address of what the client has said about itself. -/
  peerInfo : Option String

def peerKey (context : RequestContext) : String :=
  match context.sessionId with
  | some sessionId => "session:" ++ sessionId
  | none =>
    match context.peerInfo with
    | some peerInfo => "peer_info:" ++ peerInfo
    | none => "peer:uninitialized"

structure ObservedPeer where
  key : String
  peer : Peer
  deriving DecidableEq

inductive NotificationKind
  | tools
  | prompts
  | resources
  deriving DecidableEq

structure Shared where
  peers : List ObservedPeer
  /-- The peers whose transport is closed. -/
  closed : Finset Peer

def Shared.retained (g : Shared) : List ObservedPeer :=
  g.peers.filter fun entry => entry.peer ∉ g.closed

/-- The first entry under the key gets the peer; without one the peer is pushed. -/
def observe (entry : ObservedPeer) : List ObservedPeer → List ObservedPeer
  | [] => [entry]
  | existing :: rest =>
    if existing.key = entry.key then { existing with peer := entry.peer } :: rest
    else existing :: observe entry rest

def mergePeers (peers candidates : List ObservedPeer) : List ObservedPeer :=
  candidates.foldl (fun peers candidate =>
    if peers.any (·.key = candidate.key) then peers else peers ++ [candidate]) peers

inductive NotifyPhase
  /-- Before the lock. -/
  | started
  /-- The peer that is being sent to, those to come, those to keep, and how many were sent. -/
  | sending (entry : ObservedPeer) (rest keep : List ObservedPeer) (sent : ℕ)
  /-- Before the lock again. -/
  | merging (keep : List ObservedPeer) (sent : ℕ)

inductive Task
  /-- `observe_peer` before the lock. -/
  | observe (entry : ObservedPeer)
  | notify (kind : NotificationKind) (phase : NotifyPhase)

inductive Action
  | observe (context : RequestContext)
  | record
  | notify (kind : NotificationKind)
  | take
  | send (accepted : Bool)
  | merge
  /-- The future of the call is dropped. -/
  | drop
  /-- A transport closes. -/
  | close (peer : Peer)

inductive Output
  | silent
  | observed (entry : ObservedPeer)
  | sent (kind : NotificationKind) (entry : ObservedPeer)
  | failed (kind : NotificationKind) (entry : ObservedPeer)
  | notified (sent : ℕ)

/-- The head of the loop over the taken peers. -/
def sendNext (keep : List ObservedPeer) (sent : ℕ) : List ObservedPeer → NotifyPhase
  | [] => .merging keep sent
  | entry :: rest => .sending entry rest keep sent

def actNotify (g : Shared) (kind : NotificationKind) :
    NotifyPhase → Action → Option (Shared × Option Task × Output)
  | .started, .take =>
    match g.retained with
    | [] => some ({ g with peers := [] }, none, .notified 0)
    | entry :: rest =>
      some ({ g with peers := [] }, some (.notify kind (.sending entry rest [] 0)), .silent)
  | .sending entry rest keep sent, .send true =>
    some (g, some (.notify kind (sendNext (keep ++ [entry]) (sent + 1) rest)), .sent kind entry)
  | .sending entry rest keep sent, .send false =>
    some (g, some (.notify kind (sendNext keep sent rest)), .failed kind entry)
  | .merging keep sent, .merge =>
    some ({ g with peers := mergePeers g.retained keep }, none, .notified sent)
  | _, _ => none

def act (_ : ℕ) (g : Shared) : Option Task → Action → Option (Shared × Option Task × Output)
  | none, .close peer => some ({ g with closed := insert peer g.closed }, none, .silent)
  | none, .observe context =>
    some (g, some (.observe ⟨peerKey context, context.peer⟩), .silent)
  | none, .notify kind => some (g, some (.notify kind .started), .silent)
  | some _, .drop => some (g, none, .silent)
  | some (.observe entry), .record =>
    some ({ g with peers := observe entry g.retained }, none, .observed entry)
  | some (.notify kind phase), action => actNotify g kind phase action
  | _, _ => none

def program : Program Shared Task Action Output := ⟨⟨[], ∅⟩, act⟩

abbrev State := World Shared Task

abbrev Event := Library.Event Action Output

abbrev Step : State → Event → State → Prop := program.machine.Step

abbrev init : State := program.machine.init

/-! ## The list of peers -/

theorem mem_retained {g : Shared} {entry : ObservedPeer} :
    entry ∈ g.retained ↔ entry ∈ g.peers ∧ entry.peer ∉ g.closed := by
  simp [Shared.retained]

theorem mem_observe_self (entry : ObservedPeer) (peers : List ObservedPeer) :
    entry ∈ observe entry peers := by
  induction peers with
  | nil => exact List.mem_cons_self
  | cons existing rest ih =>
    unfold observe
    split
    · rename_i hkey
      rw [hkey]
      exact List.mem_cons_self
    · exact List.mem_cons_of_mem _ ih

theorem mem_observe_other {new entry : ObservedPeer} {peers : List ObservedPeer}
    (h : entry ∈ peers) (hkey : entry.key ≠ new.key) : entry ∈ observe new peers := by
  induction peers with
  | nil => cases h
  | cons existing rest ih =>
    unfold observe
    rcases List.mem_cons.mp h with rfl | h
    · rw [if_neg hkey]
      exact List.mem_cons_self
    · split
      · exact List.mem_cons_of_mem _ h
      · exact List.mem_cons_of_mem _ (ih h)

theorem mem_of_observe {new entry : ObservedPeer} {peers : List ObservedPeer}
    (h : entry ∈ observe new peers) : entry = new ∨ entry ∈ peers := by
  induction peers with
  | nil => exact .inl (List.mem_singleton.mp h)
  | cons existing rest ih =>
    unfold observe at h
    split at h
    · rename_i hkey
      rcases List.mem_cons.mp h with rfl | h
      · rw [hkey]
        exact .inl rfl
      · exact .inr (List.mem_cons_of_mem _ h)
    · rcases List.mem_cons.mp h with rfl | h
      · exact .inr List.mem_cons_self
      · exact (ih h).imp id (List.mem_cons_of_mem _)

theorem keys_observe (new : ObservedPeer) (peers : List ObservedPeer) :
    (observe new peers).map (·.key) = peers.map (·.key) ∨
      new.key ∉ peers.map (·.key) ∧
        (observe new peers).map (·.key) = peers.map (·.key) ++ [new.key] := by
  induction peers with
  | nil => exact .inr ⟨List.not_mem_nil, rfl⟩
  | cons existing rest ih =>
    unfold observe
    split
    · exact .inl rfl
    · rename_i hkey
      rcases ih with ih | ⟨hnew, ih⟩
      · exact .inl (congrArg (existing.key :: ·) ih)
      · refine .inr ⟨?_, congrArg (existing.key :: ·) ih⟩
        rw [List.map_cons, List.mem_cons, not_or]
        exact ⟨Ne.symm hkey, hnew⟩

theorem mergePeers_cons (peers : List ObservedPeer) (candidate : ObservedPeer)
    (rest : List ObservedPeer) : mergePeers peers (candidate :: rest) =
      mergePeers (if peers.any (·.key = candidate.key) then peers else peers ++ [candidate]) rest :=
  rfl

theorem mem_mergePeers_left {peers candidates : List ObservedPeer} {entry : ObservedPeer}
    (h : entry ∈ peers) : entry ∈ mergePeers peers candidates := by
  induction candidates generalizing peers with
  | nil => exact h
  | cons candidate rest ih =>
    rw [mergePeers_cons]
    split
    · exact ih h
    · exact ih (List.mem_append_left _ h)

/-- A candidate is merged, or its key is taken by a peer or by an earlier candidate. -/
theorem mem_mergePeers_right {peers candidates : List ObservedPeer} {entry : ObservedPeer}
    (h : entry ∈ candidates) (hkeys : (candidates.map (·.key)).Nodup) :
    entry ∈ mergePeers peers candidates ∨ ∃ other ∈ peers, other.key = entry.key := by
  induction candidates generalizing peers with
  | nil => cases h
  | cons candidate rest ih =>
    rw [mergePeers_cons]
    rw [List.map_cons, List.nodup_cons] at hkeys
    rcases List.mem_cons.mp h with rfl | hrest
    · split
      · rename_i hany
        simp only [List.any_eq_true, decide_eq_true_eq] at hany
        exact .inr hany
      · exact .inl (mem_mergePeers_left (List.mem_append_right _ List.mem_cons_self))
    · split
      · exact ih hrest hkeys.2
      · rcases @ih (peers ++ [candidate]) hrest hkeys.2 with hin | ⟨other, hother, hkey⟩
        · exact .inl hin
        · rcases List.mem_append.mp hother with hother | hother
          · exact .inr ⟨other, hother, hkey⟩
          · rw [List.mem_singleton.mp hother] at hkey
            exact absurd (hkey ▸ List.mem_map_of_mem hrest) hkeys.1

theorem mem_of_mergePeers {peers candidates : List ObservedPeer} {entry : ObservedPeer}
    (h : entry ∈ mergePeers peers candidates) : entry ∈ peers ∨ entry ∈ candidates := by
  induction candidates generalizing peers with
  | nil => exact .inl h
  | cons candidate rest ih =>
    rw [mergePeers_cons] at h
    rcases ih h with hin | hin
    · split at hin
      · exact .inl hin
      · rcases List.mem_append.mp hin with hin | hin
        · exact .inl hin
        · rw [List.mem_singleton.mp hin]
          exact .inr List.mem_cons_self
    · exact .inr (List.mem_cons_of_mem _ hin)

theorem nodup_mergePeers {peers : List ObservedPeer} (candidates : List ObservedPeer)
    (h : (peers.map (·.key)).Nodup) : ((mergePeers peers candidates).map (·.key)).Nodup := by
  induction candidates generalizing peers with
  | nil => exact h
  | cons candidate rest ih =>
    rw [mergePeers_cons]
    split
    · exact ih h
    · rename_i hany
      refine ih ?_
      rw [List.map_append, List.map_singleton, List.nodup_append]
      refine ⟨h, List.nodup_singleton _, ?_⟩
      rintro key hkey other hother rfl
      rw [List.mem_singleton.mp hother] at hkey
      obtain ⟨entry, hentry, heq⟩ := List.mem_map.mp hkey
      exact hany (List.any_eq_true.mpr ⟨entry, hentry, decide_eq_true heq⟩)

theorem nodup_observe {peers : List ObservedPeer} (new : ObservedPeer)
    (h : (peers.map (·.key)).Nodup) : ((observe new peers).map (·.key)).Nodup := by
  rcases keys_observe new peers with heq | ⟨hnew, heq⟩
  · rwa [heq]
  · rw [heq]
    exact List.nodup_append.mpr ⟨h, List.nodup_singleton _, fun a ha b hb hab => by
      rw [List.mem_singleton.mp hb] at hab
      exact hnew (hab ▸ ha)⟩

theorem nodup_retained {g : Shared} (h : (g.peers.map (·.key)).Nodup) :
    (g.retained.map (·.key)).Nodup :=
  h.sublist (List.filter_sublist.map _)

end RustMcpCore.ClientNotificationHub
