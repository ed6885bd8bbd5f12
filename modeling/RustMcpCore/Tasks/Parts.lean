import Mathlib.Data.Finset.Erase
import Mathlib.Data.Finset.Insert
import RustMcpCore.Tasks.Views
import RustMcpCore.Tasks.Wakeup

/-! # One client's part of a run

The operations of one client and the tasks they created are its part of a run. A store
with the tasks of all clients and one with the tasks of this client alone stay alike
under what the client does, and under what the others do to the first one.
-/
namespace RustMcpCore.TaskStore
open Library

/-! ## The part of a client -/

/-- The clock readings of an operation, in the order it makes them. -/
def Label.readings : Label → List DateTime
  | .create _ _ _ swept now | .finish _ _ swept now | .cancel _ _ swept now => [swept, now]
  | .getTask _ _ swept | .listTasks _ swept | .check _ swept => [swept]
  | .attachHandle _ _ | .perform | .wait _ _ _ | .notified _ | .dropWait _ => []

/-- The tasks and the calls of `wait_for_result` that belong to a client. -/
structure Part where
  ids : List String
  waits : Finset ℕ

namespace Part

def none : Part := ⟨[], ∅⟩

/-- The operations of the client, and what its workers do for its tasks. -/
def owns (part : Part) (key : String) : Label → Bool
  | .create _ peerKey _ _ _ | .getTask _ peerKey _ | .listTasks peerKey _ | .cancel _ peerKey _ _
  | .wait _ _ peerKey => peerKey = key
  | .attachHandle taskId _ | .finish taskId _ _ _ => taskId ∈ part.ids
  | .check w _ | .notified w | .dropWait w => w ∈ part.waits
  | .perform => false

def after (part : Part) (key : String) : Event → Part
  | (.create _ peerKey _ _ _, .created created) =>
    if peerKey = key then { part with ids := part.ids ++ [created.task.taskId] } else part
  | (.wait w _ peerKey, _) =>
    if peerKey = key then { part with waits := insert w part.waits }
    else { part with waits := part.waits.erase w }
  | _ => part

def afterAll (part : Part) (key : String) (es : List Event) : Part :=
  es.foldl (fun part e => part.after key e) part

/-- The events of a run that belong to the client. -/
def events (part : Part) (key : String) : List Event → List Event
  | [] => []
  | e :: es => (if part.owns key e.1 then [e] else []) ++ (part.after key e).events key es

theorem ids_after {part : Part} {key : String} {e : Event} :
    part.ids <+: (part.after key e).ids := by
  unfold after
  split
  · split
    · exact List.prefix_append _ _
    · exact List.prefix_refl _
  · split
    · exact List.prefix_refl _
    · exact List.prefix_refl _
  · exact List.prefix_refl _

theorem ids_afterAll {part : Part} {key : String} {es : List Event} :
    part.ids <+: (part.afterAll key es).ids := by
  induction es generalizing part with
  | nil => exact List.prefix_refl _
  | cons e es ih => exact ids_after.trans ih

end Part

/-- The same answer, but for the token of a new task and the order of a list. -/
inductive SameOutput : Output → Output → Prop
  | silent : SameOutput .silent .silent
  | created {created other : CreatedTask} (task : created.task = other.task) :
      SameOutput (.created created) (.created other)
  | finished (value : Option (Task × Peer)) : SameOutput (.finished value) (.finished value)
  | got (value : Option Task) : SameOutput (.got value) (.got value)
  | listed {value other : List Task} (perm : value.Perm other) :
      SameOutput (.listed value) (.listed other)
  | cancelled (value : Except CancelTaskError (Task × Peer)) :
      SameOutput (.cancelled value) (.cancelled value)
  | waited (taskId : String) (value : Except TaskLookupError TerminalResult) :
      SameOutput (.waited taskId value) (.waited taskId value)

structure SameEvent (e other : Event) : Prop where
  label : e.1 = other.1
  output : SameOutput e.2 other.2

/-- The calls that the holder of the lock owes are not part of what clients do. -/
def Label.isPerform : Label → Bool
  | .perform => true
  | _ => false

/-! ## Names of notifies -/

/-- The notify of a task has its number, also where a waiter remembers it. -/
structure Named (env : Platform) (s : State) : Prop where
  stored : ∀ taskId entry, s.stored taskId = some entry →
    env.newV4 entry.notify = taskId ∧ entry.notify < s.issued
  watched : ∀ w waiter notify, s.waiters w = some waiter → waiter.watches = some notify →
    env.newV4 notify = waiter.taskId

theorem init_named {env : Platform} : Named env .init where
  stored _ _ h := by cases h
  watched _ _ _ h := by cases h

theorem step_named {env : Platform} {s t : State} {e : Event} (hs : Named env s)
    (he : (machine env).Step s e t) : Named env t := by
  have hstored : ∀ taskId entry, t.stored taskId = some entry →
      env.newV4 entry.notify = taskId ∧ entry.notify < t.issued := by
    intro taskId entry h
    rcases step_notify he h with ⟨entry', hbefore, hnotify⟩ | ⟨hnotify, hid, hcount⟩
    · obtain ⟨hname, hlt⟩ := hs.stored taskId entry' hbefore
      rw [← hnotify]
      exact ⟨hname, Nat.lt_of_lt_of_le hlt (step_issued he)⟩
    · rw [hnotify, hcount]
      exact ⟨hid, Nat.lt_succ_self _⟩
  refine ⟨hstored, fun w waiter notify hw hn => ?_⟩
  rcases step_watches he hw hn with ⟨waiter', hbefore, hid, hwatch, _⟩ | ⟨entry, hentry, hnotify, _⟩
  · rw [← hid]
    exact hs.watched w waiter' notify hbefore hwatch
  · rw [← hnotify]
    exact (hstored _ entry hentry).1

theorem Runs.named {env : Platform} {s t : State} {es : List Event}
    (hr : Runs (machine env).Step s es t) (hs : Named env s) : Named env t :=
  hr.invariant (Named env) (fun _ _ _ h he => step_named h he) hs

/-! ## Two stores -/

/-- A store of all clients and one of a single client. -/
structure StoreSim (key : String) (part : Part) (now : DateTime)
    (inner other : TaskStoreInner) : Prop where
  view : SameView key now inner other
  mine : ∀ taskId entry, inner.entries.lookup taskId = some entry →
    (entry.peerKey = key ↔ taskId ∈ part.ids)
  only : ∀ taskId entry, other.entries.lookup taskId = some entry → entry.peerKey = key

section StoreSim
variable {key : String} {part : Part} {now later : DateTime} {inner other : TaskStoreInner}

theorem StoreSim.mono (h : StoreSim key part now inner other) (hle : now ≤ later) :
    StoreSim key part later inner other := ⟨h.view.mono hle, h.mine, h.only⟩

theorem StoreSim.sweep (h : StoreSim key part now inner other) :
    StoreSim key part now (inner.cleanupExpired now) other where
  view := h.view.congr (fun _ => visible_cleanupExpired (le_refl now)) fun _ => rfl
  mine taskId entry hentry := h.mine taskId entry (TaskStoreInner.lookup_cleanupExpired.mp hentry).1
  only := h.only

theorem StoreSim.sweepBoth (h : StoreSim key part now inner other) :
    StoreSim key part now (inner.cleanupExpired now) (other.cleanupExpired now) where
  view := h.sweep.view.congr (fun _ => rfl) fun _ => visible_cleanupExpired (le_refl now)
  mine := h.sweep.mine
  only taskId entry hentry := h.only taskId entry (TaskStoreInner.lookup_cleanupExpired.mp hentry).1

/-- An entry gives way to one of the same key that expires with it. -/
theorem visible_update {taskId otherId : String} {entry updated : TaskEntry}
    (hentry : inner.entries.lookup taskId = some entry) (hkey : updated.peerKey = entry.peerKey)
    (hexpired : updated.isExpired now = entry.isExpired now) :
    visible key now ⟨inner.entries.replace taskId updated⟩ otherId =
      if otherId = taskId then (visible key now inner taskId).map fun _ => updated
      else visible key now inner otherId := by
  rw [visible_replace, hentry]
  refine if_congr Iff.rfl ?_ rfl
  rw [visible, hentry, Option.map_some, Option.filter_some, Option.filter_some, hkey, hexpired]
  split <;> rfl

theorem StoreSim.updateForeign {taskId : String} {entry updated : TaskEntry}
    (h : StoreSim key part now inner other) (hentry : inner.entries.lookup taskId = some entry)
    (hforeign : entry.peerKey ≠ key) (hkey : updated.peerKey = entry.peerKey)
    (hexpired : updated.isExpired now = entry.isExpired now) :
    StoreSim key part now ⟨inner.entries.replace taskId updated⟩ other := by
  refine ⟨h.view.congr (fun otherId => ?_) (fun _ => rfl), fun otherId found hfound => ?_, h.only⟩
  · rw [visible_update hentry hkey hexpired]
    split
    · rename_i heq
      have hnone : visible key now inner taskId = none := by
        cases hvisible : visible key now inner taskId with
        | none => rfl
        | some shown =>
          obtain ⟨hshown, _, hown⟩ := lookup_of_visible hvisible
          cases hentry.symm.trans hshown
          exact absurd hown hforeign
      rw [heq, hnone]
      rfl
    · rfl
  · rw [HashMap.lookup_replace] at hfound
    split at hfound
    · rename_i heq
      rw [hentry] at hfound
      cases hfound
      rw [heq, hkey]
      exact h.mine taskId entry hentry
    · exact h.mine otherId found hfound

theorem StoreSim.updateBoth {taskId : String} {entry entry' updated updated' : TaskEntry}
    (h : StoreSim key part now inner other) (hentry : visible key now inner taskId = some entry)
    (hentry' : visible key now other taskId = some entry') (hsame : SameEntry updated updated')
    (hkey : updated.peerKey = entry.peerKey) (hkey' : updated'.peerKey = entry'.peerKey)
    (hexpired : updated.isExpired now = entry.isExpired now)
    (hexpired' : updated'.isExpired now = entry'.isExpired now) :
    StoreSim key part now ⟨inner.entries.replace taskId updated⟩
      ⟨other.entries.replace taskId updated'⟩ := by
  obtain ⟨hlookup, _, _⟩ := lookup_of_visible hentry
  obtain ⟨hlookup', _, hown'⟩ := lookup_of_visible hentry'
  refine ⟨fun otherId => ?_, fun otherId found hfound => ?_, fun otherId found hfound => ?_⟩
  · rw [visible_update hlookup hkey hexpired, visible_update hlookup' hkey' hexpired']
    split
    · rw [hentry, hentry']
      exact .some hsame
    · exact h.view otherId
  · rw [HashMap.lookup_replace] at hfound
    split at hfound
    · rename_i heq
      rw [hlookup] at hfound
      cases hfound
      rw [heq, hkey]
      exact h.mine taskId entry hlookup
    · exact h.mine otherId found hfound
  · rw [HashMap.lookup_replace] at hfound
    split at hfound
    · rw [hlookup'] at hfound
      cases hfound
      exact hkey'.trans hown'
    · exact h.only otherId found hfound

/-- Handles are not visible. -/
theorem visible_attachHandle {taskId otherId : String} {handle : JoinHandle} :
    visible key now (attachHandle inner taskId handle).inner otherId =
      if otherId = taskId then (visible key now inner taskId).map fun entry =>
        { entry with handle := some handle }
      else visible key now inner otherId := by
  unfold attachHandle
  cases hentry : inner.entries.lookup taskId with
  | none =>
    simp only
    split
    · rename_i heq
      rw [heq, visible, hentry]
      rfl
    · rfl
  | some entry =>
    refine (visible_update hentry ?_ ?_).trans (if_congr Iff.rfl ?_ rfl)
    · rfl
    · rfl
    · cases hvisible : visible key now inner taskId with
      | none => rfl
      | some shown =>
        cases hentry.symm.trans (lookup_of_visible hvisible).1
        rfl

theorem lookup_attachHandle {taskId otherId : String} {handle : JoinHandle} {entry : TaskEntry}
    (h : (attachHandle inner taskId handle).inner.entries.lookup otherId = some entry) :
    ∃ before, inner.entries.lookup otherId = some before ∧ before.peerKey = entry.peerKey := by
  unfold attachHandle at h
  cases hentry : inner.entries.lookup taskId with
  | none =>
    rw [hentry] at h
    exact ⟨entry, h, rfl⟩
  | some before =>
    rw [hentry] at h
    simp only [HashMap.lookup_replace] at h
    split at h
    · rename_i heq
      rw [hentry] at h
      cases h
      exact ⟨before, heq ▸ hentry, rfl⟩
    · exact ⟨entry, h, rfl⟩

theorem StoreSim.attach {taskId : String} {handle : JoinHandle}
    (h : StoreSim key part now inner other) :
    StoreSim key part now (attachHandle inner taskId handle).inner other := by
  refine ⟨fun otherId => ?_, fun otherId entry hentry => ?_, h.only⟩
  · rw [visible_attachHandle]
    split
    · rename_i heq
      rw [heq]
      have hrel := h.view taskId
      generalize visible key now inner taskId = shown at hrel ⊢
      generalize visible key now other taskId = shown' at hrel ⊢
      cases hrel with
      | none => exact .none
      | some hsame => exact .some ⟨hsame.1, hsame.2, hsame.3, hsame.4, hsame.5⟩
    · exact h.view otherId
  · obtain ⟨before, hbefore, hkey⟩ := lookup_attachHandle hentry
    rw [← hkey]
    exact h.mine otherId before hbefore

theorem StoreSim.attachOwn {taskId : String} {handle : JoinHandle}
    (h : StoreSim key part now inner other) :
    StoreSim key part now inner (attachHandle other taskId handle).inner := by
  refine ⟨fun otherId => ?_, h.mine, fun otherId entry hentry => ?_⟩
  · rw [visible_attachHandle]
    split
    · rename_i heq
      rw [heq]
      have hrel := h.view taskId
      generalize visible key now inner taskId = shown at hrel ⊢
      generalize visible key now other taskId = shown' at hrel ⊢
      cases hrel with
      | none => exact .none
      | some hsame => exact .some ⟨hsame.1, hsame.2, hsame.3, hsame.4, hsame.5⟩
    · exact h.view otherId
  · obtain ⟨before, hbefore, hkey⟩ := lookup_attachHandle hentry
    exact hkey.symm.trans (h.only otherId before hbefore)

theorem StoreSim.createForeign {taskId : String} {entry : TaskEntry}
    (h : StoreSim key part now inner other) (hfresh : inner.entries.lookup taskId = none)
    (hforeign : entry.peerKey ≠ key) (hid : taskId ∉ part.ids) :
    StoreSim key part now ⟨inner.entries.insert taskId entry⟩ other := by
  refine ⟨h.view.congr (fun otherId => ?_) (fun _ => rfl), fun otherId found hfound => ?_, h.only⟩
  · rw [visible_insert]
    split
    · rename_i heq
      rw [heq, visible, hfresh, Option.filter_some, if_neg (by simp [hforeign])]
      rfl
    · rfl
  · by_cases heq : otherId = taskId
    · subst heq
      rw [AList.lookup_insert] at hfound
      cases hfound
      exact iff_of_false hforeign hid
    · rw [AList.lookup_insert_ne heq] at hfound
      exact h.mine otherId found hfound

theorem StoreSim.createOwn {taskId : String} {entry entry' : TaskEntry}
    (h : StoreSim key part now inner other) (hsame : SameEntry entry entry')
    (hkey : entry.peerKey = key) :
    StoreSim key { part with ids := part.ids ++ [taskId] } now
      ⟨inner.entries.insert taskId entry⟩ ⟨other.entries.insert taskId entry'⟩ := by
  refine ⟨fun otherId => ?_, fun otherId found hfound => ?_, fun otherId found hfound => ?_⟩
  · rw [visible_insert, visible_insert]
    split
    · refine rel_filter (.some hsame) fun entry other hsame => ?_
      rw [hsame.isExpired, hsame.peerKey]
    · exact h.view otherId
  · rw [List.mem_append, List.mem_singleton]
    by_cases heq : otherId = taskId
    · subst heq
      rw [AList.lookup_insert] at hfound
      cases hfound
      exact iff_of_true hkey (.inr rfl)
    · rw [AList.lookup_insert_ne heq] at hfound
      rw [or_iff_left heq]
      exact h.mine otherId found hfound
  · by_cases heq : otherId = taskId
    · subst heq
      rw [AList.lookup_insert] at hfound
      cases hfound
      exact hsame.peerKey.symm.trans hkey
    · rw [AList.lookup_insert_ne heq] at hfound
      exact h.only otherId found hfound

end StoreSim

/-! ## Owed calls -/

def notifyOf : Effect → Option Notify
  | .notifyWaiters notify => some notify
  | .cancelToken _ | .abort _ => none

/-- The tasks whose waiters are still to be notified. -/
def owed (env : Platform) (effects : List Effect) : List String :=
  effects.filterMap fun effect => (notifyOf effect).map env.newV4

/-- Calls that wake nobody. -/
def Quiet (effects : List Effect) : Prop := ∀ effect ∈ effects, notifyOf effect = none

section Owed
variable {env : Platform}

theorem owed_quiet {front back : List Effect} (h : Quiet front) :
    owed env (front ++ back) = owed env back := by
  unfold owed
  rw [List.filterMap_append]
  have hfront : (front.filterMap fun effect => (notifyOf effect).map env.newV4) = [] := by
    refine List.filterMap_eq_nil_iff.mpr fun effect heffect => ?_
    rw [h effect heffect]
    rfl
  rw [hfront, List.nil_append]

theorem owed_of_quiet {effects : List Effect} (h : Quiet effects) : owed env effects = [] := by
  rw [← List.append_nil effects, owed_quiet h]
  rfl

theorem owes_nothing {effects : List Effect} {ids : List String} (h : Quiet effects) :
    (owed env effects).filter (· ∈ ids) = [] := by
  rw [owed_of_quiet h]
  rfl

theorem Quiet.append {front back : List Effect} (h : Quiet front) (h' : Quiet back) :
    Quiet (front ++ back) := by
  intro effect heffect
  rcases List.mem_append.mp heffect with heffect | heffect
  · exact h effect heffect
  · exact h' effect heffect

theorem quiet_abort {handle : Option JoinHandle} : Quiet (handle.map Effect.abort).toList := by
  cases handle with
  | none => exact nofun
  | some handle =>
    intro effect heffect
    rw [List.mem_singleton.mp heffect]
    rfl

theorem quiet_drop {entry : TaskEntry} : Quiet entry.drop := by
  intro effect heffect
  rcases List.mem_cons.mp heffect with rfl | heffect
  · rfl
  · exact quiet_abort effect heffect

theorem quiet_drops {inner : TaskStoreInner} {now : DateTime} : Quiet (inner.cleanupDrops now) := by
  intro effect heffect
  obtain ⟨entry, _, hentry⟩ := List.mem_flatMap.mp heffect
  exact quiet_drop effect hentry

/-- Calls that wake nobody change nothing that clients see. -/
theorem runs_quiet {t : State} {front back : List Effect} (hp : t.pending = front ++ back)
    (hquiet : Quiet front) : ∃ es aborted cancelled, (∀ e ∈ es, e.1.isPerform = true) ∧
      Runs (machine env).Step t es { t with pending := back, aborted, cancelled } := by
  induction front generalizing t with
  | nil =>
    refine ⟨[], t.aborted, t.cancelled, List.forall_mem_nil _, ?_⟩
    rw [List.nil_append] at hp
    rw [← hp]
    exact .refl t
  | cons effect front ih =>
    have hnext : ∃ aborted cancelled, ({ t with pending := front ++ back } : State).perform effect =
        { t with pending := front ++ back, aborted, cancelled } := by
      cases effect with
      | cancelToken token => exact ⟨_, _, rfl⟩
      | abort handle => exact ⟨_, _, rfl⟩
      | notifyWaiters notify => exact absurd (hquiet _ List.mem_cons_self) nofun
    obtain ⟨aborted, cancelled, hnext⟩ := hnext
    have hstep : (machine env).Step t (.perform, .silent)
        { t with pending := front ++ back, aborted, cancelled } :=
      step_perform.mpr ⟨effect, front ++ back, hp, hnext.symm, rfl⟩
    obtain ⟨es, aborted', cancelled', hes, hr⟩ := ih
      (t := { t with pending := front ++ back, aborted, cancelled }) rfl
      fun effect heffect => hquiet effect (List.mem_cons_of_mem _ heffect)
    refine ⟨(.perform, .silent) :: es, aborted', cancelled', ?_, .cons hstep hr⟩
    intro e he
    rcases List.mem_cons.mp he with rfl | he
    · rfl
    · exact hes e he

end Owed

end RustMcpCore.TaskStore
