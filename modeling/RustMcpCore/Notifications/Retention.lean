import RustMcpCore.Notifications.Hub

/-! # What the hub remembers

An observed peer is in the shared list or in the hands of a running `notify`, and
the merge brings it back. It is lost when the `notify` that holds it is dropped, or
when another peer is observed under its key.
-/
namespace RustMcpCore.ClientNotificationHub
open Library Program
variable {s t : State} {e : Event}

/-- The peers that a call has taken out of the list and may still bring back. -/
def held : Option Task → List ObservedPeer
  | some (.notify _ (.sending entry rest keep _)) => keep ++ entry :: rest
  | some (.notify _ (.merging keep _)) => keep
  | _ => []

def Present (s : State) (entry : ObservedPeer) : Prop :=
  entry ∈ s.shared.peers ∨ ∃ j, entry ∈ held (s.tasks j)

/-- A dropped call is not the only one that holds an open peer, and no peer is observed
under the key of another open one. -/
def Retaining (s : State) (e : Event) : Prop :=
  match e.1.2 with
  | .drop => ∀ entry ∈ held (s.tasks e.1.1), entry.peer ∉ s.shared.closed →
      entry ∈ s.shared.peers ∨ ∃ j, j ≠ e.1.1 ∧ entry ∈ held (s.tasks j)
  | .record => ∀ new entry, s.tasks e.1.1 = some (.observe new) → Present s entry →
      entry.peer ∉ s.shared.closed → entry.key = new.key → entry = new
  | _ => True

/-- What a step does to the list and to the peers in the hands of the task. -/
inductive Move (g : Shared) (task : Option Task) (action : Action) (g' : Shared)
    (task' : Option Task) (o : Output) : Prop
  | kept (peers : g'.peers = g.peers) (closed : g.closed ⊆ g'.closed)
      (same : held task' = held task)
  | observed (entry : ObservedPeer) (shown : o = .observed entry) (idle : held task = [])
      (free : held task' = []) (after : g' = { g with peers := observe entry g.retained })
  | taken (free : held task = []) (took : held task' = g.retained)
      (after : g' = { g with peers := [] })
  | refused (kind : NotificationKind) (entry : ObservedPeer) (keep rest : List ObservedPeer)
      (shown : o = .failed kind entry) (before : held task = keep ++ entry :: rest)
      (left : held task' = keep ++ rest) (same : g' = g)
  | merged (free : held task' = [])
      (after : g' = { g with peers := mergePeers g.retained (held task) })
  | dropped (call : action = .drop) (free : held task' = []) (same : g' = g)

theorem held_sendNext (kind : NotificationKind) (keep : List ObservedPeer) (sent : ℕ)
    (rest : List ObservedPeer) :
    held (some (.notify kind (sendNext keep sent rest))) = keep ++ rest := by
  cases rest with
  | nil => exact (List.append_nil keep).symm
  | cons entry rest => rfl

theorem sublist_refused (keep rest : List ObservedPeer) (entry : ObservedPeer) :
    (keep ++ rest).Sublist (keep ++ entry :: rest) :=
  (List.Sublist.refl keep).append (List.sublist_cons_self entry rest)

section Steps
variable {i : ℕ} {g g' : Shared} {task task' : Option Task} {action : Action} {o : Output}

theorem actNotify_move {kind : NotificationKind} {phase : NotifyPhase}
    (h : actNotify g kind phase action = some (g', task', o)) :
    Move g (some (.notify kind phase)) action g' task' o := by
  unfold actNotify at h
  split at h
  · split at h
    · rename_i hnone
      cases h
      exact .taken rfl hnone.symm rfl
    · rename_i hsome
      cases h
      exact .taken rfl hsome.symm rfl
  · rename_i entry rest keep sent
    cases h
    refine .kept rfl subset_rfl ?_
    rw [held_sendNext, List.append_assoc]
    rfl
  · rename_i entry rest keep sent
    cases h
    exact .refused kind entry keep rest rfl rfl (held_sendNext _ _ _ _) rfl
  · cases h
    exact .merged rfl rfl
  · cases h

theorem act_move (h : act i g task action = some (g', task', o)) :
    Move g task action g' task' o := by
  unfold act at h
  split at h
  · cases h
    exact .kept rfl (Finset.subset_insert _ _) rfl
  · cases h
    exact .kept rfl subset_rfl rfl
  · cases h
    exact .kept rfl subset_rfl rfl
  · cases h
    exact .dropped rfl rfl rfl
  · cases h
    exact .observed _ rfl rfl rfl rfl
  · exact actNotify_move h
  · cases h

theorem act_observed {entry : ObservedPeer}
    (h : act i g task action = some (g', task', .observed entry)) :
    task = some (.observe entry) ∧ action = .record ∧ entry ∈ g'.peers := by
  unfold act at h
  split at h
  · cases h
  · cases h
  · cases h
  · cases h
  · cases h
    exact ⟨rfl, rfl, mem_observe_self entry _⟩
  · unfold actNotify at h
    split at h
    · split at h <;> cases h
    · cases h
    · cases h
    · cases h
    · cases h
  · cases h

end Steps

theorem step_move (he : Step s e t) :
    Move s.shared (s.tasks e.1.1) e.1.2 t.shared (t.tasks e.1.1) e.2 :=
  act_move (i := e.1.1) (step_self he)

theorem step_closed (he : Step s e t) : s.shared.closed ⊆ t.shared.closed := by
  cases step_move he with
  | kept _ closed => exact closed
  | observed _ _ _ _ after | taken _ _ after | merged _ after => rw [after]
  | refused _ _ _ _ _ _ _ same | dropped _ _ same => rw [same]

/-- What another task holds it goes on holding. -/
theorem held_other (he : Step s e t) {j : ℕ} {entry : ObservedPeer} (hj : j ≠ e.1.1)
    (h : entry ∈ held (s.tasks j)) : Present t entry :=
  .inr ⟨j, by rwa [step_other he hj]⟩

theorem step_present_old (he : Step s e t) {entry : ObservedPeer} (ht : Present t entry) :
    Present s entry ∨ e.2 = .observed entry := by
  have hself : entry ∈ t.shared.peers ∨ entry ∈ held (t.tasks e.1.1) →
      Present s entry ∨ e.2 = .observed entry := by
    intro h
    cases step_move he with
    | kept peers closed same =>
      rw [peers, same] at h
      exact .inl (h.imp id fun h => ⟨_, h⟩)
    | observed new shown idle free after =>
      rw [after, free] at h
      rcases h with h | h
      · rcases mem_of_observe h with rfl | h
        · exact .inr shown
        · exact .inl (.inl (mem_retained.mp h).1)
      · cases h
    | taken free took after =>
      rw [after, took] at h
      rcases h with h | h
      · cases h
      · exact .inl (.inl (mem_retained.mp h).1)
    | refused kind refused keep rest shown before left same =>
      rw [same, left] at h
      refine .inl (h.imp id fun h => ⟨e.1.1, ?_⟩)
      rw [before]
      exact (sublist_refused keep rest refused).subset h
    | merged free after =>
      rw [after, free] at h
      rcases h with h | h
      · rcases mem_of_mergePeers h with h | h
        · exact .inl (.inl (mem_retained.mp h).1)
        · exact .inl (.inr ⟨_, h⟩)
      · cases h
    | dropped call free same =>
      rw [same, free] at h
      rcases h with h | h
      · exact .inl (.inl h)
      · cases h
  rcases ht with h | ⟨j, h⟩
  · exact hself (.inl h)
  · by_cases hj : j = e.1.1
    · exact hself (.inr (hj ▸ h))
    · exact .inl (.inr ⟨j, by rwa [← step_other he hj]⟩)

/-! ## Keys -/

/-- In the list, and in the hands of one call, a key stands for one peer. -/
structure DistinctKeys (s : State) : Prop where
  shared : (s.shared.peers.map (·.key)).Nodup
  taken : ∀ j, ((held (s.tasks j)).map (·.key)).Nodup

theorem step_distinctKeys (hs : DistinctKeys s) (he : Step s e t) : DistinctKeys t := by
  have hself : (t.shared.peers.map (·.key)).Nodup ∧
      ((held (t.tasks e.1.1)).map (·.key)).Nodup := by
    cases step_move he with
    | kept peers closed same =>
      rw [peers, same]
      exact ⟨hs.shared, hs.taken _⟩
    | observed new shown idle free after =>
      rw [after, free]
      exact ⟨nodup_observe new (nodup_retained hs.shared), List.nodup_nil⟩
    | taken free took after =>
      rw [after, took]
      exact ⟨List.nodup_nil, nodup_retained hs.shared⟩
    | refused kind refused keep rest shown before left same =>
      have hbefore := hs.taken e.1.1
      rw [before] at hbefore
      rw [same, left]
      exact ⟨hs.shared, hbefore.sublist ((sublist_refused keep rest refused).map _)⟩
    | merged free after =>
      rw [after, free]
      exact ⟨nodup_mergePeers _ (nodup_retained hs.shared), List.nodup_nil⟩
    | dropped call free same =>
      rw [same, free]
      exact ⟨hs.shared, List.nodup_nil⟩
  refine ⟨hself.1, fun j => ?_⟩
  by_cases hj : j = e.1.1
  · rw [hj]
    exact hself.2
  · rw [step_other he hj]
    exact hs.taken j

/-- Open peers with one key are one peer, wherever they are. -/
def Uniform (s : State) : Prop :=
  ∀ a b, Present s a → Present s b → a.peer ∉ s.shared.closed → b.peer ∉ s.shared.closed →
    a.key = b.key → a = b

theorem observed_uniform (he : Guarded Step Retaining s e t) {new entry : ObservedPeer}
    (hnew : e.2 = .observed new) (hentry : Present s entry) (hopen : entry.peer ∉ s.shared.closed)
    (hkey : entry.key = new.key) : entry = new := by
  obtain ⟨hstep, hguard⟩ := he
  have hact := step_self hstep
  rw [hnew] at hact
  obtain ⟨caller, call, _⟩ := act_observed (i := e.1.1) hact
  simp only [Retaining, call] at hguard
  exact hguard new entry caller hentry hopen hkey

theorem step_uniform (hs : Uniform s) (he : Guarded Step Retaining s e t) : Uniform t := by
  have hclosed := step_closed he.1
  intro a b ha hb haopen hbopen hkey
  have haopen' := fun h => haopen (hclosed h)
  have hbopen' := fun h => hbopen (hclosed h)
  rcases step_present_old he.1 ha with ha | ha <;> rcases step_present_old he.1 hb with hb | hb
  · exact hs a b ha hb haopen' hbopen' hkey
  · exact observed_uniform he hb ha haopen' hkey
  · exact (observed_uniform he ha hb hbopen' hkey.symm).symm
  · rw [ha] at hb
    cases hb
    rfl

/-! ## Peers that are open and accept -/

def Observes (entry : ObservedPeer) (e : Event) : Prop := e.2 = .observed entry

/-- A send to the peer fails. -/
def Refuses (peer : Peer) (e : Event) : Prop :=
  ∃ kind entry, e.2 = .failed kind entry ∧ entry.peer = peer

/-- A peer that the hub knows and that goes on being open and accepting stays known. -/
theorem step_present (hkeys : DistinctKeys s) (hs : Uniform s)
    (he : Guarded Step Retaining s e t) {entry : ObservedPeer} (hentry : Present s entry)
    (hopen : entry.peer ∉ t.shared.closed) (hsent : ¬ Refuses entry.peer e) : Present t entry := by
  have hobserved := @observed_uniform _ _ _ he
  obtain ⟨hstep, hguard⟩ := he
  have hopen' : entry.peer ∉ s.shared.closed := fun h => hopen (step_closed hstep h)
  have hself : entry ∈ s.shared.peers ∨ entry ∈ held (s.tasks e.1.1) → Present t entry := by
    intro h
    cases step_move hstep with
    | kept peers closed same =>
      rw [← peers, ← same] at h
      exact h.imp id fun h => ⟨_, h⟩
    | observed new shown idle free after =>
      rcases h with h | h
      · refine .inl ?_
        rw [after]
        by_cases hkey : entry.key = new.key
        · rw [hobserved shown hentry hopen' hkey]
          exact mem_observe_self new _
        · exact mem_observe_other (mem_retained.mpr ⟨h, hopen'⟩) hkey
      · rw [idle] at h
        cases h
    | taken free took after =>
      rcases h with h | h
      · refine .inr ⟨e.1.1, ?_⟩
        rw [took]
        exact mem_retained.mpr ⟨h, hopen'⟩
      · rw [free] at h
        cases h
    | refused kind refused keep rest shown before left same =>
      rw [before] at h
      rcases h with h | h
      · exact .inl (same ▸ h)
      · refine .inr ⟨e.1.1, ?_⟩
        rw [left]
        have hne : entry ≠ refused := by
          rintro rfl
          exact hsent ⟨kind, entry, shown, rfl⟩
        simpa [hne] using h
    | merged free after =>
      refine .inl ?_
      rw [after]
      rcases h with h | h
      · exact mem_mergePeers_left (mem_retained.mpr ⟨h, hopen'⟩)
      · rcases @mem_mergePeers_right s.shared.retained _ _ h (hkeys.taken _) with
          hin | ⟨other, hother, hkey⟩
        · exact hin
        · obtain ⟨hmem, hotheropen⟩ := mem_retained.mp hother
          have heq := hs other entry (.inl hmem) (.inr ⟨_, h⟩) hotheropen hopen' hkey
          exact mem_mergePeers_left (heq ▸ hother)
    | dropped call free same =>
      simp only [Retaining, call] at hguard
      rcases h with h | h
      · exact .inl (same ▸ h)
      · rcases hguard entry h hopen' with h | ⟨j, hj, h⟩
        · exact .inl (same ▸ h)
        · exact held_other hstep hj h
  rcases hentry with h | ⟨j, h⟩
  · exact hself (.inl h)
  · by_cases hj : j = e.1.1
    · exact hself (.inr (hj ▸ h))
    · exact held_other hstep hj h

/-- Every open peer that has accepted all sends since it was observed is known. -/
structure Remembers (es : List Event) (s : State) : Prop where
  keys : DistinctKeys s
  uniform : Uniform s
  present : ∀ entry, Since (Observes entry) (Refuses entry.peer) es →
    entry.peer ∉ s.shared.closed → Present s entry

theorem init_remembers : Remembers [] init where
  keys := ⟨List.nodup_nil, fun _ => List.nodup_nil⟩
  uniform := by
    rintro a b (ha | ⟨j, ha⟩) <;> cases ha
  present _ h := absurd h not_since_nil

theorem step_remembers {es : List Event} (hs : Remembers es s)
    (he : Guarded Step Retaining s e t) : Remembers (es ++ [e]) t where
  keys := step_distinctKeys hs.keys he.1
  uniform := step_uniform hs.uniform he
  present entry h hopen := by
    rcases since_append.mp h with hnew | ⟨hold, hsent⟩
    · have hact := step_self he.1
      rw [hnew] at hact
      exact .inl (act_observed (i := e.1.1) hact).2.2
    · exact step_present hs.keys hs.uniform he
        (hs.present entry hold fun h => hopen (step_closed he.1 h)) hopen hsent

theorem runs_remembers {es : List Event} (hr : Runs (Guarded Step Retaining) init es s) :
    Remembers es s :=
  hr.history Remembers (fun _ _ _ _ hs he => step_remembers hs he) init_remembers

def Running (s : State) : Prop := ∃ i kind phase, s.tasks i = some (.notify kind phase)

theorem held_eq_nil (h : ¬ Running s) (j : ℕ) : held (s.tasks j) = [] := by
  cases htask : s.tasks j with
  | none => rfl
  | some task =>
    cases task with
    | observe entry => rfl
    | notify kind phase => exact absurd ⟨j, kind, phase, htask⟩ h

/-- In every run that drops no call that alone holds an open peer and in which no peer
takes the key of another open one, an idle hub has one entry for each key, and has every
open peer that has accepted all sends since it was observed. -/
theorem hub_retains {es : List Event} (hr : Runs (Guarded Step Retaining) init es s)
    (hidle : ¬ Running s) : (s.shared.peers.map (·.key)).Nodup ∧
      ∀ entry, Since (Observes entry) (Refuses entry.peer) es →
        entry.peer ∉ s.shared.closed → entry ∈ s.shared.peers := by
  have hs := runs_remembers hr
  refine ⟨hs.keys.shared, fun entry hentry hopen => ?_⟩
  rcases hs.present entry hentry hopen with h | ⟨j, h⟩
  · exact h
  · rw [held_eq_nil hidle] at h
    cases h

def session (peer : Peer) (sessionId : String) : RequestContext := ⟨peer, some sessionId, none⟩

/-- A peer is observed while another one is being sent to. -/
def observedMeanwhile : List (ℕ × Action) :=
  [(0, .observe (session 1 "a")), (0, .record), (0, .notify .tools), (0, .take),
    (1, .observe (session 2 "b")), (1, .record), (0, .send true), (0, .merge)]

theorem hub_retains_meanwhile : ∃ es s, es.map Prod.fst = observedMeanwhile ∧
    Runs (Guarded Step Retaining) init es s ∧ (s.shared.peers.map (·.key)).Nodup ∧
    ∀ entry, Since (Observes entry) (Refuses entry.peer) es →
      entry.peer ∉ s.shared.closed → entry ∈ s.shared.peers := by
  have hm : program.machine.Meets Retaining init observedMeanwhile := by
    refine ⟨trivial, ?_, trivial, trivial, trivial, ?_, trivial, trivial, trivial⟩
    · rintro new entry _ (h | ⟨_ | j, h⟩) <;> cases h
    · rintro new entry hnew (h | ⟨_ | _ | j, h⟩) _ hkey
      · cases h
      · cases hnew
        rw [List.mem_singleton.mp h] at hkey
        exact absurd hkey (by decide)
      · cases h
      · cases h
  have hr := hm.runs rfl
  refine ⟨_, _, rfl, hr, hub_retains hr ?_⟩
  rintro ⟨_ | _ | j, kind, phase, h⟩ <;> cases h

/-- A call is dropped while it sends to the only peer, which stays open. -/
theorem hub_forgets : ∃ es s, program.machine.Reachable s ∧ Runs Step init es s ∧
    ¬ Running s ∧ Since (Observes ⟨"session:a", 1⟩) (Refuses 1) es ∧
    s.shared.closed = ∅ ∧ s.shared.peers = [] := by
  have hr := @Machine.runs_of_execute _ _ _ program.machine init _
    [(0, .observe (session 1 "a")), (0, .record), (0, .notify .tools), (0, .take), (0, .drop)] _ rfl
  refine ⟨_, _, Machine.reachable_of_runs hr, hr, ?_, ?_, rfl, rfl⟩
  · rintro ⟨_ | j, kind, phase, h⟩ <;> cases h
  · refine ⟨[_], _, [_, _, _], rfl, rfl, ?_⟩
    intro e he
    rintro ⟨kind, entry, hfail, _⟩
    simp only [List.mem_cons, List.not_mem_nil, or_false] at he
    rcases he with rfl | rfl | rfl <;> cases hfail

end RustMcpCore.ClientNotificationHub
