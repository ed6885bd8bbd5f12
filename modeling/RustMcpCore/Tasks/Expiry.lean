import RustMcpCore.Tasks.Wakeup

/-! # Waiters of expired tasks

A clean-up drops expired entries and with them the only way to reach their
notifies, which it does not call. A waiter that is parked on one of them is
never woken. It is safe as long as no clean-up removes a task that is waited for.
-/
namespace RustMcpCore.TaskStore
open Library
variable {env : Platform} {s t : State} {e : Event}

/-- A waiter is parked on the notify of a task that is no longer stored. A waiter
whose notify has been called is not parked any more. -/
def Stranded (s : State) : Prop :=
  ∃ w taskId peerKey notify, s.waiters w = some ⟨taskId, peerKey, .parked notify⟩ ∧
    ∀ entry, s.stored taskId = some entry → entry.notify ≠ notify

/-- While a waiter has released the lock and not yet returned to it, no clean-up
finds its task expired, and no new task takes its id. -/
def KeepsAwaited (env : Platform) (s : State) (e : Event) : Prop :=
  ∀ w waiter, s.waiters w = some waiter → waiter.phase ≠ .loop →
    (∀ swept entry, e.1.sweeps = some swept → s.stored waiter.taskId = some entry →
      entry.isExpired swept = false) ∧
    (e.1.creates = true → env.newV4 s.issued ≠ waiter.taskId)

/-- Whoever watches a notify has its task in the store. -/
def WatchedStored (s : State) : Prop :=
  ∀ w waiter notify, s.waiters w = some waiter → waiter.watches = some notify →
    ∃ entry, s.stored waiter.taskId = some entry ∧ entry.notify = notify

/-- An entry that is not expired keeps its place and its notify. -/
theorem step_remains (he : (machine env).Step s e t) {taskId : String} {entry : TaskEntry}
    (hs : s.stored taskId = some entry)
    (hlive : ∀ swept, e.1.sweeps = some swept → entry.isExpired swept = false)
    (hid : e.1.creates = true → env.newV4 s.issued ≠ taskId) :
    ∃ entry', t.stored taskId = some entry' ∧ entry'.notify = entry.notify := by
  have kept : ∀ swept, e.1.sweeps = some swept →
      (s.inner.cleanupExpired swept).entries.lookup taskId = some entry := by
    intro swept h
    exact TaskStoreInner.lookup_cleanupExpired.mpr ⟨hs, hlive swept h⟩
  have replaced : ∀ swept id old new, e.1.sweeps = some swept →
      (s.inner.cleanupExpired swept).entries.lookup id = some old → new.notify = old.notify →
      t.inner = ⟨(s.inner.cleanupExpired swept).entries.replace id new⟩ →
      ∃ entry', t.stored taskId = some entry' ∧ entry'.notify = entry.notify := by
    intro swept id old new h hold hnew ht
    rw [State.stored, ht, HashMap.lookup_replace]
    by_cases hne : taskId = id
    · subst hne
      rw [kept swept h] at hold
      cases hold
      exact ⟨new, by rw [if_pos rfl, kept swept h]; rfl, hnew⟩
    · exact ⟨entry, by rw [if_neg hne, kept swept h], rfl⟩
  obtain ⟨l, o⟩ := e
  cases l with
  | create _ _ _ swept now =>
    obtain ⟨_, _, rfl⟩ := step_create.mp he
    refine ⟨entry, ?_, rfl⟩
    exact (AList.lookup_insert_ne (Ne.symm (hid rfl))).trans (kept swept rfl)
  | attachHandle id handle =>
    obtain ⟨_, rfl, _⟩ := step_attachHandle.mp he
    cases hl : s.inner.entries.lookup id with
    | none =>
      refine ⟨entry, ?_, rfl⟩
      simpa only [State.stored, attachHandle, hl] using hs
    | some old =>
      by_cases hne : taskId = id
      · subst hne
        rw [State.stored, hl] at hs
        cases hs
        refine ⟨{ entry with handle := some handle }, ?_, rfl⟩
        simp only [State.stored, attachHandle, hl, HashMap.lookup_replace, if_true, Option.map_some]
      · refine ⟨entry, ?_, rfl⟩
        simpa only [State.stored, attachHandle, hl, HashMap.lookup_replace, if_neg hne] using hs
  | finish id result swept now =>
    obtain ⟨_, rfl, _⟩ := step_finish.mp he
    rcases finish_cases env s.inner id result swept now with
      ⟨_, hi, _⟩ | ⟨old, hold, _, _, hi, _⟩
    · exact ⟨entry, by rw [State.stored, hi, kept swept rfl], rfl⟩
    · exact replaced swept id old (finishedEntry env old result now) rfl hold rfl hi
  | cancel id peerKey swept now =>
    obtain ⟨_, rfl, _⟩ := step_cancel.mp he
    rcases cancel_cases env s.inner id peerKey swept now with
      ⟨_, _, hi, _⟩ | ⟨old, hold, _, _, _, hi, _⟩
    · exact ⟨entry, by rw [State.stored, hi, kept swept rfl], rfl⟩
    · exact replaced swept id old (cancelledEntry env old now) rfl hold rfl hi
  | getTask _ _ swept =>
    obtain ⟨_, rfl, _⟩ := step_getTask.mp he
    exact ⟨entry, kept swept rfl, rfl⟩
  | listTasks _ swept =>
    obtain ⟨_, rfl, _⟩ := step_listTasks.mp he
    exact ⟨entry, kept swept rfl, rfl⟩
  | check w swept =>
    obtain ⟨_, _, _, _, ⟨_, _, _, rfl⟩ | ⟨_, _, _, rfl⟩⟩ := step_check.mp he
    · exact ⟨entry, kept swept rfl, rfl⟩
    · exact ⟨entry, kept swept rfl, rfl⟩
  | perform =>
    obtain ⟨effect, rest, _, rfl, _⟩ := step_perform.mp he
    exact ⟨entry, (perform_stored { s with pending := rest } effect taskId).trans hs, rfl⟩
  | wait => obtain ⟨_, rfl, _⟩ := step_wait.mp he; exact ⟨entry, hs, rfl⟩
  | notified => obtain ⟨_, _, _, _, rfl, _⟩ := step_notified.mp he; exact ⟨entry, hs, rfl⟩
  | dropWait => obtain ⟨_, rfl, _⟩ := step_dropWait.mp he; exact ⟨entry, hs, rfl⟩

theorem step_watchedStored (hs : WatchedStored s)
    (he : Guarded (machine env).Step (KeepsAwaited env) s e t) : WatchedStored t := by
  intro w waiter notify hw hn
  rcases step_watches he.1 hw hn with ⟨waiter', hw', hid, hn', _⟩ | ⟨entry, ht, hnotify, _⟩
  · obtain ⟨entry, hstored, hnotify⟩ := hs w waiter' notify hw' hn'
    have hphase : waiter'.phase ≠ .loop := by
      intro h
      simp [Waiter.watches, h] at hn'
    obtain ⟨hlive, hnew⟩ := he.2 w waiter' hw' hphase
    obtain ⟨entry', ht, hsame⟩ := step_remains he.1 hstored
      (fun swept h => hlive swept entry h hstored) hnew
    exact ⟨entry', hid ▸ ht, hsame.trans hnotify⟩
  · exact ⟨entry, ht, hnotify⟩

/-- In every run in which no clean-up removes a task while it is waited for, every
parked waiter has its task in the store. -/
theorem no_stranded {es : List Event}
    (hr : Runs (Guarded (machine env).Step (KeepsAwaited env)) .init es s) : ¬ Stranded s := by
  have hinv : WatchedStored s :=
    hr.invariant WatchedStored (fun _ _ _ hs he => step_watchedStored hs he) fun _ _ _ h => by cases h
  rintro ⟨w, taskId, peerKey, notify, hw, hgone⟩
  obtain ⟨entry, hs, hn⟩ := hinv w _ notify hw rfl
  exact hgone entry hs hn

/-- A waiter parks on a task that lives for a minute, and a clean-up runs. -/
theorem no_stranded_parked : ∃ env es s, es.map Prod.fst =
      [.create 0 "peer" (some 60000) 0 0, .wait 0 "task-0" "peer", .check 0 0, .notified 0,
        .listTasks "peer" 1000000000] ∧
    Runs (Guarded (machine env).Step (KeepsAwaited env)) .init es s ∧ ¬ Stranded s := by
  have hm : (machine ⟨fun _ => "task-0", fun _ => ""⟩).Meets
      (KeepsAwaited ⟨fun _ => "task-0", fun _ => ""⟩) .init
      [.create 0 "peer" (some 60000) 0 0, .wait 0 "task-0" "peer", .check 0 0, .notified 0,
        .listTasks "peer" 1000000000] := by
    have idle : ∀ (s : State) (e : Event), s.waiters = (fun _ => none) ∨
        s.waiters = Function.update (fun _ => none) 0 (some ⟨"task-0", "peer", .loop⟩) →
        KeepsAwaited ⟨fun _ => "task-0", fun _ => ""⟩ s e := by
      rintro s e (h | h) w waiter hw hphase
      · rw [h] at hw
        cases hw
      · rw [h] at hw
        cases w with
        | zero => cases hw; exact absurd rfl hphase
        | succ w => cases hw
    refine ⟨idle _ _ (.inl rfl), idle _ _ (.inl rfl), idle _ _ (.inr rfl), ?_, ?_, trivial⟩
    · exact fun _ _ _ _ => ⟨fun _ _ h => (by cases h), fun h => (by cases h)⟩
    · intro w waiter hw _
      cases w with
      | zero =>
        cases hw
        refine ⟨fun swept entry h hs => ?_, fun h => by cases h⟩
        cases h
        cases hs
        rfl
      | succ w => cases hw
  have hr := hm.runs rfl
  exact ⟨_, _, _, rfl, hr, no_stranded hr⟩

/-- Another client lists its tasks a second after a task of one millisecond was
created and awaited. -/
theorem stranded_reachable : ∃ env s, (machine env).Reachable s ∧ Stranded s ∧
    s.pending = [] := by
  have hr := @Machine.runs_of_execute _ _ _ (machine ⟨fun _ => "task-0", fun _ => ""⟩) .init _
    [.create 0 "peer" (some 1) 0 0, .wait 0 "task-0" "peer", .check 0 0, .notified 0,
      .listTasks "other" 1000000000, .perform] _ rfl
  refine ⟨_, _, Machine.reachable_of_runs hr, ⟨0, "task-0", "peer", 0, rfl, ?_⟩, rfl⟩
  intro _ h
  cases h

end RustMcpCore.TaskStore
