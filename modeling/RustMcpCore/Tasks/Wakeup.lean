import RustMcpCore.Tasks.Entries

/-! # Waiters and their notifies

`notify_waiters` wakes the futures that exist and leaves nothing for later ones.
A waiter that has seen an open record but has not yet created its future is
therefore not woken. As long as no notify falls into that gap, every waiter of a
terminal record is about to be woken.
-/
namespace RustMcpCore.TaskStore
open Library
variable {env : Platform} {s t : State} {e : Event}

/-- A task is stored with a result, the call that notifies its waiters has been
made, and a waiter of the task is parked on that notify. -/
def LostWakeup (s : State) : Prop :=
  ∃ taskId entry w peerKey, s.stored taskId = some entry ∧ entry.terminalResult.isSome = true ∧
    .notifyWaiters entry.notify ∉ s.pending ∧
    s.waiters w = some ⟨taskId, peerKey, .parked entry.notify⟩

/-- No notify is sent while a waiter stands between its look at the record and
the creation of its future. -/
def NotifiesParked (s : State) (e : Event) : Prop :=
  e.1 = .perform → ∀ notify rest, s.pending = .notifyWaiters notify :: rest →
    ∀ w waiter, s.waiters w = some waiter → waiter.phase ≠ .checked notify

/-- The notify that the next turn of a waiter depends on. -/
def Waiter.watches (waiter : Waiter) : Option Notify :=
  match waiter.phase with
  | .loop => none
  | .checked notify | .parked notify => some notify

structure NotifiesDistinct (s : State) : Prop where
  issued : ∀ taskId entry, s.stored taskId = some entry → entry.notify < s.issued
  injective : ∀ taskId taskId' entry entry', s.stored taskId = some entry →
    s.stored taskId' = some entry' → entry.notify = entry'.notify → taskId = taskId'

/-- Whoever watches the notify of a terminal record will be notified. -/
def WatchedNotified (s : State) : Prop :=
  ∀ w waiter notify, s.waiters w = some waiter → waiter.watches = some notify →
    ∀ taskId entry, s.stored taskId = some entry → entry.notify = notify →
      entry.terminalResult.isSome = true → .notifyWaiters notify ∈ s.pending

theorem step_notify (he : (machine env).Step s e t) {taskId : String} {entry : TaskEntry}
    (h : t.stored taskId = some entry) :
    (∃ entry', s.stored taskId = some entry' ∧ entry'.notify = entry.notify) ∨
      (entry.notify = s.issued ∧ env.newV4 s.issued = taskId ∧ t.issued = s.issued + 1) := by
  cases step_entry taskId he with
  | gone _ after => rw [after] at h; cases h
  | kept _ before after => rw [after] at h; cases h; exact .inl ⟨_, before, rfl⟩
  | created _ key count after _ _ notify =>
    rw [after] at h
    cases h
    exact .inr ⟨notify, key, count⟩
  | settled _ before _ after _ _ _ notify =>
    rw [after] at h
    cases h
    exact .inl ⟨_, before, notify.symm⟩

theorem step_notifiesDistinct (hs : NotifiesDistinct s) (he : (machine env).Step s e t) :
    NotifiesDistinct t := by
  have hle := step_issued he
  constructor
  · intro taskId entry h
    rcases step_notify he h with ⟨entry', hb, hn⟩ | ⟨hn, _, count⟩
    · rw [← hn]
      exact Nat.lt_of_lt_of_le (hs.issued taskId entry' hb) hle
    · rw [hn, count]
      exact Nat.lt_succ_self _
  · intro taskId taskId' entry entry' h h' heq
    rcases step_notify he h with ⟨a, ha, hn⟩ | ⟨hn, key, _⟩ <;>
      rcases step_notify he h' with ⟨b, hb, hn'⟩ | ⟨hn', key', _⟩
    · exact hs.injective taskId taskId' a b ha hb (hn.trans (heq.trans hn'.symm))
    · exact absurd (hn.trans (heq.trans hn')) (Nat.ne_of_lt (hs.issued taskId a ha))
    · exact absurd (hn'.trans (heq.symm.trans hn)) (Nat.ne_of_lt (hs.issued taskId' b hb))
    · exact key.symm.trans key'

/-- Where a step leaves a waiter that watches a notify: it watched it before, or
it has just seen an open record. -/
theorem step_watches (he : (machine env).Step s e t) {w : ℕ} {waiter : Waiter} {notify : Notify}
    (hw : t.waiters w = some waiter) (hn : waiter.watches = some notify) :
    (∃ waiter', s.waiters w = some waiter' ∧ waiter'.taskId = waiter.taskId ∧
      waiter'.watches = some notify ∧ (e.1 = .perform → waiter' = waiter)) ∨
    ∃ entry, t.stored waiter.taskId = some entry ∧ entry.notify = notify ∧
      entry.terminalResult = none := by
  obtain ⟨l, o⟩ := e
  cases l with
  | create => obtain ⟨_, _, rfl⟩ := step_create.mp he; exact .inl ⟨waiter, hw, rfl, hn, nofun⟩
  | attachHandle =>
    obtain ⟨_, rfl, _⟩ := step_attachHandle.mp he
    exact .inl ⟨waiter, hw, rfl, hn, nofun⟩
  | finish => obtain ⟨_, rfl, _⟩ := step_finish.mp he; exact .inl ⟨waiter, hw, rfl, hn, nofun⟩
  | getTask => obtain ⟨_, rfl, _⟩ := step_getTask.mp he; exact .inl ⟨waiter, hw, rfl, hn, nofun⟩
  | listTasks => obtain ⟨_, rfl, _⟩ := step_listTasks.mp he; exact .inl ⟨waiter, hw, rfl, hn, nofun⟩
  | cancel => obtain ⟨_, rfl, _⟩ := step_cancel.mp he; exact .inl ⟨waiter, hw, rfl, hn, nofun⟩
  | perform =>
    obtain ⟨effect, rest, _, rfl, _⟩ := step_perform.mp he
    refine .inl ⟨waiter, ?_, rfl, hn, fun _ => rfl⟩
    cases effect with
    | cancelToken | abort => exact hw
    | notifyWaiters n =>
      obtain ⟨waiter', hw', rfl⟩ := Option.map_eq_some_iff.mp hw
      unfold Waiter.wake at hn ⊢
      split at hn
      · cases hn
      · rw [if_neg ‹_›]
        exact hw'
  | wait w' =>
    obtain ⟨_, rfl, _⟩ := step_wait.mp he
    by_cases hww : w = w'
    · subst hww
      simp only [State.setWaiter, Function.update_self, Option.some.injEq] at hw
      subst hw
      cases hn
    · simp only [State.setWaiter, Function.update_of_ne hww] at hw
      exact .inl ⟨waiter, hw, rfl, hn, nofun⟩
  | check w' swept =>
    obtain ⟨taskId, peerKey, _, _, hcase⟩ := step_check.mp he
    by_cases hww : w = w'
    · subst hww
      obtain ⟨_, _, _, rfl⟩ | ⟨n, hv, _, rfl⟩ := hcase
      · simp [State.setWaiter] at hw
      · simp only [State.setWaiter, Function.update_self, Option.some.injEq] at hw
        subst hw
        cases hn
        obtain ⟨entry, hl, hr, hnotify⟩ := checkResult_notify hv
        exact .inr ⟨entry, hl, hnotify, hr⟩
    · have hw' : s.waiters w = some waiter := by
        obtain ⟨_, _, _, rfl⟩ | ⟨n, hv, _, rfl⟩ := hcase <;>
          simpa only [State.setWaiter, Function.update_of_ne hww] using hw
      exact .inl ⟨waiter, hw', rfl, hn, nofun⟩
  | notified w' =>
    obtain ⟨taskId, peerKey, n, hb, rfl, _⟩ := step_notified.mp he
    by_cases hww : w = w'
    · subst hww
      simp only [State.setWaiter, Function.update_self, Option.some.injEq] at hw
      subst hw
      exact .inl ⟨_, hb, rfl, hn, nofun⟩
    · simp only [State.setWaiter, Function.update_of_ne hww] at hw
      exact .inl ⟨waiter, hw, rfl, hn, nofun⟩
  | dropWait w' =>
    obtain ⟨_, rfl, _⟩ := step_dropWait.mp he
    by_cases hww : w = w'
    · subst hww
      simp [State.setWaiter] at hw
    · simp only [State.setWaiter, Function.update_of_ne hww] at hw
      exact .inl ⟨waiter, hw, rfl, hn, nofun⟩

theorem step_pending (he : (machine env).Step s e t) {effect : Effect}
    (hp : effect ∈ s.pending) : effect ∈ t.pending ∨
      e.1 = .perform ∧ ∃ rest, s.pending = effect :: rest ∧
        t = { s with pending := rest }.perform effect := by
  -- The sections start with nothing owed.
  have locked : s.pending = [] → False := fun h => by simp [h] at hp
  obtain ⟨l, o⟩ := e
  cases l with
  | create => exact (locked (step_create.mp he).1).elim
  | attachHandle => exact (locked (step_attachHandle.mp he).1).elim
  | finish => exact (locked (step_finish.mp he).1).elim
  | getTask => exact (locked (step_getTask.mp he).1).elim
  | listTasks => exact (locked (step_listTasks.mp he).1).elim
  | cancel => exact (locked (step_cancel.mp he).1).elim
  | check =>
    obtain ⟨_, _, _, hnil, _⟩ := step_check.mp he
    exact (locked hnil).elim
  | wait => obtain ⟨_, rfl, _⟩ := step_wait.mp he; exact .inl hp
  | notified => obtain ⟨_, _, _, _, rfl, _⟩ := step_notified.mp he; exact .inl hp
  | dropWait => obtain ⟨_, rfl, _⟩ := step_dropWait.mp he; exact .inl hp
  | perform =>
    obtain ⟨head, rest, hs, rfl, _⟩ := step_perform.mp he
    rw [hs] at hp
    rcases List.mem_cons.mp hp with rfl | hr
    · exact .inr ⟨rfl, rest, hs, rfl⟩
    · refine .inl ?_
      cases head <;> exact hr

theorem perform_notify {notify : Notify} {w : ℕ} {waiter : Waiter}
    (hw : (s.perform (.notifyWaiters notify)).waiters w = some waiter) :
    waiter.phase ≠ .parked notify := by
  obtain ⟨waiter', _, rfl⟩ := Option.map_eq_some_iff.mp hw
  unfold Waiter.wake
  split <;> simp [*]

theorem step_watchedNotified (hs : WatchedNotified s) (hd : NotifiesDistinct t)
    (he : Guarded (machine env).Step NotifiesParked s e t) : WatchedNotified t := by
  intro w waiter notify hw hn taskId entry ht hnotify hsome
  rcases step_watches he.1 hw hn with
    ⟨waiter', hw', _, hn', hsame⟩ | ⟨entry', ht', hnotify', hnone⟩
  · -- An older watcher: the record was terminal before, or this step settles it.
    have owed : ∀ entry', s.stored taskId = some entry' → entry'.notify = notify →
        entry'.terminalResult.isSome = true → .notifyWaiters notify ∈ t.pending := by
      intro entry' hb hnb hsb
      rcases step_pending he.1 (hs w waiter' notify hw' hn' taskId entry' hb hnb hsb) with
        hp | ⟨hl, rest, hp, rfl⟩
      · exact hp
      · have hparked := perform_notify hw
        have hchecked := he.2 hl notify rest hp w waiter' hw'
        rw [hsame hl] at hchecked
        obtain ⟨_, _, _ | n | n⟩ := waiter
        · cases hn
        · cases hn; exact absurd rfl hchecked
        · cases hn; exact absurd rfl hparked
    cases step_entry taskId he.1 with
    | gone _ after => rw [after] at ht; cases ht
    | kept _ before after =>
      rw [after] at ht
      cases ht
      exact owed _ before hnotify hsome
    | created _ _ _ after _ noResult =>
      rw [after] at ht
      cases ht
      simp [noResult] at hsome
    | settled _ before _ after _ _ _ same wakes =>
      rw [after] at ht
      cases ht
      rw [← hnotify, same]
      exact wakes
  · -- A new watcher: its record is open, and no other has this notify.
    have hid := hd.injective taskId waiter.taskId entry entry' ht ht' (hnotify.trans hnotify'.symm)
    subst hid
    rw [ht] at ht'
    cases ht'
    simp [hnone] at hsome

theorem init_watchedNotified : NotifiesDistinct .init ∧ WatchedNotified .init := by
  refine ⟨⟨?_, ?_⟩, ?_⟩
  · intro _ _ h; cases h
  · intro _ _ _ _ h; cases h
  · intro _ _ _ h; cases h

/-- In every run in which no notify falls between a waiter's look at the record
and the creation of its future, no wake-up is lost. -/
theorem no_lostWakeup {es : List Event}
    (hr : Runs (Guarded (machine env).Step NotifiesParked) .init es s) : ¬ LostWakeup s := by
  have hinv : NotifiesDistinct s ∧ WatchedNotified s := by
    refine hr.invariant (fun s => NotifiesDistinct s ∧ WatchedNotified s) ?_ init_watchedNotified
    rintro a b c ⟨hd, hw⟩ he
    have hd' := step_notifiesDistinct hd he.1
    exact ⟨hd', step_watchedNotified hw hd' he⟩
  rintro ⟨taskId, entry, w, peerKey, hs, hsome, howed, hw⟩
  exact howed (hinv.2 w _ entry.notify hw rfl taskId entry hs rfl hsome)

/-- A waiter parks, and then the task finishes. -/
theorem no_lostWakeup_parked : ∃ env es s, es.map Prod.fst =
      [.create 0 "peer" none 0 0, .wait 0 "task-0" "peer", .check 0 0, .notified 0,
        .finish "task-0" (.error (.internalError "boom" none)) 1 1, .perform] ∧
    Runs (Guarded (machine env).Step NotifiesParked) .init es s ∧ ¬ LostWakeup s := by
  have hm : (machine ⟨fun _ => "task-0", fun _ => ""⟩).Meets NotifiesParked .init
      [.create 0 "peer" none 0 0, .wait 0 "task-0" "peer", .check 0 0, .notified 0,
        .finish "task-0" (.error (.internalError "boom" none)) 1 1, .perform] := by
    refine And.intro nofun (And.intro nofun (And.intro nofun (And.intro nofun
      (And.intro nofun (And.intro ?_ trivial)))))
    intro _ notify rest _ w waiter hw
    cases w with
    | zero => cases hw; nofun
    | succ w => cases hw
  have hr := hm.runs rfl
  exact ⟨_, _, _, rfl, hr, no_lostWakeup hr⟩

/-- The task is created and awaited, and finishes right after the waiter has
looked at it. -/
theorem lostWakeup_reachable : ∃ env s, (machine env).Reachable s ∧ LostWakeup s ∧
    s.pending = [] := by
  have hr := @Machine.runs_of_execute _ _ _ (machine ⟨fun _ => "task-0", fun _ => ""⟩) .init _
    [.create 0 "peer" none 0 0, .wait 0 "task-0" "peer", .check 0 0,
      .finish "task-0" (.error (.internalError "boom" none)) 1 1, .perform, .notified 0] _ rfl
  exact ⟨_, _, Machine.reachable_of_runs hr, ⟨"task-0", _, 0, "peer", rfl, rfl, nofun, rfl⟩, rfl⟩

end RustMcpCore.TaskStore
