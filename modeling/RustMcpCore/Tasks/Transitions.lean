import RustMcpCore.Tasks.Aborts
import RustMcpCore.Tasks.Lifecycle

/-! # Terminal transitions

A task that is settled or gone stays so, and what is aborted runs behind such a task.
-/
namespace RustMcpCore.TaskStore
open Library
variable {env : Platform} {s t : State} {e : Event} {o : Output}

/-- The task has been there, and if it still is, it is settled. -/
structure Closed (env : Platform) (taskId : String) (s : State) : Prop where
  issued : ∃ k < s.issued, env.newV4 k = taskId
  terminal : ∀ entry, s.stored taskId = some entry → isTerminal entry.task.status = true

theorem not_created {taskId : String} (he : (machine env).Step s e t)
    (hfresh : FreshIds env t.issued) (hissued : ∃ k < s.issued, env.newV4 k = taskId)
    (hcreates : e.1.creates = true) : taskId ≠ env.newV4 s.issued := by
  intro hkey
  obtain ⟨k, hk, hid⟩ := hissued
  have hcount := step_creates he hcreates
  have heq := hfresh k (by omega) s.issued (by omega) (hid.trans hkey)
  omega

theorem step_closed {taskId : String} (he : (machine env).Step s e t)
    (hfresh : FreshIds env t.issued) (h : Closed env taskId s) : Closed env taskId t := by
  constructor
  · obtain ⟨k, hk, hid⟩ := h.issued
    exact ⟨k, hk.trans_le (step_issued he), hid⟩
  · intro entry hstored
    cases step_origin he hstored with
    | kept before => exact h.terminal entry before
    | attached label before =>
      have hterminal := h.terminal _ before
      exact hterminal
    | created creates key => exact absurd key (not_created he hfresh h.issued creates)
    | finished => exact (finishStatus_agrees _).isTerminal
    | cancelled => rfl

/-! ## Finish and cancel -/

theorem finish_closes {taskId : String} {result : TerminalResult} {swept now : DateTime}
    (he : (machine env).Step s (.finish taskId result swept now, o) t) {entry : TaskEntry}
    (hstored : t.stored taskId = some entry) : isTerminal entry.task.status = true := by
  obtain ⟨_, rfl, _⟩ := step_finish.mp he
  rcases finish_cases env s.inner taskId result swept now with
    ⟨_, hinner, _, hterminal⟩ | ⟨_, hold, _, _, hinner, _⟩
  · rw [State.stored, hinner] at hstored
    exact hterminal entry hstored
  · rw [State.stored, hinner, HashMap.lookup_replace, if_pos rfl, hold] at hstored
    cases hstored
    exact (finishStatus_agrees result).isTerminal

theorem cancel_closes {taskId peerKey : String} {swept now : DateTime}
    (he : (machine env).Step s (.cancel taskId peerKey swept now, o) t)
    (hown : ∀ entry, s.stored taskId = some entry → entry.peerKey = peerKey) {entry : TaskEntry}
    (hstored : t.stored taskId = some entry) : isTerminal entry.task.status = true := by
  obtain ⟨_, rfl, _⟩ := step_cancel.mp he
  rcases cancel_cases env s.inner taskId peerKey swept now with
    ⟨_, _, hinner, _, hterminal⟩ | ⟨_, hold, _, _, _, hinner, _⟩
  · rw [State.stored, hinner] at hstored
    have hbefore := (TaskStoreInner.lookup_cleanupExpired.mp hstored).1
    exact (hterminal entry hstored (hown entry hbefore)).1
  · rw [State.stored, hinner, HashMap.lookup_replace, if_pos rfl, hold] at hstored
    cases hstored
    rfl

/-- A finish that takes effect takes it on an open task. -/
theorem finish_effective {taskId : String} {result : TerminalResult} {swept now : DateTime}
    {task : Task} {peer : Peer}
    (he : (machine env).Step s (.finish taskId result swept now, .finished (some (task, peer))) t) :
    ∃ entry, s.stored taskId = some entry ∧ entry.isExpired swept = false ∧
      isTerminal entry.task.status = false ∧ task.taskId = entry.task.taskId := by
  obtain ⟨_, _, hvalue⟩ := step_finish.mp he
  have hvalue := Output.finished.inj hvalue
  rcases finish_cases env s.inner taskId result swept now with
    ⟨hnone, _⟩ | ⟨entry, hentry, hopen, hsome, _⟩
  · rw [hnone] at hvalue
    cases hvalue
  · rw [hsome] at hvalue
    cases hvalue
    obtain ⟨hstored, hlive⟩ := TaskStoreInner.lookup_cleanupExpired.mp hentry
    exact ⟨entry, hstored, hlive, hopen, rfl⟩

/-- On an open task that has not expired, a finish takes effect. -/
theorem finish_of_isOpen {taskId : String} {result : TerminalResult} {swept now : DateTime}
    {entry : TaskEntry} (he : (machine env).Step s (.finish taskId result swept now, o) t)
    (hstored : s.stored taskId = some entry) (hlive : entry.isExpired swept = false)
    (hopen : isTerminal entry.task.status = false) :
    ∃ task peer, o = .finished (some (task, peer)) := by
  obtain ⟨_, _, rfl⟩ := step_finish.mp he
  have hkept := TaskStoreInner.lookup_cleanupExpired.mpr ⟨hstored, hlive⟩
  rcases finish_cases env s.inner taskId result swept now with
    ⟨_, _, _, hterminal⟩ | ⟨_, _, _, hsome, _⟩
  · rw [hterminal entry hkept] at hopen
    cases hopen
  · exact ⟨_, _, congrArg Output.finished hsome⟩

theorem cancel_effective {taskId peerKey : String} {swept now : DateTime} {task : Task}
    {peer : Peer}
    (he : (machine env).Step s (.cancel taskId peerKey swept now, .cancelled (.ok (task, peer))) t) :
    ∃ entry, s.stored taskId = some entry ∧ entry.peerKey = peerKey ∧
      isTerminal entry.task.status = false ∧ task.taskId = entry.task.taskId := by
  obtain ⟨_, _, hvalue⟩ := step_cancel.mp he
  have hvalue := Output.cancelled.inj hvalue
  rcases cancel_cases env s.inner taskId peerKey swept now with
    ⟨_, herror, _⟩ | ⟨entry, hentry, hown, hopen, hok, _⟩
  · rw [herror] at hvalue
    cases hvalue
  · rw [hok] at hvalue
    cases hvalue
    exact ⟨entry, (TaskStoreInner.lookup_cleanupExpired.mp hentry).1, hown, hopen, rfl⟩

/-! ## What is aborted -/

/-- Every operation that cleans up owes the drops of what it removes. -/
theorem step_drops {swept : DateTime} {effect : Effect} (he : (machine env).Step s e t)
    (hsweeps : e.1.sweeps = some swept) (h : effect ∈ s.inner.cleanupDrops swept) :
    effect ∈ t.pending := by
  obtain ⟨l, o⟩ := e
  cases l with
  | create =>
    cases hsweeps
    obtain ⟨_, _, rfl⟩ := step_create.mp he
    exact List.mem_append_left _ h
  | finish =>
    cases hsweeps
    obtain ⟨_, rfl, _⟩ := step_finish.mp he
    simp only [finish]
    split
    · exact h
    · split
      · exact h
      · exact List.mem_append_left _ (List.mem_append_left _ h)
  | getTask => cases hsweeps; obtain ⟨_, rfl, _⟩ := step_getTask.mp he; exact h
  | listTasks => cases hsweeps; obtain ⟨_, rfl, _⟩ := step_listTasks.mp he; exact h
  | cancel =>
    cases hsweeps
    obtain ⟨_, rfl, _⟩ := step_cancel.mp he
    simp only [cancel]
    split
    · exact h
    · split
      · exact h
      · split
        · exact h
        · exact List.mem_append_left _ (List.mem_append_left _ h)
  | check =>
    cases hsweeps
    obtain ⟨_, _, _, _, ⟨_, _, _, rfl⟩ | ⟨_, _, _, rfl⟩⟩ := step_check.mp he
    · exact h
    · exact h
  | _ => cases hsweeps

/-- A finish that takes effect aborts the execution whose handle it finds. -/
theorem finish_aborts {taskId : String} {result : TerminalResult} {swept now : DateTime}
    {entry : TaskEntry} {handle : JoinHandle}
    (he : (machine env).Step s (.finish taskId result swept now, o) t)
    (hstored : s.stored taskId = some entry) (hlive : entry.isExpired swept = false)
    (hopen : isTerminal entry.task.status = false) (hheld : entry.handle = some handle) :
    .abort handle ∈ t.pending := by
  obtain ⟨_, rfl, _⟩ := step_finish.mp he
  have hkept := TaskStoreInner.lookup_cleanupExpired.mpr ⟨hstored, hlive⟩
  simp only [finish, hkept, hopen, Bool.false_eq_true, if_false]
  exact List.mem_append_left _ (List.mem_append_right _ (abort_mem_handle.mpr hheld))

end RustMcpCore.TaskStore
