import RustMcpCore.Engine.Handlers
import RustMcpCore.Tasks.Lifecycle
import RustMcpCore.Tasks.StatusNotifications
import RustMcpCore.Tasks.Views

/-! # Requests to cancel a task

The store settles the task for good, and then its peer is told, which may fail. What
the request leaves is compared with what any look at the store leaves at the same time:
the tasks that have expired by then are gone either way.
-/
namespace RustMcpCore.TaskStore
open Library

/-- The variant's name, as `Debug` writes it. -/
def TaskStatus.debug : TaskStatus → String
  | .working => "Working"
  | .inputRequired => "InputRequired"
  | .completed => "Completed"
  | .failed => "Failed"
  | .cancelled => "Cancelled"

def cancelTaskError : CancelTaskError → McpError
  | .notFound => Dispatch.taskNotFoundError
  | .terminal status =>
    .invalidParams
      (s!"cannot cancel task: already in terminal status '{TaskStatus.debug status}'").toLower none

section Handler
variable (env : Platform) (config : McpConfig) (sender : Sender)

/-- What the handler leaves of the store, and what it answers. -/
def handleCancelTaskRequest (inner : TaskStoreInner) (taskId : String)
    (context : TaskRequests.RequestContext) (swept now : DateTime) :
    Section (Except McpError Task) :=
  if context.isCancelled then { inner, effects := [], value := .error cancelledError }
  else if !config.tasksCancelActive then
    { inner, effects := [], value := .error (.methodNotFound "tasks/cancel") }
  else
    let left := cancel env inner taskId context.peerKey swept now
    { inner := left.inner
      effects := left.effects
      value := do
        let (task, peer) ← left.value.mapError cancelTaskError
        notifyTaskStatus config sender task peer
        return task }

/-- At the time, the task is stored as it would be, and nothing runs less than it would. -/
structure Untouched {A : Type} (taskId : String) (swept : DateTime) (inner : TaskStoreInner)
    (left : Section A) : Prop where
  entry : (left.inner.cleanupExpired swept).entries.lookup taskId =
    (inner.cleanupExpired swept).entries.lookup taskId
  calls : ∀ effect ∈ left.effects, effect ∈ inner.cleanupDrops swept

/-- An error leaves the task alone, and else it is cancelled. -/
structure AllOrNothing (taskId : String) (swept : DateTime) (inner : TaskStoreInner)
    (left : Section (Except McpError Task)) : Prop where
  error : ∀ error, left.value = .error error → Untouched taskId swept inner left
  ok : ∀ task, left.value = .ok task → task.status = .cancelled ∧
    ∃ entry, left.inner.entries.lookup taskId = some entry ∧ entry.task = task

end Handler

variable {env : Platform} {config : McpConfig} {sender : Sender} {inner : TaskStoreInner}
  {taskId : String} {context : TaskRequests.RequestContext} {swept now : DateTime}

theorem AllOrNothing.of_error {left : Section (Except McpError Task)} {error : McpError}
    (hvalue : left.value = .error error) (h : Untouched taskId swept inner left) :
    AllOrNothing taskId swept inner left where
  error _ _ := h
  ok task htask := by
    rw [hvalue] at htask
    cases htask

theorem untouched_of_swept {A : Type} {value : A} :
    Untouched taskId swept inner ⟨inner.cleanupExpired swept, inner.cleanupDrops swept, value⟩ where
  entry := by
    rw [lookup_kept, lookup_kept, Option.filter_filter]
    simp only [Bool.and_self]
  calls _ h := h

theorem cancelledEntry_ne {entry : TaskEntry} (hopen : isTerminal entry.task.status = false) :
    cancelledEntry env entry now ≠ entry := by
  intro heq
  rw [← heq] at hopen
  cases hopen

/-- The checks before the store is asked. -/
def Admitted (config : McpConfig) (context : TaskRequests.RequestContext) : Prop :=
  context.isCancelled = false ∧ config.tasksCancelActive = true

section Outcomes
variable (env config sender inner taskId context swept now)

/-- A request that is not admitted does not come to the store. -/
theorem allOrNothing_of_not_admitted (h : ¬ Admitted config context) :
    AllOrNothing taskId swept inner
      (handleCancelTaskRequest env config sender inner taskId context swept now) := by
  have hnothing : ∀ error : McpError, AllOrNothing taskId swept inner ⟨inner, [], .error error⟩ :=
    fun _ => .of_error rfl ⟨rfl, fun _ heffect => absurd heffect List.not_mem_nil⟩
  unfold handleCancelTaskRequest
  by_cases hcancelled : context.isCancelled = true
  · rw [if_pos hcancelled]
    exact hnothing _
  · have hinactive : config.tasksCancelActive = false :=
      Bool.eq_false_iff.mpr fun hactive => h ⟨Bool.eq_false_iff.mpr hcancelled, hactive⟩
    rw [if_neg hcancelled, hinactive]
    exact hnothing _

theorem handleCancelTaskRequest_of_admitted (h : Admitted config context) :
    handleCancelTaskRequest env config sender inner taskId context swept now =
      { inner := (cancel env inner taskId context.peerKey swept now).inner
        effects := (cancel env inner taskId context.peerKey swept now).effects
        value := do
          let (task, peer) ←
            (cancel env inner taskId context.peerKey swept now).value.mapError cancelTaskError
          notifyTaskStatus config sender task peer
          return task } := by
  obtain ⟨hcancelled, hactive⟩ := h
  rw [handleCancelTaskRequest, hcancelled, hactive]
  rfl

/-- The store refuses to cancel a task that is not there for the client, or is settled. -/
theorem allOrNothing_of_refused (h : Admitted config context)
    (hrefused : ∀ entry, visible context.peerKey swept inner taskId = some entry →
      isTerminal entry.task.status = true) :
    AllOrNothing taskId swept inner
      (handleCancelTaskRequest env config sender inner taskId context swept now) := by
  rw [handleCancelTaskRequest_of_admitted env config sender inner taskId context swept now h]
  cases hvisible : visible context.peerKey swept inner taskId with
  | none =>
    rw [cancel_of_none hvisible]
    exact .of_error rfl untouched_of_swept
  | some entry =>
    rw [cancel_of_terminal hvisible (hrefused entry hvisible)]
    exact .of_error rfl untouched_of_swept

/-- An open task of the client is cancelled, whatever comes of the notification. -/
theorem handleCancelTaskRequest_of_open {entry : TaskEntry} (h : Admitted config context)
    (hvisible : visible context.peerKey swept inner taskId = some entry)
    (hopen : isTerminal entry.task.status = false) :
    let left := handleCancelTaskRequest env config sender inner taskId context swept now
    left.inner.entries.lookup taskId = some (cancelledEntry env entry now) ∧
      left.value = (notifyTaskStatus config sender (cancelledEntry env entry now).task
        entry.peer).map fun _ => (cancelledEntry env entry now).task := by
  intro left
  obtain ⟨hlookup, hlive, _⟩ := lookup_of_visible hvisible
  have hkept := TaskStoreInner.lookup_cleanupExpired.mpr ⟨hlookup, hlive⟩
  have hleft : left = _ :=
    handleCancelTaskRequest_of_admitted env config sender inner taskId context swept now h
  rw [cancel_of_open hvisible (Bool.eq_false_iff.mp hopen)] at hleft
  rw [hleft]
  constructor
  · rw [HashMap.lookup_replace, if_pos rfl, hkept]
    rfl
  · cases hnotify : notifyTaskStatus config sender (cancelledEntry env entry now).task entry.peer with
    | error error => simp [Except.mapError, bind, Except.bind, hnotify, Except.map]
    | ok => simp [Except.mapError, bind, Except.bind, hnotify, Except.map, pure, Except.pure]

end Outcomes

/-- The request is all or nothing exactly if the peer of each task that it cancels takes
the notification, where there are notifications. -/
theorem cancel_all_or_nothing_iff : AllOrNothing taskId swept inner
      (handleCancelTaskRequest env config sender inner taskId context swept now) ↔
    (Admitted config context → ∀ entry,
      visible context.peerKey swept inner taskId = some entry →
      isTerminal entry.task.status = false → config.tasksStatusNotificationsActive = true →
      sender.Delivers (cancelledEntry env entry now).task entry.peer) := by
  constructor
  · intro h hadmit entry hvisible hopen
    obtain ⟨hcancelled, hvalue⟩ := handleCancelTaskRequest_of_open env config sender inner taskId
      context swept now hadmit hvisible hopen
    refine notifyTaskStatus_eq_ok_iff.mp ?_
    cases hnotify : notifyTaskStatus config sender (cancelledEntry env entry now).task entry.peer with
    | ok => rfl
    | error error =>
      rw [hnotify] at hvalue
      obtain ⟨hlookup, hlive, _⟩ := lookup_of_visible hvisible
      have hsame := (h.error error hvalue).entry
      -- The cancelled entry expires when the open one would have.
      rw [TaskStoreInner.lookup_cleanupExpired.mpr ⟨hcancelled, hlive⟩,
        TaskStoreInner.lookup_cleanupExpired.mpr ⟨hlookup, hlive⟩] at hsame
      exact absurd (Option.some.inj hsame) (cancelledEntry_ne hopen)
  · intro h
    by_cases hadmit : Admitted config context
    · by_cases hopen : ∃ entry, visible context.peerKey swept inner taskId = some entry ∧
        isTerminal entry.task.status = false
      · obtain ⟨entry, hvisible, hopen⟩ := hopen
        obtain ⟨hcancelled, hvalue⟩ := handleCancelTaskRequest_of_open env config sender inner
          taskId context swept now hadmit hvisible hopen
        rw [notifyTaskStatus_eq_ok_iff.mpr (h hadmit entry hvisible hopen)] at hvalue
        refine ⟨fun error herror => ?_, fun task htask => ?_⟩
        · rw [hvalue] at herror
          cases herror
        · rw [hvalue] at htask
          cases htask
          exact ⟨rfl, _, hcancelled, rfl⟩
      · refine allOrNothing_of_refused env config sender inner taskId context swept now hadmit ?_
        intro entry hvisible
        by_contra hopen'
        exact hopen ⟨entry, hvisible, Bool.eq_false_iff.mpr hopen'⟩
    · exact allOrNothing_of_not_admitted env config sender inner taskId context swept now hadmit

/-! ## A peer that has gone -/

def goneSender : Sender where
  toValue task := .ok (.object [("taskId", .string task.taskId)])
  sendNotification _ _ := .error "Transport closed"

/-- A task in work, with an execution behind it. -/
def workingTask : TaskStoreInner :=
  (attachHandle (create samplePlatform 0 ⟨∅⟩ 0 "peer" none 0 0).inner "task-0" 0).inner

/-- The request fails, and the task is cancelled and its execution aborted. -/
theorem cancel_fails_cancelled :
    let left := handleCancelTaskRequest samplePlatform notifyingConfig goneSender workingTask
      "task-0" ⟨false, 0, "peer"⟩ 1 1
    left.value = .error (.internalError
        "failed to send task status notification: Transport closed" none) ∧
      (∃ entry, left.inner.entries.lookup "task-0" = some entry ∧
        entry.task.status = .cancelled) ∧ .abort 0 ∈ left.effects ∧
      ¬ AllOrNothing "task-0" 1 workingTask left := by
  intro left
  have hvalue : left.value = .error (.internalError
      "failed to send task status notification: Transport closed" none) := rfl
  refine ⟨hvalue, ⟨_, rfl, rfl⟩, by decide, fun h => ?_⟩
  have hcalls := (h.error _ hvalue).calls (.abort 0) (by decide)
  exact absurd hcalls (by decide)

end RustMcpCore.TaskStore
