import RustMcpCore.Tasks.Store
import RustMcpCore.Library.Runs

/-! # The store under any number of clients and workers

The lock makes each critical section one step. What its holder still has to do
on shared tokens, handles and notifies stays in `pending`, one call a step, and
the lock is free again when nothing is pending. A call of `wait_for_result`
crosses three states between its turns under the lock, and other tasks run
between any two of them. Clock readings are part of the labels and need not be
monotone.
-/
namespace RustMcpCore.TaskStore
open Library

/-- Where a call of `wait_for_result` is. -/
inductive WaitPhase
  /-- At the head of the loop, before the lock. -/
  | loop
  /-- The lock is released, `notified()` is not yet called. -/
  | checked (notify : Notify)
  /-- The `Notified` future exists and has not completed. -/
  | parked (notify : Notify)
  deriving DecidableEq

structure Waiter where
  taskId : String
  peerKey : String
  phase : WaitPhase

structure State where
  inner : TaskStoreInner
  issued : ℕ
  pending : List Effect
  aborted : List JoinHandle
  cancelled : List CancellationToken
  waiters : ℕ → Option Waiter

inductive Label
  | create (peer : Peer) (peerKey : String) (ttlMs : Option UInt64) (swept now : DateTime)
  | attachHandle (taskId : String) (handle : JoinHandle)
  | finish (taskId : String) (result : TerminalResult) (swept now : DateTime)
  | getTask (taskId peerKey : String) (swept : DateTime)
  | listTasks (peerKey : String) (swept : DateTime)
  | cancel (taskId peerKey : String) (swept now : DateTime)
  /-- The lock holder makes its next pending call. -/
  | perform
  /-- A client calls `wait_for_result`. -/
  | wait (w : ℕ) (taskId peerKey : String)
  | check (w : ℕ) (swept : DateTime)
  /-- `notify.notified().await` creates the future and parks on it. -/
  | notified (w : ℕ)
  /-- The future of the whole call is dropped. -/
  | dropWait (w : ℕ)

/-- The clock reading of the clean-up that an operation starts with. -/
def Label.sweeps : Label → Option DateTime
  | .create _ _ _ swept _ | .finish _ _ swept _ | .getTask _ _ swept | .listTasks _ swept
  | .cancel _ _ swept _ | .check _ swept => some swept
  | .attachHandle _ _ | .perform | .wait _ _ _ | .notified _ | .dropWait _ => none

def Label.creates : Label → Bool
  | .create .. => true
  | _ => false

inductive Output
  | silent
  | created (created : CreatedTask)
  | finished (value : Option (Task × Peer))
  | got (value : Option Task)
  | listed (value : List Task)
  | cancelled (value : Except CancelTaskError (Task × Peer))
  /-- `wait_for_result` returns to its caller. -/
  | waited (taskId : String) (value : Except TaskLookupError TerminalResult)

abbrev Event := Label × Output

/-- `Notify::notify_waiters` completes exactly the futures that exist. -/
def Waiter.wake (notify : Notify) (waiter : Waiter) : Waiter :=
  if waiter.phase = .parked notify then { waiter with phase := .loop } else waiter

def State.perform (s : State) : Effect → State
  | .cancelToken token => { s with cancelled := token :: s.cancelled }
  | .abort handle => { s with aborted := handle :: s.aborted }
  | .notifyWaiters notify => { s with waiters := fun w => (s.waiters w).map (·.wake notify) }

/-- Take the lock, if it is free, and run a section under it. -/
def State.locked {α : Type} (s : State) (sec : Section α) (out : α → Output) :
    Option (State × Output) :=
  if s.pending.isEmpty then
    some ({ s with inner := sec.inner, pending := sec.effects }, out sec.value)
  else none

def State.setWaiter (s : State) (w : ℕ) (waiter : Option Waiter) : State :=
  { s with waiters := Function.update s.waiters w waiter }

variable (env : Platform)

def next (s : State) : Label → Option (State × Output)
  | .create peer peerKey ttlMs swept now =>
    (s.locked (create env s.issued s.inner peer peerKey ttlMs swept now) .created).map
      fun (t, o) => ({ t with issued := s.issued + 1 }, o)
  | .attachHandle taskId handle =>
    s.locked (attachHandle s.inner taskId handle) fun _ => .silent
  | .finish taskId result swept now =>
    s.locked (finish env s.inner taskId result swept now) .finished
  | .getTask taskId peerKey swept => s.locked (getTask s.inner taskId peerKey swept) .got
  | .listTasks peerKey swept => s.locked (listTasks s.inner peerKey swept) .listed
  | .cancel taskId peerKey swept now =>
    s.locked (cancel env s.inner taskId peerKey swept now) .cancelled
  | .perform =>
    match s.pending with
    | [] => none
    | effect :: rest => some ({ s with pending := rest }.perform effect, .silent)
  | .wait w taskId peerKey =>
    match s.waiters w with
    | some _ => none
    | none => some (s.setWaiter w (some ⟨taskId, peerKey, .loop⟩), .silent)
  | .check w swept =>
    match s.waiters w with
    | some ⟨taskId, peerKey, .loop⟩ =>
      let sec := checkResult s.inner taskId peerKey swept
      match sec.value with
      | .inl value =>
        (s.locked sec fun _ => .waited taskId value).map fun (t, o) => (t.setWaiter w none, o)
      | .inr notify =>
        (s.locked sec fun _ => .silent).map fun (t, o) =>
          (t.setWaiter w (some ⟨taskId, peerKey, .checked notify⟩), o)
    | _ => none
  | .notified w =>
    match s.waiters w with
    | some ⟨taskId, peerKey, .checked notify⟩ =>
      some (s.setWaiter w (some ⟨taskId, peerKey, .parked notify⟩), .silent)
    | _ => none
  | .dropWait w =>
    match s.waiters w with
    | some _ => some (s.setWaiter w none, .silent)
    | none => none

def State.init : State :=
  { inner := { entries := ∅ }, issued := 0, pending := [], aborted := [], cancelled := []
    waiters := fun _ => none }

def machine : Machine State Label Output := ⟨.init, next env⟩

/-! ## What each step does -/

theorem locked_eq_some {α : Type} {s t : State} {sec : Section α} {out : α → Output}
    {o : Output} : s.locked sec out = some (t, o) ↔
      s.pending = [] ∧ t = { s with inner := sec.inner, pending := sec.effects } ∧
        o = out sec.value := by
  cases hp : s.pending <;> simp [State.locked, hp, eq_comm]

variable {env}
variable {s t : State} {o : Output}

theorem step_create {peer : Peer} {peerKey : String} {ttlMs : Option UInt64}
    {swept now : DateTime} :
    (machine env).Step s (.create peer peerKey ttlMs swept now, o) t ↔
      let sec := create env s.issued s.inner peer peerKey ttlMs swept now
      s.pending = [] ∧ o = .created sec.value ∧
        t = { s with inner := sec.inner, pending := sec.effects, issued := s.issued + 1 } := by
  simp only [Machine.Step, machine, next, Option.map_eq_some_iff, Prod.exists, locked_eq_some,
    Prod.mk.injEq]
  constructor
  · rintro ⟨_, _, ⟨hp, rfl, rfl⟩, rfl, rfl⟩
    exact ⟨hp, rfl, rfl⟩
  · rintro ⟨hp, rfl, rfl⟩
    exact ⟨_, _, ⟨hp, rfl, rfl⟩, rfl, rfl⟩

theorem step_attachHandle {taskId : String} {handle : JoinHandle} :
    (machine env).Step s (.attachHandle taskId handle, o) t ↔
      let sec := attachHandle s.inner taskId handle
      s.pending = [] ∧ t = { s with inner := sec.inner, pending := sec.effects } ∧
        o = .silent := by
  change s.locked (attachHandle s.inner taskId handle) (fun _ => Output.silent) = some (t, o) ↔ _
  exact locked_eq_some

theorem step_finish {taskId : String} {result : TerminalResult} {swept now : DateTime} :
    (machine env).Step s (.finish taskId result swept now, o) t ↔
      let sec := finish env s.inner taskId result swept now
      s.pending = [] ∧ t = { s with inner := sec.inner, pending := sec.effects } ∧
        o = .finished sec.value := locked_eq_some

theorem step_getTask {taskId peerKey : String} {swept : DateTime} :
    (machine env).Step s (.getTask taskId peerKey swept, o) t ↔
      let sec := getTask s.inner taskId peerKey swept
      s.pending = [] ∧ t = { s with inner := sec.inner, pending := sec.effects } ∧
        o = .got sec.value := locked_eq_some

theorem step_listTasks {peerKey : String} {swept : DateTime} :
    (machine env).Step s (.listTasks peerKey swept, o) t ↔
      let sec := listTasks s.inner peerKey swept
      s.pending = [] ∧ t = { s with inner := sec.inner, pending := sec.effects } ∧
        o = .listed sec.value := locked_eq_some

theorem step_cancel {taskId peerKey : String} {swept now : DateTime} :
    (machine env).Step s (.cancel taskId peerKey swept now, o) t ↔
      let sec := cancel env s.inner taskId peerKey swept now
      s.pending = [] ∧ t = { s with inner := sec.inner, pending := sec.effects } ∧
        o = .cancelled sec.value := locked_eq_some

theorem step_perform : (machine env).Step s (.perform, o) t ↔
    ∃ effect rest, s.pending = effect :: rest ∧
      t = { s with pending := rest }.perform effect ∧ o = .silent := by
  simp only [Machine.Step, machine, next]
  cases s.pending with
  | nil => simp
  | cons effect rest => simp [eq_comm]

theorem step_wait {w : ℕ} {taskId peerKey : String} :
    (machine env).Step s (.wait w taskId peerKey, o) t ↔
      s.waiters w = none ∧ t = s.setWaiter w (some ⟨taskId, peerKey, .loop⟩) ∧
        o = .silent := by
  simp only [Machine.Step, machine, next]
  cases s.waiters w <;> simp [eq_comm]

theorem step_check {w : ℕ} {swept : DateTime} :
    (machine env).Step s (.check w swept, o) t ↔
      ∃ taskId peerKey, s.waiters w = some ⟨taskId, peerKey, .loop⟩ ∧ s.pending = [] ∧
        let sec := checkResult s.inner taskId peerKey swept
        ((∃ value, sec.value = .inl value ∧ o = .waited taskId value ∧
            t = { s with inner := sec.inner, pending := sec.effects }.setWaiter w none) ∨
          ∃ notify, sec.value = .inr notify ∧ o = .silent ∧
            t = { s with inner := sec.inner, pending := sec.effects }.setWaiter w
              (some ⟨taskId, peerKey, .checked notify⟩)) := by
  simp only [Machine.Step, machine, next]
  rcases hw : s.waiters w with _ | ⟨taskId, peerKey, _ | notify | notify⟩
  · simp
  · simp only [Option.some.injEq, Waiter.mk.injEq, and_true, existsAndEq, true_and]
    cases hv : (checkResult s.inner taskId peerKey swept).value with
    | inl value =>
      simp only [Option.map_eq_some_iff, Prod.exists, locked_eq_some, Prod.mk.injEq]
      constructor
      · rintro ⟨_, _, ⟨hp, rfl, rfl⟩, rfl, rfl⟩
        exact ⟨hp, .inl ⟨value, rfl, rfl, rfl⟩⟩
      · rintro ⟨hp, ⟨_, hval, rfl, rfl⟩ | ⟨_, hval, _⟩⟩
        · cases hval
          exact ⟨_, _, ⟨hp, rfl, rfl⟩, rfl, rfl⟩
        · cases hval
    | inr notify =>
      simp only [Option.map_eq_some_iff, Prod.exists, locked_eq_some, Prod.mk.injEq]
      constructor
      · rintro ⟨_, _, ⟨hp, rfl, rfl⟩, rfl, rfl⟩
        exact ⟨hp, .inr ⟨notify, rfl, rfl, rfl⟩⟩
      · rintro ⟨hp, ⟨_, hval, _⟩ | ⟨_, hval, rfl, rfl⟩⟩
        · cases hval
        · cases hval
          exact ⟨_, _, ⟨hp, rfl, rfl⟩, rfl, rfl⟩
  · simp
  · simp

theorem step_notified {w : ℕ} : (machine env).Step s (.notified w, o) t ↔
    ∃ taskId peerKey notify, s.waiters w = some ⟨taskId, peerKey, .checked notify⟩ ∧
      t = s.setWaiter w (some ⟨taskId, peerKey, .parked notify⟩) ∧ o = .silent := by
  simp only [Machine.Step, machine, next]
  rcases hw : s.waiters w with _ | ⟨taskId, peerKey, _ | notify | notify⟩ <;> simp [eq_comm]

theorem step_dropWait {w : ℕ} : (machine env).Step s (.dropWait w, o) t ↔
    (∃ waiter, s.waiters w = some waiter) ∧ t = s.setWaiter w none ∧ o = .silent := by
  simp only [Machine.Step, machine, next]
  cases s.waiters w <;> simp [eq_comm]

end RustMcpCore.TaskStore
