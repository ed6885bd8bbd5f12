import RustMcpCore.Clock
import RustMcpCore.Errors
import RustMcpCore.Library.HashMap

/-! # The task store

Each operation is one critical section over the entries: it is given the clock
readings it makes, in the order it makes them, and leaves the new entries, the
calls it makes on tokens, handles and notifies, and its return value. Those
calls are data here; `Tasks.System` carries them out.
-/
namespace RustMcpCore
open Library

/-- What the store takes from outside: the ids of the successive calls of
`Uuid::new_v4`, and the text form of a time. -/
structure Platform where
  newV4 : ℕ → String
  toRfc3339 : DateTime → String

abbrev Peer := ℕ
abbrev JoinHandle := ℕ
abbrev Notify := ℕ

inductive TaskStatus
  | working
  | inputRequired
  | completed
  | failed
  | cancelled
  deriving DecidableEq

structure Task where
  taskId : String
  status : TaskStatus
  statusMessage : Option String
  createdAt : String
  lastUpdatedAt : String
  ttl : Option UInt64
  pollInterval : Option UInt64

abbrev TerminalResult := Except McpError CallToolResult

structure TaskEntry where
  task : Task
  createdAt : DateTime
  terminalResult : Option TerminalResult
  cancellation : CancellationToken
  notify : Notify
  handle : Option JoinHandle
  peer : Peer
  peerKey : String

structure CreatedTask where
  task : Task
  cancellation : CancellationToken

inductive TaskLookupError
  | notFound
  deriving DecidableEq

inductive CancelTaskError
  | notFound
  | terminal (status : TaskStatus)
  deriving DecidableEq

def isTerminal : TaskStatus → Bool
  | .completed | .failed | .cancelled => true
  | .working | .inputRequired => false

def DEFAULT_POLL_INTERVAL_MS : UInt64 := 500

/-- `i64::try_from` on a `u64`. -/
def i64TryFrom (n : UInt64) : Option Int :=
  if (n.toNat : Int) ≤ i64Max then some n.toNat else none

/-- `TimeDelta::num_milliseconds`: whole milliseconds, rounded towards zero. -/
def numMilliseconds (delta : Int) : Int := delta.tdiv 1000000

/-- A call the holder of the lock makes on something it shares with other tasks. -/
inductive Effect
  | cancelToken (token : CancellationToken)
  | abort (handle : JoinHandle)
  | notifyWaiters (notify : Notify)
  deriving DecidableEq

namespace TaskEntry

def isExpired (entry : TaskEntry) (now : DateTime) : Bool :=
  match entry.task.ttl with
  | none => false
  | some ttlMs => (i64TryFrom ttlMs).getD i64Max ≤ numMilliseconds (now - entry.createdAt)

/-- `Drop for TaskEntry`. -/
def drop (entry : TaskEntry) : List Effect :=
  .cancelToken entry.cancellation :: (entry.handle.map .abort).toList

end TaskEntry

structure TaskStoreInner where
  entries : HashMap String TaskEntry

namespace TaskStoreInner

def cleanupExpired (inner : TaskStoreInner) (now : DateTime) : TaskStoreInner :=
  { entries := inner.entries.retain fun _ entry => !entry.isExpired now }

def cleanupDrops (inner : TaskStoreInner) (now : DateTime) : List Effect :=
  (inner.entries.discarded fun _ entry => !entry.isExpired now).flatMap TaskEntry.drop

theorem lookup_cleanupExpired {inner : TaskStoreInner} {now : DateTime} {id : String}
    {entry : TaskEntry} : (inner.cleanupExpired now).entries.lookup id = some entry ↔
      inner.entries.lookup id = some entry ∧ entry.isExpired now = false := by
  simp [cleanupExpired, HashMap.lookup_retain_eq_some]

end TaskStoreInner

/-- What a critical section leaves when it releases the lock. -/
structure Section (α : Type) where
  inner : TaskStoreInner
  effects : List Effect
  value : α

namespace TaskStore
variable (env : Platform)

/-- `Uuid::new_v4`, `Notify::new` and `CancellationToken::new` are the `issued`-th. -/
def create (issued : ℕ) (inner : TaskStoreInner) (peer : Peer) (peerKey : String)
    (ttlMs : Option UInt64) (swept now : DateTime) : Section CreatedTask :=
  let kept := inner.cleanupExpired swept
  let taskId := env.newV4 issued
  let task : Task :=
    { taskId
      status := .working
      statusMessage := some "Task accepted"
      createdAt := env.toRfc3339 now
      lastUpdatedAt := env.toRfc3339 now
      ttl := ttlMs
      pollInterval := some DEFAULT_POLL_INTERVAL_MS }
  let entry : TaskEntry :=
    { task, createdAt := now, terminalResult := none, cancellation := issued, notify := issued
      handle := none, peer, peerKey }
  -- An entry under the same id would be replaced, and dropped.
  let replaced := ((kept.entries.lookup taskId).map TaskEntry.drop).getD []
  { inner := { entries := kept.entries.insert taskId entry }
    effects := inner.cleanupDrops swept ++ replaced
    value := { task, cancellation := issued } }

def attachHandle (inner : TaskStoreInner) (taskId : String) (handle : JoinHandle) :
    Section Unit :=
  match inner.entries.lookup taskId with
  | some entry =>
    { inner := { entries := inner.entries.replace taskId { entry with handle := some handle } }
      effects := []
      value := () }
  | none => { inner, effects := [.abort handle], value := () }

/-- The status and message that `finish` gives to a result. -/
def finishStatus : TerminalResult → TaskStatus × Option String
  | .ok callResult =>
    if callResult.isError = some true then
      (.failed, some "Task completed with tool execution error")
    else (.completed, none)
  | .error error => (.failed, some error.message)

def finishedEntry (entry : TaskEntry) (result : TerminalResult) (now : DateTime) : TaskEntry :=
  { entry with
    task := { entry.task with
      status := (finishStatus result).1
      statusMessage := (finishStatus result).2
      lastUpdatedAt := env.toRfc3339 now }
    handle := none
    terminalResult := some result }

def finish (inner : TaskStoreInner) (taskId : String) (result : TerminalResult)
    (swept now : DateTime) : Section (Option (Task × Peer)) :=
  let kept := inner.cleanupExpired swept
  let drops := inner.cleanupDrops swept
  match kept.entries.lookup taskId with
  | none => { inner := kept, effects := drops, value := none }
  | some entry =>
    if isTerminal entry.task.status then { inner := kept, effects := drops, value := none }
    else
      let entry' := finishedEntry env entry result now
      { inner := { entries := kept.entries.replace taskId entry' }
        effects := drops ++ (entry.handle.map .abort).toList ++ [.notifyWaiters entry.notify]
        value := some (entry'.task, entry.peer) }

def getTask (inner : TaskStoreInner) (taskId peerKey : String) (swept : DateTime) :
    Section (Option Task) :=
  let kept := inner.cleanupExpired swept
  { inner := kept
    effects := inner.cleanupDrops swept
    value := ((kept.entries.lookup taskId).filter fun entry => entry.peerKey = peerKey).map
      TaskEntry.task }

def listTasks (inner : TaskStoreInner) (peerKey : String) (swept : DateTime) :
    Section (List Task) :=
  let kept := inner.cleanupExpired swept
  { inner := kept
    effects := inner.cleanupDrops swept
    value := (kept.entries.values.filter fun entry => entry.peerKey = peerKey).map TaskEntry.task }

/-- One turn of the loop of `wait_for_result`: the section under the lock either
returns, or leaves the notify that is awaited after the lock is released. -/
def checkResult (inner : TaskStoreInner) (taskId peerKey : String) (swept : DateTime) :
    Section (Except TaskLookupError TerminalResult ⊕ Notify) :=
  let kept := inner.cleanupExpired swept
  { inner := kept
    effects := inner.cleanupDrops swept
    value :=
      match kept.entries.lookup taskId with
      | none => .inl (.error .notFound)
      | some entry =>
        if entry.peerKey ≠ peerKey then .inl (.error .notFound)
        else
          match entry.terminalResult with
          | some result => .inl (.ok result)
          | none => .inr entry.notify }

def cancelledEntry (entry : TaskEntry) (now : DateTime) : TaskEntry :=
  { entry with
    task := { entry.task with
      status := .cancelled
      statusMessage := some "The task was cancelled by request."
      lastUpdatedAt := env.toRfc3339 now }
    handle := none
    terminalResult := some (.ok cancelledToolResult) }

def cancel (inner : TaskStoreInner) (taskId peerKey : String) (swept now : DateTime) :
    Section (Except CancelTaskError (Task × Peer)) :=
  let kept := inner.cleanupExpired swept
  let drops := inner.cleanupDrops swept
  match kept.entries.lookup taskId with
  | none => { inner := kept, effects := drops, value := .error .notFound }
  | some entry =>
    if entry.peerKey ≠ peerKey then
      { inner := kept, effects := drops, value := .error .notFound }
    else if isTerminal entry.task.status then
      { inner := kept, effects := drops, value := .error (.terminal entry.task.status) }
    else
      let entry' := cancelledEntry env entry now
      { inner := { entries := kept.entries.replace taskId entry' }
        effects := drops ++ .cancelToken entry.cancellation ::
          (entry.handle.map .abort).toList ++ [.notifyWaiters entry.notify]
        value := .ok (entry'.task, entry.peer) }

end TaskStore
end RustMcpCore
