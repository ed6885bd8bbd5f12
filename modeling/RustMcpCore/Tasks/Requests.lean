import RustMcpCore.Config.Root
import RustMcpCore.Library.HashMap
import RustMcpCore.Tasks.System

/-! # Tools that run as tasks

A request with a task becomes an entry of the store and a spawned execution. The
handler then hands the handle of the execution to the store, which may abort it.
The executions are numbered like the entries, and so are their handles. What a
tool does and how long it takes is up to the labels.
-/
namespace RustMcpCore.TaskRequests
open Library

structure Engine where
  config : McpConfig
  toolMap : HashMap String ToolConfig

structure CallToolRequestParams where
  name : String
  task : Option (List (String × Value))

structure RequestContext where
  isCancelled : Bool
  peer : Peer
  peerKey : String

def parseTaskTtl (task : Option (List (String × Value))) : Except McpError (Option UInt64) :=
  match task.bind (·.lookup "ttl") with
  | none => .ok none
  | some ttl =>
    match ttl.asU64 with
    | some ttlMs => .ok (some ttlMs)
    | none => .error (.invalidParams "task.ttl must be a non-negative integer" none)

/-- The checks of `handle_enqueue_task_request`, in their order. -/
def Engine.admit (engine : Engine) (request : CallToolRequestParams) (context : RequestContext) :
    Except McpError (ToolConfig × Option UInt64) :=
  if context.isCancelled then .error cancelledError
  else if !engine.config.tasksActive then .error (.methodNotFound "tools/call")
  else
    match engine.toolMap.lookup request.name with
    | none => .error (.invalidParams s!"tool not found: {request.name}" none)
    | some tool =>
      if tool.execute.taskSupport = .forbidden then .error (.methodNotFound "tools/call")
      else (parseTaskTtl request.task).map fun ttlMs => (tool, ttlMs)

/-- Where the handler of a request is once the entry exists. -/
inductive HandlerPhase
  | created
  /-- The execution is spawned, and the lock of the store is awaited. -/
  | attaching

inductive WorkerPhase
  /-- Never polled. -/
  | spawned
  /-- At an await outside of calls: an access token, or the delay before a retry. -/
  | waiting
  /-- In the call of the plugin, or in an HTTP request. -/
  | calling
  /-- `finish` awaits the lock of the store. -/
  | returned (result : TerminalResult)
  | notifying

structure Execution where
  tool : ToolConfig
  handler : Option HandlerPhase
  worker : Option WorkerPhase

structure State where
  store : TaskStore.State
  executions : ℕ → Option Execution

/-- How an execution goes on. -/
inductive Progress
  | await
  | call
  | ret (result : TerminalResult)
  /-- The cancellation token wins the race with the call or the delay. -/
  | cancel

inductive Label
  | enqueue (request : CallToolRequestParams) (context : RequestContext) (swept now : DateTime)
  | spawn (k : ℕ)
  | attach (k : ℕ)
  /-- The future of the handler is dropped. -/
  | dropHandler (k : ℕ)
  | advance (k : ℕ) (progress : Progress)
  | finish (k : ℕ) (swept now : DateTime)
  | notified (k : ℕ)
  /-- The runtime drops the future of an aborted execution. -/
  | reap (k : ℕ)
  /-- Any other operation on the store. -/
  | store (label : TaskStore.Label)

inductive Output
  | silent
  | rejected (error : McpError)
  | store (output : TaskStore.Output)

def WorkerPhase.unpolled : WorkerPhase → Bool
  | .spawned => true
  | .waiting | .calling | .returned _ | .notifying => false

/-- A plugin tool makes one call. An HTTP tool may await a token before a request, and
try again after a delay. Only a cancellable tool looks at the token of its entry. -/
def WorkerPhase.advance (tool : ToolConfig) (cancelled : Bool) :
    WorkerPhase → Progress → Option WorkerPhase
  | .spawned, .await | .calling, .await =>
    if tool.execute.executeType = .http then some .waiting else none
  | .spawned, .call | .waiting, .call => some .calling
  | .spawned, .ret result | .waiting, .ret result | .calling, .ret result =>
    some (.returned result)
  | .waiting, .cancel | .calling, .cancel =>
    if tool.cancellable && cancelled then some (.returned (.ok cancelledToolResult)) else none
  | _, _ => none

/-- The operations that do not belong to the way of a task through the engine. -/
def isForeign : TaskStore.Label → Bool
  | .create .. | .attachHandle .. | .finish .. => false
  | .getTask .. | .listTasks .. | .cancel .. | .perform | .wait .. | .check .. | .notified _
  | .dropWait _ => true

def State.setExecution (s : State) (k : ℕ) (execution : Execution) : State :=
  { s with executions := Function.update s.executions k (some execution) }

variable (env : Platform) (engine : Engine)

def next (s : State) : Label → Option (State × Output)
  | .enqueue request context swept now =>
    match engine.admit request context with
    | .error error => some (s, .rejected error)
    | .ok (tool, ttlMs) =>
      (TaskStore.next env s.store (.create context.peer context.peerKey ttlMs swept now)).map
        fun (store, output) =>
          ({ s with store }.setExecution s.store.issued ⟨tool, some .created, none⟩, .store output)
  | .spawn k =>
    match s.executions k with
    | some ⟨tool, some .created, none⟩ =>
      some (s.setExecution k ⟨tool, some .attaching, some .spawned⟩, .silent)
    | _ => none
  | .attach k =>
    match s.executions k with
    | some ⟨tool, some .attaching, worker⟩ =>
      (TaskStore.next env s.store (.attachHandle (env.newV4 k) k)).map fun (store, output) =>
        ({ s with store }.setExecution k ⟨tool, none, worker⟩, .store output)
    | _ => none
  | .dropHandler k =>
    match s.executions k with
    | some ⟨tool, some .attaching, worker⟩ =>
      some (s.setExecution k ⟨tool, none, worker⟩, .silent)
    | _ => none
  | .advance k progress =>
    match s.executions k with
    | some ⟨tool, handler, some phase⟩ =>
      -- An execution that is aborted before its first poll is never polled.
      if phase.unpolled ∧ k ∈ s.store.aborted then none
      else (phase.advance tool (k ∈ s.store.cancelled) progress).map fun phase =>
        (s.setExecution k ⟨tool, handler, some phase⟩, .silent)
    | _ => none
  | .finish k swept now =>
    match s.executions k with
    | some ⟨tool, handler, some (.returned result)⟩ =>
      (TaskStore.next env s.store (.finish (env.newV4 k) result swept now)).map
        fun (store, output) =>
          let worker : Option WorkerPhase :=
            match output with
            | .finished (some _) => some .notifying
            | _ => none
          ({ s with store }.setExecution k ⟨tool, handler, worker⟩, .store output)
    | _ => none
  | .notified k =>
    match s.executions k with
    | some ⟨tool, handler, some .notifying⟩ =>
      some (s.setExecution k ⟨tool, handler, none⟩, .silent)
    | _ => none
  | .reap k =>
    match s.executions k with
    | some ⟨tool, handler, some _⟩ =>
      if k ∈ s.store.aborted then some (s.setExecution k ⟨tool, handler, none⟩, .silent) else none
    | _ => none
  | .store label =>
    if isForeign label then
      (TaskStore.next env s.store label).map fun (store, output) =>
        ({ s with store }, .store output)
    else none

def machine : Machine State Label Output := ⟨⟨.init, fun _ => none⟩, next env engine⟩

end RustMcpCore.TaskRequests
