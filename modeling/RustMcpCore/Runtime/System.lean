import RustMcpCore.Library.Interleaving
import RustMcpCore.Runtime.Core

/-! # A runtime under concurrent calls

The tasks are the start-up, calls of `reload_config` and of `refresh_list`, and
calls of `run` with the sessions they serve. A task keeps running up to its next
await, and may be dropped there. A call that a catalog or a plugin makes while
its list is awaited is a task of its own.
-/
namespace RustMcpCore.Runtime
open Library

inductive ReloadPhase
  /-- `build_list_cache` is awaited. -/
  | listing (config : McpConfig) (prepared : TransportMode × Option AuthState)
  /-- The new state is built and not yet compared with the old lists. -/
  | built (built : BuiltRuntimeState)
  /-- Before the write lock of the reload state. -/
  | ready (built : BuiltRuntimeState) (changed : List ListFeature)
  /-- The reload state is replaced and the list cache is not. -/
  | swapped (built : BuiltRuntimeState) (changed : List ListFeature)
  | stored (config : McpConfig) (changed : List ListFeature)

inductive RefreshPhase
  /-- Before the refresh lock of the feature. -/
  | waiting
  | locked
  | snapshot (engine : Engine)
  /-- The lists of the engine are awaited. -/
  | computing (engine : Engine) (old : ListCache)
  /-- The lists differ, and the engine is not yet checked. -/
  | computed (engine : Engine) (new : Listing engine.ptr)
  /-- The engine was the current one. The list cache is not yet written. -/
  | fresh (engine : Engine) (new : Listing engine.ptr) (current : Engine)
  | written (config : McpConfig) (changed : Bool)

/-- A transport that runs on one engine. `engine_handler_factory` gives every
session a clone of it. -/
structure Serving where
  transport : TransportMode
  engine : Engine
  sessions : ℕ → Option Engine
  cloned : ∀ session clone, sessions session = some clone → clone = engine

inductive RunPhase
  | started
  /-- Streamable HTTP reads the auth state before the engine. -/
  | authorizing
  | starting (transport : TransportMode)
  | serving (serving : Serving)

inductive Task
  /-- `Runtime::new`, or a call of `reload_config`. -/
  | reload (startup : Bool) (phase : ReloadPhase)
  | refresh (feature : ListFeature) (phase : RefreshPhase)
  | run (phase : RunPhase)

/-- How far `Runtime::new` has come. -/
inductive Construction
  | pending
  | begun
  | done
  deriving DecidableEq

structure Shared where
  runtime : RuntimeState
  construction : Construction
  refreshLocks : ListFeature → Option ℕ
  /-- How many calls of `reload_config` have returned `Ok`. -/
  reloaded : ℕ

def Shared.init : Shared := ⟨.new, .pending, fun _ => none, 0⟩

inductive ReloadAction
  /-- `Runtime::new` is called. -/
  | new (config : McpConfig)
  /-- `reload_config` is called. -/
  | call (config : McpConfig)
  | list (results : ListResults)
  | diff
  | swap
  | store
  | finish

inductive RefreshAction
  | call (feature : ListFeature)
  | lock
  | readEngine
  | readCache
  | compute (results : ListResults)
  | checkFresh
  | write
  | finish

inductive RunAction
  | call
  | readMode
  | readAuth
  | readEngine
  | openSession (session : ℕ)
  | request (session : ℕ)
  | closeSession (session : ℕ)
  /-- The transport shuts down or fails. -/
  | finish

inductive Action
  | reload (action : ReloadAction)
  | refresh (action : RefreshAction)
  | run (action : RunAction)
  /-- The future of the task is dropped. -/
  | drop

inductive Output
  | silent
  | constructed
  /-- `reload_config` returns `Ok` after these notifications. -/
  | reloaded (sent : List ListFeature)
  /-- One of the two returns an error. -/
  | failed (error : McpError)
  | refreshed (value : Except McpError Bool) (sent : List ListFeature)
  /-- A session is opened, or a request is handled, by this engine. -/
  | served (engine : Engine)
  | stopped (value : Except McpError Unit)

abbrev Outcome := Shared × Option Task × Output

/-! ## Reloads -/

variable (host : Host)

def beginReload (startup : Bool) (config : McpConfig) (g : Shared) : Outcome :=
  match host.beginBuild config g.runtime.logging with
  | (.error error, logging) =>
    ({ g with runtime := { g.runtime with logging } }, none, .failed error)
  | (.ok prepared, logging) =>
    ({ g with runtime := { g.runtime with logging } },
      some (.reload startup (.listing config prepared)), .silent)

def actReload (g : Shared) : Option Task → ReloadAction → Option Outcome
  | none, .new config =>
    if g.construction = .pending then
      some (beginReload host true config { g with construction := .begun })
    else none
  | none, .call config =>
    if g.construction = .done then some (beginReload host false config g) else none
  | some (.reload startup (.listing config prepared)), .list results =>
    match host.finishBuild config prepared g.runtime.allocated results with
    | .error error => some (g, none, .failed error)
    | .ok built =>
      let g := { g with runtime := { g.runtime with allocated := g.runtime.allocated + 1 } }
      -- Start-up has no old lists to compare with.
      let phase := if startup then .ready built [] else .built built
      some (g, some (.reload startup phase), .silent)
  | some (.reload startup (.built built)), .diff =>
    let changed := changedFeatures g.runtime.listCache built.listing
    some (g, some (.reload startup (.ready built changed)), .silent)
  | some (.reload startup (.ready built changed)), .swap =>
    some ({ g with runtime := { g.runtime with reloadState := some built.reloadState } },
      some (.reload startup (.swapped built changed)), .silent)
  | some (.reload startup (.swapped built changed)), .store =>
    some ({ g with runtime := { g.runtime with listCache := built.listing } },
      some (.reload startup (.stored built.reloadState.engine.config changed)), .silent)
  | some (.reload startup (.stored config changed)), .finish =>
    if startup then some ({ g with construction := .done }, none, .constructed)
    else some ({ g with reloaded := g.reloaded + 1 }, none,
      .reloaded (notifiedFeatures config changed))
  | _, _ => none

/-! ## Refreshes -/

def releaseLock (i : ℕ) (g : Shared) : Shared :=
  { g with refreshLocks := fun feature =>
      if g.refreshLocks feature = some i then none else g.refreshLocks feature }

/-- A refresh returns, and its lock guard is dropped. -/
def endRefresh (i : ℕ) (g : Shared) (value : Except McpError Bool) (sent : List ListFeature) :
    Outcome :=
  (releaseLock i g, none, .refreshed value sent)

def actRefresh (i : ℕ) (g : Shared) : Option Task → RefreshAction → Option Outcome
  | none, .call feature => some (g, some (.refresh feature .waiting), .silent)
  | some (.refresh feature .waiting), .lock =>
    if g.refreshLocks feature = none then
      some ({ g with refreshLocks := Function.update g.refreshLocks feature (some i) },
        some (.refresh feature .locked), .silent)
    else none
  | some (.refresh feature .locked), .readEngine =>
    match g.runtime.currentEngine with
    | .error error => some (endRefresh i g (.error error) [])
    | .ok engine => some (g, some (.refresh feature (.snapshot engine)), .silent)
  | some (.refresh feature (.snapshot engine)), .readCache =>
    some (g, some (.refresh feature (.computing engine g.runtime.listCache)), .silent)
  | some (.refresh feature (.computing engine old)), .compute results =>
    match refreshedLists host.features results feature engine.ptr with
    | .error error => some (endRefresh i g (.error error) [])
    | .ok new =>
      if old.differs feature new then
        some (g, some (.refresh feature (.computed engine new)), .silent)
      else some (endRefresh i g (.ok false) [])
  | some (.refresh feature (.computed engine new)), .checkFresh =>
    match g.runtime.currentEngine with
    | .error error => some (endRefresh i g (.error error) [])
    | .ok current =>
      -- `Arc::ptr_eq`
      if engine.ptr = current.ptr then
        some (g, some (.refresh feature (.fresh engine new current)), .silent)
      else some (endRefresh i g (.ok false) [])
  | some (.refresh feature (.fresh _ new current)), .write =>
    let changed := g.runtime.listCache.differs feature new
    let listCache := if changed then g.runtime.listCache.write feature new
      else g.runtime.listCache
    some ({ g with runtime := { g.runtime with listCache } },
      some (.refresh feature (.written current.config changed)), .silent)
  | some (.refresh feature (.written config changed)), .finish =>
    some (endRefresh i g (.ok changed)
      (if changed then notifiedFeatures config [feature] else []))
  | _, _ => none

/-! ## Transports -/

/-- `run_stdio` has one session from the start, HTTP has none. -/
def startServing (transport : TransportMode) (engine : Engine) : Serving where
  transport
  engine
  sessions := fun session =>
    if transport = .stdio ∧ session = 0 then some engine else none
  cloned := by
    intro session clone h
    split at h
    · exact (Option.some.inj h).symm
    · cases h

/-- Replace a session by a clone of the engine, or by nothing. -/
def Serving.update (serving : Serving) (session : ℕ) (clone : Option Engine)
    (h : ∀ engine, clone = some engine → engine = serving.engine) : Serving where
  transport := serving.transport
  engine := serving.engine
  sessions := Function.update serving.sessions session clone
  cloned := by
    intro session' engine he
    by_cases hs : session' = session
    · rw [hs, Function.update_self] at he
      exact h engine he
    · rw [Function.update_of_ne hs] at he
      exact serving.cloned session' engine he

def Serving.open (serving : Serving) (session : ℕ) : Serving :=
  serving.update session (some serving.engine) fun _ h => (Option.some.inj h).symm

def Serving.close (serving : Serving) (session : ℕ) : Serving :=
  serving.update session none fun _ h => by cases h

def actRun (g : Shared) : Option Task → RunAction → Option Outcome
  | none, .call => if g.construction = .done then some (g, some (.run .started), .silent) else none
  | some (.run .started), .readMode =>
    match g.runtime.currentTransportMode with
    | .error error => some (g, none, .stopped (.error error))
    | .ok .stdio => some (g, some (.run (.starting .stdio)), .silent)
    | .ok .streamableHttp =>
      if host.features.streamableHttp then some (g, some (.run .authorizing), .silent)
      else some (g, none, .stopped (.error (.invalidRequest STREAMABLE_HTTP_DISABLED none)))
  | some (.run .authorizing), .readAuth =>
    match g.runtime.currentAuthState with
    | .error error => some (g, none, .stopped (.error error))
    | .ok none =>
      some (g, none, .stopped (.error (.internalError "auth state unavailable" none)))
    | .ok (some _) => some (g, some (.run (.starting .streamableHttp)), .silent)
  | some (.run (.starting transport)), .readEngine =>
    match g.runtime.currentEngine with
    | .error error => some (g, none, .stopped (.error error))
    | .ok engine =>
      let output := match transport with
        | .stdio => .served engine
        | .streamableHttp => .silent
      some (g, some (.run (.serving (startServing transport engine))), output)
  | some (.run (.serving serving)), .openSession session =>
    if serving.transport = .streamableHttp ∧ serving.sessions session = none then
      some (g, some (.run (.serving (serving.open session))), .served serving.engine)
    else none
  | some (.run (.serving serving)), .request session =>
    (serving.sessions session).map fun engine =>
      (g, some (.run (.serving serving)), .served engine)
  | some (.run (.serving serving)), .closeSession session =>
    some (g, some (.run (.serving (serving.close session))), .silent)
  | some (.run (.serving _)), .finish => some (g, none, .stopped (.ok ()))
  | _, _ => none

/-! ## All together -/

def act (i : ℕ) (g : Shared) (task : Option Task) : Action → Option Outcome
  | .reload action => actReload host g task action
  | .refresh action => actRefresh host i g task action
  | .run action => actRun host g task action
  | .drop => task.map fun _ => (releaseLock i g, none, .silent)

def program : Program Shared Task Action Output := ⟨.init, act host⟩

abbrev State := World Shared Task

abbrev Event := Library.Event Action Output

abbrev Step : State → Event → State → Prop := (program host).machine.Step

abbrev init : State := (program host).machine.init

/-- The steps of a start-up that is not interrupted and does not fail. -/
def construct (i : ℕ) (config : McpConfig) (results : ListResults) : List (ℕ × Action) :=
  [.new config, .list results, .swap, .store, .finish].map fun action => (i, .reload action)

/-- The steps of such a call of `reload_config`. -/
def reloadCall (i : ℕ) (config : McpConfig) (results : ListResults) : List (ℕ × Action) :=
  [.call config, .list results, .diff, .swap, .store, .finish].map fun action =>
    (i, .reload action)

end RustMcpCore.Runtime
