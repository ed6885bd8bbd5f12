import Mathlib.Data.Finset.Basic
import RustMcpCore.Auth.Inbound.Factory
import RustMcpCore.Runtime.Checks

/-! # Building and replacing the runtime state

The state that a reload replaces lives in two places, the reload state and the
list cache. An engine carries the number of its allocation, which stands for the
address that `Arc::ptr_eq` compares. A list payload carries the number of the
engine it was computed from; the code keeps the bytes only, and no decision here
looks at the number.
-/
namespace RustMcpCore

inductive ListFeature
  | tools
  | prompts
  | resources
  deriving DecidableEq

def ListFeature.all : List ListFeature := [.tools, .prompts, .resources]

structure Engine where
  ptr : ℕ
  config : McpConfig

/-! ## The list cache -/

structure Payload where
  bytes : List UInt8
  origin : Option ℕ

structure ListCache where
  tools : Payload
  prompts : Payload
  resources : Payload
  resourceTemplates : Payload

namespace ListCache

def empty : ListCache := ⟨⟨[], none⟩, ⟨[], none⟩, ⟨[], none⟩, ⟨[], none⟩⟩

/-- The lists of a feature differ in their bytes. -/
def differs (feature : ListFeature) (old new : ListCache) : Bool :=
  match feature with
  | .tools => old.tools.bytes ≠ new.tools.bytes
  | .prompts => old.prompts.bytes ≠ new.prompts.bytes
  | .resources => old.resources.bytes ≠ new.resources.bytes ||
      old.resourceTemplates.bytes ≠ new.resourceTemplates.bytes

def write (feature : ListFeature) (cache new : ListCache) : ListCache :=
  match feature with
  | .tools => { cache with tools := new.tools }
  | .prompts => { cache with prompts := new.prompts }
  | .resources =>
    { cache with resources := new.resources, resourceTemplates := new.resourceTemplates }

/-- All four payloads were computed from one engine. -/
structure From (cache : ListCache) (ptr : ℕ) : Prop where
  tools : cache.tools.origin = some ptr
  prompts : cache.prompts.origin = some ptr
  resources : cache.resources.origin = some ptr
  resourceTemplates : cache.resourceTemplates.origin = some ptr

theorem write_from {feature : ListFeature} {cache new : ListCache} {ptr : ℕ}
    (hc : cache.From ptr) (hn : new.From ptr) : (cache.write feature new).From ptr := by
  cases feature with
  | tools => exact ⟨hn.tools, hc.prompts, hc.resources, hc.resourceTemplates⟩
  | prompts => exact ⟨hc.tools, hn.prompts, hc.resources, hc.resourceTemplates⟩
  | resources => exact ⟨hc.tools, hc.prompts, hn.resources, hn.resourceTemplates⟩

end ListCache

/-- What the four list calls of an engine answer, each with the serialised list.
Catalogs and plugins answer as they like, so two calls on one engine may differ. -/
structure ListResults where
  tools : Except McpError (List UInt8)
  prompts : Except McpError (List UInt8)
  resources : Except McpError (List UInt8)
  resourceTemplates : Except McpError (List UInt8)

/-- `[]`, the list of a feature that is not compiled in. -/
def emptyList : List UInt8 := [91, 93]

def ListResults.all (bytes : List UInt8) : ListResults :=
  ⟨.ok bytes, .ok bytes, .ok bytes, .ok bytes⟩

section Lists
variable (features : Features) (results : ListResults)

def toolsListPayload : Except McpError (List UInt8) := results.tools

def promptListPayload : Except McpError (List UInt8) :=
  if features.prompts then results.prompts else .ok emptyList

def resourceListPayload : Except McpError (List UInt8) :=
  if features.resources then results.resources else .ok emptyList

def resourceTemplatesListPayload : Except McpError (List UInt8) :=
  if features.resources then results.resourceTemplates else .ok emptyList

/-- A cache together with the fact that one engine filled it. -/
abbrev Listing (ptr : ℕ) := { cache : ListCache // cache.From ptr }

def buildListCache (ptr : ℕ) : Except McpError (Listing ptr) := do
  let tools ← toolsListPayload results
  let prompts ← promptListPayload features results
  let resources ← resourceListPayload features results
  let resourceTemplates ← resourceTemplatesListPayload features results
  pure ⟨⟨⟨tools, ptr⟩, ⟨prompts, ptr⟩, ⟨resources, ptr⟩, ⟨resourceTemplates, ptr⟩⟩,
    ⟨rfl, rfl, rfl, rfl⟩⟩

/-- The lists that a refresh of one feature computes. The others are not asked
for, and nothing reads them. -/
def refreshedLists (feature : ListFeature) (ptr : ℕ) : Except McpError (Listing ptr) :=
  let unread : Payload := ⟨[], some ptr⟩
  match feature with
  | .tools => do
    let tools ← toolsListPayload results
    pure ⟨⟨⟨tools, ptr⟩, unread, unread, unread⟩, ⟨rfl, rfl, rfl, rfl⟩⟩
  | .prompts => do
    let prompts ← promptListPayload features results
    pure ⟨⟨unread, ⟨prompts, ptr⟩, unread, unread⟩, ⟨rfl, rfl, rfl, rfl⟩⟩
  | .resources => do
    let resources ← resourceListPayload features results
    let resourceTemplates ← resourceTemplatesListPayload features results
    pure ⟨⟨unread, unread, ⟨resources, ptr⟩, ⟨resourceTemplates, ptr⟩⟩, ⟨rfl, rfl, rfl, rfl⟩⟩

end Lists

def listChangedEnabled (config : McpConfig) (feature : ListFeature) : Bool :=
  match feature with
  | .prompts => config.prompts.any (·.notifyListChanged)
  | .resources => config.resources.any (·.notifyListChanged)
  | .tools => config.toolsNotifyListChanged

/-- The features for which `check_and_notify_feature` reaches the hub. -/
def notifiedFeatures (config : McpConfig) (changed : List ListFeature) : List ListFeature :=
  changed.filter (listChangedEnabled config)

/-! ## The reload state -/

structure ReloadState where
  transportMode : TransportMode
  engine : Engine
  /-- Absent when the HTTP transport is not compiled in. -/
  authState : Option AuthState

structure BuiltRuntimeState where
  reloadState : ReloadState
  listing : Listing reloadState.engine.ptr

/-- What the crate was compiled with, the registered plugins by name and type, and
the checks of engine construction. Those read the configuration and the registry
and touch nothing else. -/
structure Host where
  features : Features
  registry : List (String × PluginType)
  engineFromConfig : McpConfig → Except McpError Unit

/-- Every feature and no plugin, and engines that always build. -/
def Host.plain : Host := ⟨.full, [], fun _ => .ok ()⟩

/-- The checks after the logging set-up and before the lists. -/
def Host.prepare (host : Host) (config : McpConfig) :
    Except McpError (TransportMode × Option AuthState) := do
  let transportMode ← validateTransport host.features config
  host.engineFromConfig config
  if host.features.streamableHttp then
    let authState ← buildAuthStateWithPlugins config (some host.registry)
    pure (transportMode, some authState)
  else
    pure (transportMode, none)

/-- `build_runtime_state` up to its first await, with its effect on the logging. -/
def Host.beginBuild (host : Host) (config : McpConfig) (logging : Logging) :
    Except McpError (TransportMode × Option AuthState) × Logging :=
  match compiledFeatureValidationError host.features config with
  | some error => (.error error, logging)
  | none =>
    match initLogging config.server.logging.level logging with
    | .error error => (.error error, logging)
    | .ok logging => (host.prepare config, logging)

/-- The rest of `build_runtime_state`. -/
def Host.finishBuild (host : Host) (config : McpConfig)
    (prepared : TransportMode × Option AuthState) (ptr : ℕ) (results : ListResults) :
    Except McpError BuiltRuntimeState := do
  let listing ← buildListCache host.features results ptr
  pure ⟨⟨prepared.1, ⟨ptr, config⟩, prepared.2⟩, listing⟩

/-- What calls on one runtime and on its clones share, with the logging state of
the process. The next engine that is allocated has the number `allocated`. -/
structure RuntimeState where
  reloadState : Option ReloadState
  listCache : ListCache
  pendingRegistryNotifications : Finset ListFeature
  logging : Logging
  allocated : ℕ

/-- What `Runtime::new` starts from, in a process without logging. -/
def RuntimeState.new : RuntimeState where
  reloadState := none
  listCache := .empty
  pendingRegistryNotifications := ∅
  logging := .unset
  allocated := 0

namespace RuntimeState
variable (s : RuntimeState)

/-- The shape of the three readers of the reload state. -/
def readReloadState {α : Type} (field : ReloadState → α) : Except McpError α :=
  match s.reloadState with
  | some state => .ok (field state)
  | none => .error (.internalError "runtime state unavailable" none)

def currentTransportMode : Except McpError TransportMode := s.readReloadState (·.transportMode)

def currentEngine : Except McpError Engine := s.readReloadState (·.engine)

def currentAuthState : Except McpError (Option AuthState) := s.readReloadState (·.authState)

def engine : Option Engine := s.reloadState.map (·.engine)

variable {s}

theorem currentEngine_eq_ok {engine : Engine} :
    s.currentEngine = .ok engine ↔ s.engine = some engine := by
  cases h : s.reloadState <;> simp [currentEngine, readReloadState, RuntimeState.engine, h]

end RuntimeState

def changedFeatures (old new : ListCache) : List ListFeature :=
  ListFeature.all.filter fun feature => old.differs feature new

end RustMcpCore
