import Mathlib.Data.Finset.Erase
import Mathlib.Data.Finset.Insert
import RustMcpCore.Config.Root
import RustMcpCore.Errors
import RustMcpCore.Library.HashMap

/-! # The plugin registry

Every method takes a registry and returns the changed one. The clones of a registry
have one event channel; the event that a method sends is part of what it returns.
-/
namespace RustMcpCore
open Library

inductive RegistryEvent
  | toolChanged
  | promptChanged
  | resourceChanged
  deriving DecidableEq

def PluginType.asStr : PluginType → String
  | .tool => "tool"
  | .auth => "auth"
  | .httpRouter => "http_router"
  | .completion => "completion"
  | .prompt => "prompt"
  | .resource => "resource"

structure Plugin where
  name : String
  /-- What its pointer points to. -/
  object : ℕ

structure PluginRegistry where
  plugins : PluginType → HashMap String Plugin
  allNames : Finset String

namespace PluginRegistry

def new : PluginRegistry := ⟨fun _ => ∅, ∅⟩

section Methods
variable (registry : PluginRegistry) (pluginType : PluginType)

def checkNameAvailable (name : String) : Except McpError Unit :=
  if name ∈ registry.allNames then
    .error (.invalidRequest ("duplicate plugin name: " ++ name) none)
  else .ok ()

def checkNameForReplace (name : String) (existsInType : Bool) : Except McpError Unit :=
  if existsInType then .ok ()
  else if name ∈ registry.allNames then
    .error (.invalidRequest ("cannot replace " ++ pluginType.asStr ++ " plugin " ++ name ++
      ": name is registered as a different plugin type") none)
  else
    .error (.invalidRequest (pluginType.asStr ++ " plugin not registered: " ++ name) none)

def emitTypeEvent : PluginType → Option RegistryEvent
  | .tool => some .toolChanged
  | .prompt => some .promptChanged
  | .resource => some .resourceChanged
  | .auth | .httpRouter | .completion => none

def setPlugins (plugins : HashMap String Plugin) : PluginRegistry :=
  { registry with plugins := Function.update registry.plugins pluginType plugins }

/-- `PluginLookup::get_plugin`. -/
def getPlugin (name : String) : Option Plugin := (registry.plugins pluginType).lookup name

/-- The names of one typed registry, with their type. -/
def typedNames : List (String × PluginType) :=
  (registry.plugins pluginType).keys.map fun name => (name, pluginType)

/-- `PluginLookup::names`. -/
def names : List (String × PluginType) :=
  registry.typedNames .tool ++ registry.typedNames .auth ++ registry.typedNames .httpRouter ++
    registry.typedNames .completion ++ registry.typedNames .prompt ++ registry.typedNames .resource

/-- The shape of the `register_*` methods. -/
def register (plugin : Plugin) : Except McpError (PluginRegistry × Option RegistryEvent) := do
  registry.checkNameAvailable plugin.name
  let changed := registry.setPlugins pluginType
    ((registry.plugins pluginType).insert plugin.name plugin)
  pure ({ changed with allNames := insert plugin.name registry.allNames },
    emitTypeEvent pluginType)

/-- The shape of the `unregister_*` methods. -/
def unregister (name : String) : Except McpError (PluginRegistry × Option RegistryEvent) :=
  match (registry.plugins pluginType).lookup name with
  | none => .error (.invalidRequest (pluginType.asStr ++ " plugin not registered: " ++ name) none)
  | some _ =>
    let changed := registry.setPlugins pluginType ((registry.plugins pluginType).erase name)
    .ok ({ changed with allNames := registry.allNames.erase name }, emitTypeEvent pluginType)

/-- The shape of the `replace_*` methods. -/
def replace (plugin : Plugin) : Except McpError (PluginRegistry × Option RegistryEvent) := do
  registry.checkNameForReplace pluginType plugin.name
    ((registry.plugins pluginType).lookup plugin.name).isSome
  pure (registry.setPlugins pluginType
    ((registry.plugins pluginType).insert plugin.name plugin), emitTypeEvent pluginType)

def registerTool := registry.register .tool
def registerAuth := registry.register .auth
def registerHttpRouter := registry.register .httpRouter
def registerCompletion := registry.register .completion
def registerPrompt := registry.register .prompt
def registerResource := registry.register .resource

def unregisterTool := registry.unregister .tool
def unregisterPrompt := registry.unregister .prompt
def unregisterResource := registry.unregister .resource

def replaceTool := registry.replace .tool
def replacePrompt := registry.replace .prompt
def replaceResource := registry.replace .resource

/-- The calls that change a registry. -/
inductive Operation
  | registerTool (plugin : Plugin)
  | registerAuth (plugin : Plugin)
  | registerHttpRouter (plugin : Plugin)
  | registerCompletion (plugin : Plugin)
  | registerPrompt (plugin : Plugin)
  | registerResource (plugin : Plugin)
  | unregisterTool (name : String)
  | unregisterPrompt (name : String)
  | unregisterResource (name : String)
  | replaceTool (plugin : Plugin)
  | replacePrompt (plugin : Plugin)
  | replaceResource (plugin : Plugin)

def operate : Operation → Except McpError (PluginRegistry × Option RegistryEvent)
  | .registerTool plugin => registry.registerTool plugin
  | .registerAuth plugin => registry.registerAuth plugin
  | .registerHttpRouter plugin => registry.registerHttpRouter plugin
  | .registerCompletion plugin => registry.registerCompletion plugin
  | .registerPrompt plugin => registry.registerPrompt plugin
  | .registerResource plugin => registry.registerResource plugin
  | .unregisterTool name => registry.unregisterTool name
  | .unregisterPrompt name => registry.unregisterPrompt name
  | .unregisterResource name => registry.unregisterResource name
  | .replaceTool plugin => registry.replaceTool plugin
  | .replacePrompt plugin => registry.replacePrompt plugin
  | .replaceResource plugin => registry.replaceResource plugin

end Methods

/-- The plugin type of the methods that an operation calls. -/
def Operation.pluginType : Operation → PluginType
  | .registerTool _ | .unregisterTool _ | .replaceTool _ => .tool
  | .registerPrompt _ | .unregisterPrompt _ | .replacePrompt _ => .prompt
  | .registerResource _ | .unregisterResource _ | .replaceResource _ => .resource
  | .registerAuth _ => .auth
  | .registerHttpRouter _ => .httpRouter
  | .registerCompletion _ => .completion

variable {registry : PluginRegistry} {pluginType : PluginType}

theorem register_event {plugin : Plugin} {r : PluginRegistry × Option RegistryEvent}
    (h : registry.register pluginType plugin = .ok r) : r.2 = emitTypeEvent pluginType := by
  unfold register checkNameAvailable at h
  split at h <;> cases h
  rfl

theorem unregister_event {name : String} {r : PluginRegistry × Option RegistryEvent}
    (h : registry.unregister pluginType name = .ok r) : r.2 = emitTypeEvent pluginType := by
  unfold unregister at h
  split at h <;> cases h
  rfl

theorem replace_event {plugin : Plugin} {r : PluginRegistry × Option RegistryEvent}
    (h : registry.replace pluginType plugin = .ok r) : r.2 = emitTypeEvent pluginType := by
  unfold replace checkNameForReplace at h
  split at h
  · cases h
    rfl
  · split at h <;> cases h

/-- A successful operation sends the event of its plugin type. -/
theorem operate_event {op : Operation} {r : PluginRegistry × Option RegistryEvent}
    (h : registry.operate op = .ok r) : r.2 = emitTypeEvent op.pluginType := by
  cases op with
  | registerTool | registerAuth | registerHttpRouter | registerCompletion | registerPrompt
  | registerResource => exact register_event h
  | unregisterTool | unregisterPrompt | unregisterResource => exact unregister_event h
  | replaceTool | replacePrompt | replaceResource => exact replace_event h

end PluginRegistry
end RustMcpCore
