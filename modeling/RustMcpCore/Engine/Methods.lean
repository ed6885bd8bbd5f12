import RustMcpCore.Engine.Construction
import RustMcpCore.Engine.TaskCancellation
import RustMcpCore.Library.Runs
import RustMcpCore.Plugins.Logging

/-! # The server as a machine

The other methods of the handler, the refreshes of the runtime, and a machine that takes
one of them after another. The registry is shared with the host, so each event comes with
the registry of its time.
-/
namespace RustMcpCore.Dispatch
open Library Outbound

structure ServerEnvironment (W : Type) extends Environment W where
  subscribe : Plugin → String → PluginCallParams → W → Except McpError Unit × W
  unsubscribe : Plugin → String → PluginCallParams → W → Except McpError Unit × W
  /-- How the peers take a notification by now. -/
  sender : W → TaskStore.Sender × W
  /-- `set_min_level`: the contexts of all plugins read the threshold from one cell. -/
  setMinLevel : Logging.LoggingLevel → W → W

structure ListToolsResult where
  tools : List Tool
  nextCursor : Option String

structure ListResourceTemplatesResult where
  resourceTemplates : List ResourceTemplate
  nextCursor : Option String

structure ListTasksResult where
  tasks : List Task
  nextCursor : Option String

inductive SubscriptionAction
  | subscribe
  | unsubscribe

def SubscriptionAction.method : SubscriptionAction → String
  | .subscribe => "resources/subscribe"
  | .unsubscribe => "resources/unsubscribe"

inductive ServerEvent
  | event (event : Event)
  | listTools (cursor : Option String) (context : RequestContext)
  | listResourceTemplates (cursor : Option String) (context : RequestContext)
  | subscription (action : SubscriptionAction) (uri : String) (context : RequestContext)
  | listTasks (cursor : Option String) (swept : DateTime) (context : RequestContext)
  | taskInfo (taskId : String) (swept : DateTime) (context : RequestContext)
  | cancelTask (taskId : String) (swept now : DateTime) (context : RequestContext)
  | setLevel (level : Logging.LoggingLevel) (context : RequestContext)
  /-- `list_prompts_for_refresh`. A request that began its build before another had stored one
  stores its own over it in the same way, and then goes on. -/
  | refreshPrompts
  /-- `list_resources_for_refresh`. -/
  | refreshResources

inductive Reply
  | handled (payload : Option Payload)
  | tools (result : ListToolsResult)
  | resourceTemplates (result : ListResourceTemplatesResult)
  | subscribed
  | tasks (result : ListTasksResult)
  | task (task : Task)
  | levelSet
  | promptsRefreshed (prompts : List Prompt)
  | resourcesRefreshed (resources : List Resource)

def Engine.withPlugins (engine : Engine) (plugins : PluginRegistry) : Engine := { engine with plugins }

@[simp]
theorem Engine.withPlugins_config (engine : Engine) (plugins : PluginRegistry) :
    (engine.withPlugins plugins).config = engine.config := rfl

@[simp]
theorem Engine.withPlugins_toolMap (engine : Engine) (plugins : PluginRegistry) :
    (engine.withPlugins plugins).toolMap = engine.toolMap := rfl

@[simp]
theorem Engine.withPlugins_completionSources (engine : Engine) (plugins : PluginRegistry) :
    (engine.withPlugins plugins).completionSources = engine.completionSources := rfl

def ServerEnvironment.call {W : Type} (env : ServerEnvironment W) :
    SubscriptionAction → Plugin → String → PluginCallParams → W → Except McpError Unit × W
  | .subscribe => env.subscribe
  | .unsubscribe => env.unsubscribe

namespace Engine
variable (engine : Engine)

def requireTasksListActive : Except McpError Unit :=
  if engine.config.tasksListActive then .ok () else .error (.methodNotFound "tasks/list")

def requireTasksCancelActive : Except McpError Unit :=
  if engine.config.tasksCancelActive then .ok () else .error (.methodNotFound "tasks/cancel")

variable {W : Type} (env : ServerEnvironment W) (context : RequestContext)

def handleListResourceTemplatesRequest (cursor : Option String) :
    Handler W ListResourceTemplatesResult := do
  checkCancelled env.toEnvironment context
  let catalog ← engine.resourceCatalog env.toEnvironment
  let (resourceTemplates, nextCursor) ←
    settle (pageOf env.crates.base64 catalog.templatesPayload cursor engine.resourcePageSize)
  return { resourceTemplates, nextCursor }

/-- The shape of `call_resource_plugin_subscribe` and `call_resource_plugin_unsubscribe`. -/
def callResourcePluginSubscription (action : SubscriptionAction) (pluginName : String)
    (config : Value) (uri : String) (request : Option RequestContext) : Handler W Unit := do
  let plugin ← settle (engine.lookupResourcePlugin pluginName)
  ask (env.call action plugin uri { config, ctx := engine.buildPluginContext request })

def applyResourceSubscription (action : SubscriptionAction) (uri : String) : Handler W Unit := do
  match ← engine.resolveResourceMatch env.toEnvironment uri with
  | .inlineResource _ _ | .inlineTemplate => return
  | .plugin pluginName config =>
    engine.callResourcePluginSubscription env action pluginName config uri (some context)

def handleListTasksRequest (cursor : Option String) (swept : DateTime) :
    Handler W ListTasksResult := do
  checkCancelled env.toEnvironment context
  settle engine.requireTasksListActive
  let tasks ← onTasks fun inner => TaskStore.listTasks inner context.peerKey swept
  let (tasks, nextCursor) ←
    settle (pageOf env.crates.base64 tasks cursor (pageSize none engine.config))
  return { tasks, nextCursor }

def handleGetTaskInfoRequest (taskId : String) (swept : DateTime) : Handler W Task := do
  checkCancelled env.toEnvironment context
  settle (engine.requireTasksActive "tasks/get")
  match ← onTasks fun inner => TaskStore.getTask inner taskId context.peerKey swept with
  | none => throw taskNotFoundError
  | some task => return task

/-- The task is cancelled in the store before its peer is told. -/
def handleCancelTaskRequest (platform : Platform) (taskId : String) (swept now : DateTime) :
    Handler W Task := do
  checkCancelled env.toEnvironment context
  settle engine.requireTasksCancelActive
  let cancelled ← onTasks fun inner =>
    TaskStore.cancel platform inner taskId context.peerKey swept now
  let (task, peer) ← settle (cancelled.mapError TaskStore.cancelTaskError)
  let sender ← observe env.sender
  check (TaskStore.notifyTaskStatus engine.config sender task peer)
  return task

/-- Without the feature the request is taken and nothing is set. -/
def handleSetLevelRequest (level : Logging.LoggingLevel) : Handler W Unit := do
  checkCancelled env.toEnvironment context
  if engine.config.clientLogging then observe fun world => ((), env.setMinLevel level world)
  else return

def listPromptsForRefresh : Handler W (List Prompt) :=
  PromptCatalog.prompts <$> engine.refreshPromptCatalog env.toEnvironment

def listResourcesForRefresh : Handler W (List Resource) :=
  ResourceCatalog.resourcesPayload <$> engine.refreshResourceCatalog env.toEnvironment

end Engine

namespace ServerEngine
variable (engine : ServerEngine) {W : Type} (env : ServerEnvironment W) (context : RequestContext)

def resourceSubscribeEnabled : Bool := engine.config.resources.isSome && engine.clientsCanSubscribe

def handleListToolsRequest (cursor : Option String) : Handler W ListToolsResult := do
  Engine.checkCancelled env.toEnvironment context
  let (tools, nextCursor) ←
    settle (pageOf env.crates.base64 engine.tools cursor (pageSize none engine.config))
  return { tools, nextCursor }

/-- The shape of `handle_subscribe_request` and `handle_unsubscribe_request`. -/
def handleSubscriptionRequest (plugins : PluginRegistry) (action : SubscriptionAction)
    (uri : String) : Handler W Unit := do
  Engine.checkCancelled env.toEnvironment context
  if engine.resourceSubscribeEnabled then
    (engine.toEngine.withPlugins plugins).applyResourceSubscription env context action uri
  else throw (.methodNotFound action.method)

variable (platform : Platform)

def handleServerEvent (plugins : PluginRegistry) : ServerEvent → Handler W Reply
  | .event event =>
    .handled <$> (engine.toEngine.withPlugins plugins).handleEvent platform env.toEnvironment event
  | .listTools cursor context => .tools <$> engine.handleListToolsRequest env context cursor
  | .listResourceTemplates cursor context =>
    .resourceTemplates <$>
      (engine.toEngine.withPlugins plugins).handleListResourceTemplatesRequest env context cursor
  | .subscription action uri context => do
    engine.handleSubscriptionRequest env context plugins action uri
    return .subscribed
  | .listTasks cursor swept context =>
    .tasks <$> engine.toEngine.handleListTasksRequest env context cursor swept
  | .taskInfo taskId swept context =>
    .task <$> engine.toEngine.handleGetTaskInfoRequest env context taskId swept
  | .cancelTask taskId swept now context =>
    .task <$> engine.toEngine.handleCancelTaskRequest env context platform taskId swept now
  | .setLevel level context =>
    (fun _ => .levelSet) <$> engine.toEngine.handleSetLevelRequest env context level
  | .refreshPrompts =>
    .promptsRefreshed <$> (engine.toEngine.withPlugins plugins).listPromptsForRefresh env
  | .refreshResources =>
    .resourcesRefreshed <$> (engine.toEngine.withPlugins plugins).listResourcesForRefresh env

/-- A new engine has no catalog and no task. -/
def newServer (world : W) : ServerState W := ⟨world, none, none, ⟨∅⟩, 0⟩

def machine (world : W) :
    Machine (ServerState W) (PluginRegistry × ServerEvent) (Except McpError Reply) where
  init := newServer world
  next server label :=
    let ended := Fallible.exec (engine.handleServerEvent env platform label.1 label.2) ⟨server, []⟩
    some (ended.2.server, ended.1)

end ServerEngine

end RustMcpCore.Dispatch
