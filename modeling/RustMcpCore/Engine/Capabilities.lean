import RustMcpCore.Engine.ServerRuns

/-! # What a server announces of itself

A client learns from the capabilities which requests a server takes. The announcement is made
from the configuration, while each handler looks at it again, or at what was built from it;
over all runs the two agree.
-/
namespace RustMcpCore.Dispatch
open Library Fallible

structure ToolsCapability where
  listChanged : Option Bool := none

structure PromptsCapability where
  listChanged : Option Bool := none

structure ResourcesCapability where
  subscribe : Option Bool := none
  listChanged : Option Bool := none

structure ToolsTaskCapability where
  call : Option Map := none

structure TaskRequestsCapability where
  tools : Option ToolsTaskCapability := none

structure TasksCapability where
  requests : Option TaskRequestsCapability := none
  list : Option Map := none
  cancel : Option Map := none

structure ServerCapabilities where
  logging : Option Map := none
  completions : Option Map := none
  prompts : Option PromptsCapability := none
  resources : Option ResourcesCapability := none
  tools : Option ToolsCapability := none
  tasks : Option TasksCapability := none

namespace ServerEngine
variable (engine : ServerEngine)

def buildPromptsCapability : Option PromptsCapability :=
  (engine.config.prompts.filter PromptsConfig.isActive).map fun prompts =>
    { listChanged := if prompts.notifyListChanged then some true else none }

def buildResourcesCapability : Option ResourcesCapability :=
  (engine.config.resources.filter ResourcesConfig.isActive).map fun resources =>
    { listChanged := if resources.notifyListChanged then some true else none
      subscribe := if engine.clientsCanSubscribe then some true else none }

def buildLoggingCapability : Option Map := if engine.config.clientLogging then some [] else none

def buildCompletionCapability : Option Map :=
  if engine.config.completionActive then some [] else none

def buildToolsCapability : ToolsCapability where
  listChanged := if engine.config.toolsNotifyListChanged then some true else none

def buildTasksCapability : Option TasksCapability :=
  (engine.config.tasks.filter TasksConfig.isActive).map fun tasks =>
    let anyTaskTool := engine.toolMap.values.any fun tool => tool.execute.taskSupport ≠ .forbidden
    { requests := if anyTaskTool then some { tools := some { call := some [] } } else none
      list := if tasks.capabilities.list then some [] else none
      cancel := if tasks.capabilities.cancel then some [] else none }

def buildServerCapabilities : ServerCapabilities where
  logging := engine.buildLoggingCapability
  completions := engine.buildCompletionCapability
  prompts := engine.buildPromptsCapability
  resources := engine.buildResourcesCapability
  tools := some engine.buildToolsCapability
  tasks := engine.buildTasksCapability

end ServerEngine

/-! ## Which capability stands for a request -/

namespace ServerCapabilities
variable (capabilities : ServerCapabilities)

def coversRequest : Request → Bool
  | .callTool _ _ => capabilities.tools.isSome
  | .enqueueTask _ _ _ _ => capabilities.tasks.any fun tasks => tasks.requests.isSome
  | .taskResult _ _ => capabilities.tasks.isSome
  | .getPrompt _ _ | .listPrompts _ => capabilities.prompts.isSome
  | .readResource _ | .listResources _ => capabilities.resources.isSome
  | .complete _ => capabilities.completions.isSome

/-- The executions of tasks are no requests, and one that waits for a task was covered before. -/
def covers : ServerEvent → Bool
  | .event (.request request _) => capabilities.coversRequest request
  | .event (.worker _ _ _ _ _ _) | .event (.woken _ _ _) => true
  | .listTools _ _ => capabilities.tools.isSome
  | .listResourceTemplates _ _ | .refreshResources => capabilities.resources.isSome
  | .subscription _ _ _ => capabilities.resources.any fun resources => resources.subscribe = some true
  | .listTasks _ _ _ => capabilities.tasks.any fun tasks => tasks.list.isSome
  | .taskInfo _ _ _ => capabilities.tasks.isSome
  | .cancelTask _ _ _ _ => capabilities.tasks.any fun tasks => tasks.cancel.isSome
  | .setLevel _ _ => capabilities.logging.isSome
  | .refreshPrompts => capabilities.prompts.isSome

end ServerCapabilities

/-- A list with nothing in it. -/
def Payload.Empty : Payload → Prop
  | .prompts result => result.prompts = [] ∧ result.nextCursor = none
  | .resources result => result.resources = [] ∧ result.nextCursor = none
  | _ => False

/-- A list with nothing in it, or that a level was taken. -/
def Reply.Empty : Reply → Prop
  | .handled (some payload) => payload.Empty
  | .levelSet => True
  | .resourceTemplates result => result.resourceTemplates = [] ∧ result.nextCursor = none
  | .promptsRefreshed prompts => prompts = []
  | .resourcesRefreshed resources => resources = []
  | _ => False

/-! ## Requests that nothing stands for -/

/-- Nothing was done since: no task is other than before, and outside of the engine nothing was
asked but whether a request is cancelled. -/
structure Idle {W : Type} (env : Environment W) (engine : Engine) (before server : ServerState W) :
    Prop where
  wired : Wired engine server
  tasks : server.tasks = before.tasks
  issued : server.issued = before.issued
  world : server.world = before.world ∨
    ∃ ct, server.world = (env.outside.isCancelled ct before.world).2

section Idle
variable {W A B : Type} {env : Environment W} {engine : Engine} {before : ServerState W}
  {plugins : PluginRegistry} {Fine : A → Prop} {Fine' : B → Prop}

/-- A handler asks first whether its request is cancelled. -/
theorem idle_checkCancelled (hwired : Wired engine before) {context : RequestContext}
    {program : Handler W B}
    (h : Confined (Idle env engine before) Fine' program program) :
    Triple (fun handling => handling.server = before)
      (fun b handling => Idle env engine before handling.server ∧ Fine' b)
      (fun _ handling => Idle env engine before handling.server)
      (Engine.checkCancelled env context >>= fun _ => program) := by
  have hchecked : Triple (fun handling => handling.server = before)
      (fun _ handling => Idle env engine before handling.server)
      (fun _ handling => Idle env engine before handling.server)
      (Engine.checkCancelled env context) := by
    unfold Engine.checkCancelled
    have hobserved : Triple (fun handling => handling.server = before)
        (fun _ handling => Idle env engine before handling.server)
        (fun _ handling => Idle env engine before handling.server)
        (observe (env.outside.isCancelled context.ct)) := by
      refine .act (fun _ _ => rfl) fun handling heq => ?_
      subst heq
      exact .ok ⟨wired_framed engine handling.server _ rfl rfl hwired, rfl, rfl, .inr ⟨_, rfl⟩⟩
    refine SameFrom.bind hobserved fun cancelled => ?_
    split
    · exact .throw fun _ h => h
    · exact .pure fun _ h => h
  exact SameFrom.bind hchecked fun _ => h

theorem idle_storePrompts {server : ServerState W} {catalog : PromptCatalog}
    (h : Idle env engine before server) (hcatalog : PromptCatalogWired engine catalog) :
    Idle env engine before { server with promptCatalog := some catalog } :=
  ⟨wired_storePrompts h.wired hcatalog, h.tasks, h.issued, h.world⟩

theorem idle_storeResources {server : ServerState W} {catalog : ResourceCatalog}
    (h : Idle env engine before server) (hcatalog : ResourceCatalogWired engine catalog) :
    Idle env engine before { server with resourceCatalog := some catalog } :=
  ⟨wired_storeResources h.wired hcatalog, h.tasks, h.issued, h.world⟩

theorem refreshPromptCatalog_idle (hinactive : engine.config.promptsActive = false) :
    Confined (Idle env engine before) (fun catalog : PromptCatalog => catalog.entries = [])
      ((engine.withPlugins plugins).refreshPromptCatalog env)
      ((engine.withPlugins plugins).refreshPromptCatalog env) := by
  have hnone : engine.config.prompts.filter PromptsConfig.isActive = none := by
    cases hactive : engine.config.prompts.filter PromptsConfig.isActive with
    | none => rfl
    | some promptsConfig =>
      rw [promptsActive_of_some hactive] at hinactive
      cases hinactive
  have hbuild : (engine.withPlugins plugins).buildPromptCatalog env = pure .default := by
    unfold Engine.buildPromptCatalog
    simp only [Engine.withPlugins_config, hnone]
  have hwired : PromptCatalogWired engine .default :=
    { index := rfl
      inactive := fun _ => rfl
      entries := by simp [PromptCatalog.default] }
  unfold Engine.refreshPromptCatalog
  rw [hbuild]
  refine confined_bind (confined_pure hwired) fun catalog hcatalog => ?_
  refine confined_bind (confined_update fun server h => idle_storePrompts h hcatalog) fun _ _ => ?_
  exact confined_pure (hcatalog.inactive hinactive)

theorem promptCatalog_idle (hinactive : engine.config.promptsActive = false) :
    Confined (Idle env engine before) (fun catalog : PromptCatalog => catalog.entries = [])
      ((engine.withPlugins plugins).promptCatalog env)
      ((engine.withPlugins plugins).promptCatalog env) := by
  unfold Engine.promptCatalog
  have hserver : Triple (fun handling : Handling W => Idle env engine before handling.server)
      (fun found handling => Idle env engine before handling.server ∧ Wired engine found)
      (fun _ handling => Idle env engine before handling.server) server :=
    .act (fun _ _ => rfl) fun handling h => .ok ⟨h, h.wired⟩
  refine SameFrom.bind hserver fun found handling hmid => ?_
  obtain ⟨hidle, hwired⟩ := hmid
  cases hstored : found.promptCatalog with
  | none => exact refreshPromptCatalog_idle hinactive handling hidle
  | some existing =>
    have hempty := (hwired.prompts existing hstored).inactive hinactive
    exact (confined_pure hempty : Confined (Idle env engine before)
      (fun catalog : PromptCatalog => catalog.entries = []) (pure existing) (pure existing))
      handling hidle

theorem refreshResourceCatalog_idle (hinactive : engine.config.resourcesActive = false) :
    Confined (Idle env engine before)
      (fun catalog : ResourceCatalog => catalog.resources = [] ∧ catalog.templates = [])
      ((engine.withPlugins plugins).refreshResourceCatalog env)
      ((engine.withPlugins plugins).refreshResourceCatalog env) := by
  have hnone : engine.config.resources.filter ResourcesConfig.isActive = none := by
    cases hactive : engine.config.resources.filter ResourcesConfig.isActive with
    | none => rfl
    | some resourcesConfig =>
      rw [resourcesActive_of_some hactive] at hinactive
      cases hinactive
  have hbuild : (engine.withPlugins plugins).buildResourceCatalog env = pure (.new [] []) := by
    unfold Engine.buildResourceCatalog Engine.buildResources Engine.buildResourceTemplates
    simp only [Engine.withPlugins_config, hnone]
    rfl
  have hwired : ResourceCatalogWired engine (.new [] []) :=
    { index := rfl
      inactive := fun _ => ⟨rfl, rfl⟩
      resources := by simp [ResourceCatalog.new]
      templates := by simp [ResourceCatalog.new] }
  unfold Engine.refreshResourceCatalog
  rw [hbuild]
  refine confined_bind (confined_pure hwired) fun catalog hcatalog => ?_
  refine confined_bind (confined_update fun server h => idle_storeResources h hcatalog)
    fun _ _ => ?_
  exact confined_pure (hcatalog.inactive hinactive)

theorem resourceCatalog_idle (hinactive : engine.config.resourcesActive = false) :
    Confined (Idle env engine before)
      (fun catalog : ResourceCatalog => catalog.resources = [] ∧ catalog.templates = [])
      ((engine.withPlugins plugins).resourceCatalog env)
      ((engine.withPlugins plugins).resourceCatalog env) := by
  unfold Engine.resourceCatalog
  have hserver : Triple (fun handling : Handling W => Idle env engine before handling.server)
      (fun found handling => Idle env engine before handling.server ∧ Wired engine found)
      (fun _ handling => Idle env engine before handling.server) server :=
    .act (fun _ _ => rfl) fun handling h => .ok ⟨h, h.wired⟩
  refine SameFrom.bind hserver fun found handling hmid => ?_
  obtain ⟨hidle, hwired⟩ := hmid
  cases hstored : found.resourceCatalog with
  | none => exact refreshResourceCatalog_idle hinactive handling hidle
  | some existing =>
    have hempty := (hwired.resources existing hstored).inactive hinactive
    exact (confined_pure hempty : Confined (Idle env engine before)
      (fun catalog : ResourceCatalog => catalog.resources = [] ∧ catalog.templates = [])
      (pure existing) (pure existing)) handling hidle

end Idle

theorem pageOf_nil {T : Type} {base64 : Base64} {page : List T} {cursor nextCursor : Option String}
    {size : Option ℕ} (h : pageOf base64 [] cursor size = .ok (page, nextCursor)) :
    page = [] ∧ nextCursor = none := by
  cases size with
  | none =>
    cases h
    exact ⟨rfl, rfl⟩
  | some pageSize =>
    obtain ⟨start, -, -, hpage, hnext⟩ := paginateItems_eq_ok base64 h
    simp [hpage, hnext]

/-- The page of an empty list is empty. -/
theorem confined_pageOf_nil {W T : Type} {Inv : ServerState W → Prop} {base64 : Base64}
    {cursor : Option String} {size : Option ℕ} :
    Confined Inv (fun page : List T × Option String => page.1 = [] ∧ page.2 = none)
      (settle (pageOf base64 [] cursor size)) (settle (pageOf base64 [] cursor size)) :=
  confined_settle fun _ hpage => pageOf_nil hpage

section Unadvertised
variable {W : Type} {env : Environment W} {engine : Engine} {before : ServerState W}
  {plugins : PluginRegistry} {context : RequestContext}

/-- Without prompts a list is empty and no prompt is found. -/
theorem handleListPromptsRequest_idle (hinactive : engine.config.promptsActive = false)
    (hwired : Wired engine before) (cursor : Option String) :
    Triple (fun handling => handling.server = before)
      (fun result handling => Idle env engine before handling.server ∧
        result.prompts = [] ∧ result.nextCursor = none)
      (fun _ handling => Idle env engine before handling.server)
      ((engine.withPlugins plugins).handleListPromptsRequest env context cursor) := by
  unfold Engine.handleListPromptsRequest
  refine idle_checkCancelled hwired ?_
  refine confined_bind (promptCatalog_idle hinactive) fun catalog hempty => ?_
  have hprompts : catalog.prompts = [] := by simp [PromptCatalog.prompts, hempty]
  rw [hprompts]
  refine confined_bind confined_pageOf_nil fun page hpage => ?_
  exact confined_pure hpage

theorem handleListResourcesRequest_idle (hinactive : engine.config.resourcesActive = false)
    (hwired : Wired engine before) (cursor : Option String) :
    Triple (fun handling => handling.server = before)
      (fun result handling => Idle env engine before handling.server ∧
        result.resources = [] ∧ result.nextCursor = none)
      (fun _ handling => Idle env engine before handling.server)
      ((engine.withPlugins plugins).handleListResourcesRequest env context cursor) := by
  unfold Engine.handleListResourcesRequest
  refine idle_checkCancelled hwired ?_
  refine confined_bind (resourceCatalog_idle hinactive) fun catalog hempty => ?_
  have hresources : catalog.resourcesPayload = [] := by
    simp [ResourceCatalog.resourcesPayload, hempty.1]
  rw [hresources]
  refine confined_bind confined_pageOf_nil fun page hpage => ?_
  exact confined_pure hpage

theorem handleListResourceTemplatesRequest_idle {env : ServerEnvironment W}
    (hinactive : engine.config.resourcesActive = false) (hwired : Wired engine before)
    (cursor : Option String) :
    Triple (fun handling => handling.server = before)
      (fun result handling => Idle env.toEnvironment engine before handling.server ∧
        result.resourceTemplates = [] ∧ result.nextCursor = none)
      (fun _ handling => Idle env.toEnvironment engine before handling.server)
      ((engine.withPlugins plugins).handleListResourceTemplatesRequest env context cursor) := by
  unfold Engine.handleListResourceTemplatesRequest
  refine idle_checkCancelled hwired ?_
  refine confined_bind (resourceCatalog_idle hinactive) fun catalog hempty => ?_
  have htemplates : catalog.templatesPayload = [] := by
    simp [ResourceCatalog.templatesPayload, hempty.2]
  rw [htemplates]
  refine confined_bind confined_pageOf_nil fun page hpage => ?_
  exact confined_pure hpage

theorem handleGetPromptRequest_idle (hinactive : engine.config.promptsActive = false)
    (hwired : Wired engine before) (promptName : String) (arguments : Option Map) :
    Triple (fun handling => handling.server = before)
      (fun _ handling => Idle env engine before handling.server ∧ False)
      (fun _ handling => Idle env engine before handling.server)
      ((engine.withPlugins plugins).handleGetPromptRequest env context promptName arguments) := by
  unfold Engine.handleGetPromptRequest
  refine idle_checkCancelled hwired ?_
  refine confined_bind (promptCatalog_idle hinactive) fun catalog hempty => ?_
  have hfound : catalog.lookup promptName = none := by
    cases hindex : catalog.byName.lookup promptName with
    | none => simp [PromptCatalog.lookup, hindex]
    | some index => simp [PromptCatalog.lookup, hindex, hempty]
  rw [hfound]
  exact confined_throw _

theorem resolveResourceMatch_idle (hinactive : engine.config.resourcesActive = false)
    (uri : String) :
    Confined (Idle env engine before) (fun _ => False)
      ((engine.withPlugins plugins).resolveResourceMatch env uri)
      ((engine.withPlugins plugins).resolveResourceMatch env uri) := by
  unfold Engine.resolveResourceMatch
  refine confined_bind (resourceCatalog_idle hinactive) fun catalog hempty => ?_
  have hfound : catalog.resourceByUri uri = none := by
    cases hindex : catalog.resourcesByUri.lookup uri with
    | none => simp [ResourceCatalog.resourceByUri, hindex]
    | some index => simp [ResourceCatalog.resourceByUri, hindex, hempty.1]
  have hmatched : matchTemplates uri catalog.templates = none := by
    simp [matchTemplates, hempty.2]
  rw [hfound, hmatched]
  exact confined_throw _

theorem handleReadResourceRequest_idle (hinactive : engine.config.resourcesActive = false)
    (hwired : Wired engine before) (uri : String) :
    Triple (fun handling => handling.server = before)
      (fun _ handling => Idle env engine before handling.server ∧ False)
      (fun _ handling => Idle env engine before handling.server)
      ((engine.withPlugins plugins).handleReadResourceRequest env context uri) := by
  unfold Engine.handleReadResourceRequest
  refine idle_checkCancelled hwired ?_
  exact confined_bind (resolveResourceMatch_idle hinactive uri) fun _ hnever => hnever.elim

theorem handleSubscriptionRequest_idle {env : ServerEnvironment W} {built : ServerEngine}
    {action : SubscriptionAction} {uri : String}
    (hunadvertised : built.config.resourcesActive = false ∨ built.clientsCanSubscribe = false)
    (hwired : Wired built.toEngine before) :
    Triple (fun handling => handling.server = before)
      (fun _ handling => Idle env.toEnvironment built.toEngine before handling.server ∧ False)
      (fun _ handling => Idle env.toEnvironment built.toEngine before handling.server)
      (built.handleSubscriptionRequest env context plugins action uri) := by
  unfold ServerEngine.handleSubscriptionRequest
  refine idle_checkCancelled hwired ?_
  split
  · rename_i henabled
    have hinactive : built.config.resourcesActive = false := by
      refine hunadvertised.resolve_right fun hnot => ?_
      simp [ServerEngine.resourceSubscribeEnabled, hnot] at henabled
    unfold Engine.applyResourceSubscription
    exact confined_bind (resolveResourceMatch_idle hinactive uri) fun _ hnever => hnever.elim
  · exact confined_throw _

/-- What is refused goes no further. -/
theorem confined_refused {A B : Type} {Inv : ServerState W → Prop} {Fine : B → Prop}
    {result : Except McpError A} {error : McpError} {next : A → Handler W B}
    (h : result = .error error) : Confined Inv Fine (settle result >>= next) (settle result >>= next) := by
  subst h
  have hrefused : Confined Inv (fun _ : A => False) (settle (.error error)) (settle (.error error)) :=
    confined_settle fun _ hnever => by cases hnever
  exact confined_bind hrefused fun _ hnever => hnever.elim

theorem handleCompleteRequest_idle (hinactive : engine.config.completionActive = false)
    (hwired : Wired engine before) (request : CompleteRequestParams) :
    Triple (fun handling => handling.server = before)
      (fun _ handling => Idle env engine before handling.server ∧ False)
      (fun _ handling => Idle env engine before handling.server)
      ((engine.withPlugins plugins).handleCompleteRequest env context request) := by
  unfold Engine.handleCompleteRequest
  refine idle_checkCancelled hwired ?_
  rw [if_neg (by simp [hinactive])]
  exact confined_throw _

/-- A level is taken and not set. -/
theorem handleSetLevelRequest_idle {env : ServerEnvironment W}
    (hinactive : engine.config.clientLogging = false) (hwired : Wired engine before)
    (level : Logging.LoggingLevel) :
    Triple (fun handling => handling.server = before)
      (fun _ handling => Idle env.toEnvironment engine before handling.server ∧ True)
      (fun _ handling => Idle env.toEnvironment engine before handling.server)
      (engine.handleSetLevelRequest env context level) := by
  unfold Engine.handleSetLevelRequest
  refine idle_checkCancelled hwired ?_
  rw [if_neg (by simp [hinactive])]
  exact confined_pure trivial

theorem requireTasksActive_refuses (hinactive : engine.config.tasksActive = false)
    (method : String) : (engine.withPlugins plugins).requireTasksActive method =
      .error (.methodNotFound method) := by
  simp [Engine.requireTasksActive, hinactive]

theorem handleGetTaskResultRequest_idle (hinactive : engine.config.tasksActive = false)
    (hwired : Wired engine before) (taskId : String) (swept : DateTime) :
    Triple (fun handling => handling.server = before)
      (fun _ handling => Idle env engine before handling.server ∧ False)
      (fun _ handling => Idle env engine before handling.server)
      ((engine.withPlugins plugins).handleGetTaskResultRequest env context taskId swept) := by
  unfold Engine.handleGetTaskResultRequest
  have hrefused := @requireTasksActive_refuses engine plugins hinactive "tasks/result"
  exact idle_checkCancelled hwired (confined_refused hrefused)

theorem handleGetTaskInfoRequest_idle {env : ServerEnvironment W}
    (hinactive : engine.config.tasksActive = false) (hwired : Wired engine before)
    (taskId : String) (swept : DateTime) :
    Triple (fun handling => handling.server = before)
      (fun _ handling => Idle env.toEnvironment engine before handling.server ∧ False)
      (fun _ handling => Idle env.toEnvironment engine before handling.server)
      (engine.handleGetTaskInfoRequest env context taskId swept) := by
  unfold Engine.handleGetTaskInfoRequest
  have hrefused := @requireTasksActive_refuses engine engine.plugins hinactive "tasks/get"
  exact idle_checkCancelled hwired (confined_refused hrefused)

theorem handleListTasksRequest_idle {env : ServerEnvironment W}
    (hinactive : engine.config.tasksListActive = false) (hwired : Wired engine before)
    (cursor : Option String) (swept : DateTime) :
    Triple (fun handling => handling.server = before)
      (fun _ handling => Idle env.toEnvironment engine before handling.server ∧ False)
      (fun _ handling => Idle env.toEnvironment engine before handling.server)
      (engine.handleListTasksRequest env context cursor swept) := by
  unfold Engine.handleListTasksRequest
  have hrefused : engine.requireTasksListActive = .error (.methodNotFound "tasks/list") := by
    simp [Engine.requireTasksListActive, hinactive]
  exact idle_checkCancelled hwired (confined_refused hrefused)

theorem handleCancelTaskRequest_idle {env : ServerEnvironment W} {platform : Platform}
    (hinactive : engine.config.tasksCancelActive = false) (hwired : Wired engine before)
    (taskId : String) (swept now : DateTime) :
    Triple (fun handling => handling.server = before)
      (fun _ handling => Idle env.toEnvironment engine before handling.server ∧ False)
      (fun _ handling => Idle env.toEnvironment engine before handling.server)
      (engine.handleCancelTaskRequest env context platform taskId swept now) := by
  unfold Engine.handleCancelTaskRequest
  have hrefused : engine.requireTasksCancelActive = .error (.methodNotFound "tasks/cancel") := by
    simp [Engine.requireTasksCancelActive, hinactive]
  exact idle_checkCancelled hwired (confined_refused hrefused)

/-- A task is created only where some tool supports tasks. -/
theorem handleEnqueueTaskRequest_idle {platform : Platform}
    (hforbidden : engine.config.tasksActive = false ∨
      ∀ name tool, engine.toolMap.lookup name = some tool → tool.execute.taskSupport = .forbidden)
    (hwired : Wired engine before) (name : String) (task : Option Map) (swept now : DateTime) :
    Triple (fun handling => handling.server = before)
      (fun _ handling => Idle env engine before handling.server ∧ False)
      (fun _ handling => Idle env engine before handling.server)
      ((engine.withPlugins plugins).handleEnqueueTaskRequest env context platform name task swept
        now) := by
  unfold Engine.handleEnqueueTaskRequest
  refine idle_checkCancelled hwired ?_
  rcases hforbidden with hinactive | hforbidden
  · exact confined_refused (requireTasksActive_refuses hinactive "tools/call")
  · refine confined_bind (confined_settle fun _ _ => trivial) fun _ _ => ?_
    simp only [Engine.withPlugins_toolMap]
    cases htool : engine.toolMap.lookup name with
    | none => exact confined_throw _
    | some tool =>
      have hrefused : Engine.requireTaskSupport tool = .error (.methodNotFound "tools/call") := by
        simp [Engine.requireTaskSupport, hforbidden name tool htool]
      exact confined_refused hrefused

end Unadvertised

/-! ## What the capabilities say of the configuration -/

section Capabilities
variable {built : ServerEngine}

theorem isSome_prompts :
    built.buildServerCapabilities.prompts.isSome = built.config.promptsActive := by
  cases hprompts : built.config.prompts <;>
    simp [ServerEngine.buildServerCapabilities, ServerEngine.buildPromptsCapability,
      McpConfig.promptsActive, hprompts, Option.filter, apply_ite]

theorem isSome_resources :
    built.buildServerCapabilities.resources.isSome = built.config.resourcesActive := by
  cases hresources : built.config.resources <;>
    simp [ServerEngine.buildServerCapabilities, ServerEngine.buildResourcesCapability,
      McpConfig.resourcesActive, hresources, Option.filter, apply_ite]

theorem subscribe_resources :
    (built.buildServerCapabilities.resources.any fun resources => resources.subscribe = some true) =
      (built.config.resourcesActive && built.clientsCanSubscribe) := by
  cases hresources : built.config.resources with
  | none =>
    simp [ServerEngine.buildServerCapabilities, ServerEngine.buildResourcesCapability,
      McpConfig.resourcesActive, hresources]
  | some resources =>
    cases hactive : resources.isActive <;> cases hsubscribe : built.clientsCanSubscribe <;>
      simp [ServerEngine.buildServerCapabilities, ServerEngine.buildResourcesCapability,
        McpConfig.resourcesActive, hresources, Option.filter, hactive, hsubscribe]

theorem isSome_completions :
    built.buildServerCapabilities.completions.isSome = built.config.completionActive := by
  cases hactive : built.config.completionActive <;>
    simp [ServerEngine.buildServerCapabilities, ServerEngine.buildCompletionCapability, hactive]

theorem isSome_logging :
    built.buildServerCapabilities.logging.isSome = built.config.clientLogging := by
  cases hactive : built.config.clientLogging <;>
    simp [ServerEngine.buildServerCapabilities, ServerEngine.buildLoggingCapability, hactive]

theorem isSome_tasks :
    built.buildServerCapabilities.tasks.isSome = built.config.tasksActive := by
  cases htasks : built.config.tasks <;>
    simp [ServerEngine.buildServerCapabilities, ServerEngine.buildTasksCapability,
      McpConfig.tasksActive, htasks, Option.filter, apply_ite]

theorem list_tasks :
    (built.buildServerCapabilities.tasks.any fun tasks => tasks.list.isSome) =
      built.config.tasksListActive := by
  cases htasks : built.config.tasks with
  | none =>
    simp [ServerEngine.buildServerCapabilities, ServerEngine.buildTasksCapability,
      McpConfig.tasksListActive, htasks]
  | some tasks =>
    cases hactive : tasks.isActive <;> cases hlist : tasks.capabilities.list <;>
      simp [ServerEngine.buildServerCapabilities, ServerEngine.buildTasksCapability,
        McpConfig.tasksListActive, htasks, Option.filter, hactive, hlist]

theorem cancel_tasks :
    (built.buildServerCapabilities.tasks.any fun tasks => tasks.cancel.isSome) =
      built.config.tasksCancelActive := by
  cases htasks : built.config.tasks with
  | none =>
    simp [ServerEngine.buildServerCapabilities, ServerEngine.buildTasksCapability,
      McpConfig.tasksCancelActive, htasks]
  | some tasks =>
    cases hactive : tasks.isActive <;> cases hcancel : tasks.capabilities.cancel <;>
      simp [ServerEngine.buildServerCapabilities, ServerEngine.buildTasksCapability,
        McpConfig.tasksCancelActive, htasks, Option.filter, hactive, hcancel]

theorem requests_tasks :
    (built.buildServerCapabilities.tasks.any fun tasks => tasks.requests.isSome) =
      (built.config.tasksActive &&
        built.toolMap.values.any fun tool => tool.execute.taskSupport ≠ .forbidden) := by
  cases htasks : built.config.tasks with
  | none =>
    simp [ServerEngine.buildServerCapabilities, ServerEngine.buildTasksCapability,
      McpConfig.tasksActive, htasks]
  | some tasks =>
    cases hactive : tasks.isActive with
    | false =>
      simp [ServerEngine.buildServerCapabilities, ServerEngine.buildTasksCapability,
        McpConfig.tasksActive, htasks, Option.filter, hactive]
    | true =>
      cases hany : built.toolMap.values.any fun tool => tool.execute.taskSupport ≠ .forbidden <;>
        simpa [ServerEngine.buildServerCapabilities, ServerEngine.buildTasksCapability,
          McpConfig.tasksActive, htasks, Option.filter, hactive] using hany

/-- Without the capability for tasks on tool calls no tool supports them. -/
theorem forbidden_of_requests
    (h : (built.buildServerCapabilities.tasks.any fun tasks => tasks.requests.isSome) = false) :
    built.config.tasksActive = false ∨ ∀ name tool, built.toolMap.lookup name = some tool →
      tool.execute.taskSupport = .forbidden := by
  rw [requests_tasks, Bool.and_eq_false_iff] at h
  refine h.imp_right fun hnone name tool htool => ?_
  have hforbidden := List.any_eq_false.mp hnone tool (mem_values_of_lookup htool)
  simpa using hforbidden

end Capabilities

/-! ## Runs -/

section Runs
variable {W : Type} {features : Features} {rules : ToolRules} {engineConfig : EngineConfig}
  {built : ServerEngine} {env : ServerEnvironment W} {platform : Platform} {world : W}

theorem idle_map {A B : Type} {Inv : ServerState W → Prop} {Pre : Handling W → Prop} {Fine : A → Prop}
    {Fine' : B → Prop} {program : Handler W A} {f : A → B}
    (h : Triple Pre (fun a handling => Inv handling.server ∧ Fine a)
      (fun _ handling => Inv handling.server) program) (hf : ∀ a, Fine a → Fine' (f a)) :
    Triple Pre (fun b handling => Inv handling.server ∧ Fine' b)
      (fun _ handling => Inv handling.server) (f <$> program) :=
  SameFrom.map h fun a _ hmid => ⟨hmid.1, hf a hmid.2⟩

theorem handle_idle {env : Environment W} {before : ServerState W}
    (hwired : Wired built.toEngine before) (plugins : PluginRegistry) {request : Request}
    {context : RequestContext}
    (hcovers : built.buildServerCapabilities.coversRequest request = false) :
    Triple (fun handling => handling.server = before)
      (fun payload handling => Idle env built.toEngine before handling.server ∧ payload.Empty)
      (fun _ handling => Idle env built.toEngine before handling.server)
      ((built.toEngine.withPlugins plugins).handle platform env context request) := by
  cases request with
  | callTool name arguments => cases hcovers
  | enqueueTask name task swept now =>
    have hforbidden := forbidden_of_requests hcovers
    exact idle_map (handleEnqueueTaskRequest_idle hforbidden hwired name task swept now)
      fun _ h => h.elim
  | taskResult taskId swept =>
    have hinactive := isSome_tasks.symm.trans hcovers
    refine (handleGetTaskResultRequest_idle hinactive hwired taskId swept).mono (fun _ h => h) ?_
      fun _ _ h => h
    exact fun _ _ hnever => hnever.2.elim
  | getPrompt name arguments =>
    have hinactive := isSome_prompts.symm.trans hcovers
    exact idle_map (handleGetPromptRequest_idle hinactive hwired name arguments) fun _ h => h.elim
  | listPrompts cursor =>
    have hinactive := isSome_prompts.symm.trans hcovers
    exact idle_map (handleListPromptsRequest_idle hinactive hwired cursor) fun _ h => h
  | readResource uri =>
    have hinactive := isSome_resources.symm.trans hcovers
    exact idle_map (handleReadResourceRequest_idle hinactive hwired uri) fun _ h => h.elim
  | listResources cursor =>
    have hinactive := isSome_resources.symm.trans hcovers
    exact idle_map (handleListResourcesRequest_idle hinactive hwired cursor) fun _ h => h
  | complete request =>
    have hinactive := isSome_completions.symm.trans hcovers
    exact idle_map (handleCompleteRequest_idle hinactive hwired request) fun _ h => h.elim

/-- One step: a request that no capability stands for leaves the server idle, and gets an error,
an empty list or, for a level, an answer that says nothing. -/
theorem handleServerEvent_idle {before : ServerState W} (hwired : Wired built.toEngine before)
    (plugins : PluginRegistry) {event : ServerEvent}
    (hcovers : built.buildServerCapabilities.covers event = false) :
    Triple (fun handling => handling.server = before)
      (fun reply handling => Idle env.toEnvironment built.toEngine before handling.server ∧
        reply.Empty)
      (fun _ handling => Idle env.toEnvironment built.toEngine before handling.server)
      (built.handleServerEvent env platform plugins event) := by
  have hrefreshed : ∀ {A : Type} {Fine : A → Prop} {program : Handler W A},
      Confined (Idle env.toEnvironment built.toEngine before) Fine program program →
      Triple (fun handling => handling.server = before)
        (fun a handling => Idle env.toEnvironment built.toEngine before handling.server ∧ Fine a)
        (fun _ handling => Idle env.toEnvironment built.toEngine before handling.server) program := by
    intro A Fine program hconfined
    refine hconfined.mono (fun handling heq => ?_) (fun _ _ h => h) fun _ _ h => h
    subst heq
    exact ⟨hwired, rfl, rfl, .inl rfl⟩
  cases event with
  | event event =>
    cases event with
    | worker taskId name arguments context swept now => cases hcovers
    | woken taskId swept context => cases hcovers
    | request request context =>
      exact idle_map (idle_map (handle_idle hwired plugins hcovers) fun _ h => h) fun _ h => h
  | listTools cursor context => cases hcovers
  | listResourceTemplates cursor context =>
    have hinactive := isSome_resources.symm.trans hcovers
    exact idle_map (handleListResourceTemplatesRequest_idle hinactive hwired cursor) fun _ h => h
  | subscription action uri context =>
    have hunadvertised := subscribe_resources.symm.trans hcovers
    rw [Bool.and_eq_false_iff] at hunadvertised
    refine SameFrom.bind (handleSubscriptionRequest_idle hunadvertised hwired) fun _ => ?_
    exact .pure fun _ hnever => hnever.2.elim
  | listTasks cursor swept context =>
    have hinactive := list_tasks.symm.trans hcovers
    exact idle_map (handleListTasksRequest_idle hinactive hwired cursor swept) fun _ h => h.elim
  | taskInfo taskId swept context =>
    have hinactive := isSome_tasks.symm.trans hcovers
    exact idle_map (handleGetTaskInfoRequest_idle hinactive hwired taskId swept) fun _ h => h.elim
  | cancelTask taskId swept now context =>
    have hinactive := cancel_tasks.symm.trans hcovers
    exact idle_map (handleCancelTaskRequest_idle hinactive hwired taskId swept now)
      fun _ h => h.elim
  | setLevel level context =>
    have hinactive := isSome_logging.symm.trans hcovers
    exact idle_map (handleSetLevelRequest_idle hinactive hwired level) fun _ _ => trivial
  | refreshPrompts =>
    have hinactive := isSome_prompts.symm.trans hcovers
    unfold ServerEngine.handleServerEvent Engine.listPromptsForRefresh
    refine idle_map (idle_map (hrefreshed (refreshPromptCatalog_idle hinactive)) ?_) fun _ h => h
    intro catalog hempty
    have hprompts : catalog.prompts = [] := by simp [PromptCatalog.prompts, hempty]
    exact hprompts
  | refreshResources =>
    have hinactive := isSome_resources.symm.trans hcovers
    unfold ServerEngine.handleServerEvent Engine.listResourcesForRefresh
    refine idle_map (idle_map (hrefreshed (refreshResourceCatalog_idle hinactive)) ?_) fun _ h => h
    intro catalog hempty
    have hresources : catalog.resourcesPayload = [] := by
      simp [ResourceCatalog.resourcesPayload, hempty.1]
    exact hresources

theorem exists_lookup_of_mem_values {K V : Type} [DecidableEq K] {mapping : HashMap K V} {value : V}
    (h : value ∈ mapping.values) : ∃ key, mapping.lookup key = some value := by
  obtain ⟨entry, hentry, rfl⟩ := List.mem_map.mp h
  exact ⟨entry.1, AList.mem_lookup_iff.mpr hentry⟩

/-- It ends with a value. -/
abbrev Succeeds {A : Type} (Pre : Handling W → Prop) (program : Handler W A) : Prop :=
  Triple Pre (fun _ _ => True) (fun _ _ => False) program

theorem Succeeds.fails {A : Type} {Pre : Handling W → Prop} {program : Handler W A}
    {Fails : McpError → Handling W → Prop} (h : Succeeds Pre program) :
    Triple Pre (fun _ _ => True) Fails program :=
  h.mono (fun _ hpre => hpre) (fun _ _ hgiven => hgiven) fun _ _ hnever => hnever.elim

theorem succeeds_onTasks {A : Type} {Pre : Handling W → Prop} (operation : TaskStoreInner → Section A) :
    Succeeds Pre (Engine.onTasks operation : Handler W A) := by
  have hserver : Succeeds Pre (server : Handler W (ServerState W)) :=
    .act (fun _ _ => rfl) fun _ _ => .ok trivial
  refine SameFrom.bind hserver fun found => ?_
  have hupdate : Succeeds (fun _ => True) (update fun server : ServerState W =>
      { server with tasks := (operation found.tasks).inner }) :=
    .act (fun _ _ => rfl) fun _ _ => .ok trivial
  exact SameFrom.bind hupdate fun _ => .pure fun _ _ => trivial

theorem succeeds_checkCancelled {env : Environment W} {before : ServerState W}
    {context : RequestContext}
    (hcancelled : (env.outside.isCancelled context.ct before.world).1 = false) :
    Succeeds (fun handling => handling.server = before) (Engine.checkCancelled env context) := by
  unfold Engine.checkCancelled
  have hobserved : Triple (fun handling => handling.server = before)
      (fun cancelled _ => cancelled = false) (fun _ _ => False)
      (observe (env.outside.isCancelled context.ct)) := by
    refine .act (fun _ _ => rfl) fun handling heq => ?_
    subst heq
    exact .ok hcancelled
  refine SameFrom.bind hobserved fun cancelled => ?_
  split
  · rename_i htrue
    exact .throw fun _ hfalse => by simp [htrue] at hfalse
  · exact .pure fun _ _ => trivial

/-- A tool that supports tasks refuses a request for one at its time to live alone. -/
theorem enqueue_answers {env : Environment W} {before : ServerState W} {engine : Engine}
    {name : String} {tool : ToolConfig} {context : RequestContext}
    (hactive : engine.config.tasksActive = true) (htool : engine.toolMap.lookup name = some tool)
    (hsupport : tool.execute.taskSupport ≠ .forbidden)
    (hcancelled : (env.outside.isCancelled context.ct before.world).1 = false)
    (task : Option Map) (swept now : DateTime) :
    Triple (fun handling => handling.server = before)
      (fun _ _ => ∃ ttlMs, TaskRequests.parseTaskTtl task = .ok ttlMs)
      (fun error _ => TaskRequests.parseTaskTtl task = .error error)
      (engine.handleEnqueueTaskRequest env context platform name task swept now) := by
  unfold Engine.handleEnqueueTaskRequest
  refine SameFrom.bind (succeeds_checkCancelled hcancelled).fails fun _ => ?_
  have hrequired : engine.requireTasksActive "tools/call" = .ok () := by
    simp [Engine.requireTasksActive, hactive]
  have hallowed : Engine.requireTaskSupport tool = .ok () := by
    simp [Engine.requireTaskSupport, hsupport]
  rw [hrequired, htool]
  simp only
  rw [hallowed]
  have hsettled : Succeeds (fun _ => True) (settle (.ok ()) : Handler W Unit) :=
    .lift (fun _ _ _ _ => trivial) fun _ hnever => by cases hnever
  refine SameFrom.bind hsettled.fails fun _ => SameFrom.bind hsettled.fails fun _ => ?_
  refine SameFrom.lift_bind (fun ttlMs hparsed => ?_) fun _ hrefused _ _ => hrefused
  have hserver : Succeeds (fun _ => True) (server : Handler W (ServerState W)) :=
    .act (fun _ _ => rfl) fun _ _ => .ok trivial
  refine SameFrom.bind hserver.fails fun found => ?_
  have hissued : Succeeds (fun _ => True)
      (update fun server : ServerState W => { server with issued := found.issued + 1 }) :=
    .act (fun _ _ => rfl) fun _ _ => .ok trivial
  refine SameFrom.bind hissued.fails fun _ => ?_
  exact SameFrom.bind (succeeds_onTasks _).fails fun _ => .pure fun _ _ => ⟨ttlMs, hparsed⟩

/-- The reply to a request for a task is what the handler gave. -/
theorem step_enqueueTask {before : ServerState W} {plugins : PluginRegistry}
    {context : RequestContext} {name : String} {task : Option Map} {swept now : DateTime}
    {given : Except McpError Task}
    (h : (exec ((built.toEngine.withPlugins plugins).handleEnqueueTaskRequest env.toEnvironment
      context platform name task swept now) ⟨before, []⟩).1 = given) :
    ∃ after, (built.machine env platform world).Step before
      ((plugins, .event (.request (.enqueueTask name task swept now) context)),
        given.map fun created => .handled (some (.taskCreated created))) after := by
  have hreply : (exec (built.handleServerEvent env platform plugins
      (.event (.request (.enqueueTask name task swept now) context))) ⟨before, []⟩).1 =
        given.map fun created => .handled (some (.taskCreated created)) := by
    unfold ServerEngine.handleServerEvent
    rw [exec_map, Engine.handleEvent, exec_map, Engine.handle, exec_map, h]
    cases given with
    | error error => rfl
    | ok created => rfl
  exact ⟨_, congrArg some (Prod.ext rfl hreply)⟩

/-- A request that nothing stands for, as a step of the server. -/
theorem step_uncovered {before after : ServerState W} {plugins : PluginRegistry}
    {event : ServerEvent} {reply : Except McpError Reply} (hwired : Wired built.toEngine before)
    (hstep : (built.machine env platform world).Step before ((plugins, event), reply) after)
    (hcovers : built.buildServerCapabilities.covers event = false) :
    (∀ given, reply = .ok given → given.Empty) ∧
      Idle env.toEnvironment built.toEngine before after := by
  have hidles : Triple (fun handling => handling.server = before)
      (fun reply handling => Idle env.toEnvironment built.toEngine before handling.server ∧
        reply.Empty)
      (fun _ handling => Idle env.toEnvironment built.toEngine before handling.server)
      (built.handleServerEvent env platform plugins event) :=
    handleServerEvent_idle hwired plugins hcovers
  obtain ⟨-, hends⟩ := hidles ⟨before, []⟩ rfl
  obtain ⟨hafter, hreply⟩ := Prod.mk.inj (Option.some.inj hstep)
  subst hafter
  cases reply with
  | error error =>
    refine ⟨fun _ hnever => ?_, hends.error error hreply⟩
    cases hnever
  | ok given =>
    obtain ⟨hidle, hempty⟩ := hends.value given hreply
    refine ⟨fun other heq => ?_, hidle⟩
    cases heq
    exact hempty

/-- A request for a task of such a tool, as a step of the server. -/
theorem step_answers {before : ServerState W} {name : String} {tool : ToolConfig}
    {context : RequestContext} (hactive : built.config.tasksActive = true)
    (htool : built.toolMap.lookup name = some tool)
    (hsupport : tool.execute.taskSupport ≠ .forbidden)
    (hcancelled : (env.outside.isCancelled context.ct before.world).1 = false)
    (plugins : PluginRegistry) (task : Option Map) (swept now : DateTime) :
    ∃ reply after, (built.machine env platform world).Step before
      ((plugins, .event (.request (.enqueueTask name task swept now) context)), reply) after ∧
      (∀ ttlMs, TaskRequests.parseTaskTtl task = .ok ttlMs →
        ∃ created, reply = .ok (.handled (some (.taskCreated created)))) ∧
      ∀ error, TaskRequests.parseTaskTtl task = .error error → reply = .error error := by
  have hanswers : Triple (fun handling => handling.server = before)
      (fun _ _ => ∃ ttlMs, TaskRequests.parseTaskTtl task = .ok ttlMs)
      (fun error _ => TaskRequests.parseTaskTtl task = .error error)
      ((built.toEngine.withPlugins plugins).handleEnqueueTaskRequest env.toEnvironment context
        platform name task swept now) :=
    enqueue_answers hactive htool hsupport hcancelled task swept now
  obtain ⟨-, hends⟩ := hanswers ⟨before, []⟩ rfl
  cases hresult : (exec ((built.toEngine.withPlugins plugins).handleEnqueueTaskRequest
      env.toEnvironment context platform name task swept now) ⟨before, []⟩).1 with
  | error error =>
    have hrefused := hends.error error hresult
    obtain ⟨after, hstep⟩ := step_enqueueTask hresult
    refine ⟨_, after, hstep, fun ttlMs hparsed => ?_, fun other hother => ?_⟩
    · rw [hrefused] at hparsed
      cases hparsed
    · rw [hrefused] at hother
      cases hother
      rfl
  | ok created =>
    obtain ⟨ttlMs, hparsed⟩ := hends.value created hresult
    obtain ⟨after, hstep⟩ := step_enqueueTask hresult
    refine ⟨_, after, hstep, fun _ _ => ⟨created, rfl⟩, fun other hother => ?_⟩
    rw [hparsed] at hother
    cases hother

end Runs

end RustMcpCore.Dispatch
