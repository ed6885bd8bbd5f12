import RustMcpCore.Engine.ServerRuns

/-! # Structured results

A tool with an output schema says what its structured results look like. They are checked
where the tool is executed; from there on a result goes to the client or into the task store,
which keeps it until it is asked for.
-/
namespace RustMcpCore.Dispatch
open Library Outbound Fallible

/-! ## Executions -/

/-- Structured content is as the tool says, and there is content for who reads no structure. -/
structure Conforms (schemas : JsonSchema) (toolCfg : ToolConfig) (result : CallToolResult) : Prop where
  valid : ∀ structured schema, result.structuredContent = some structured →
    toolCfg.outputSchema = some schema → validateStructuredOutput schemas structured schema = .ok ()
  content : ∀ structured, result.structuredContent = some structured → result.content ≠ []

section Results
variable {crates : Crates} {config : McpConfig} {toolCfg : ToolConfig} {result : CallToolResult}

theorem conforms_of_unstructured (h : result.structuredContent = none) :
    Conforms crates.schemas toolCfg result where
  valid := fun structured schema hstructured => by
    rw [h] at hstructured
    cases hstructured
  content := fun structured hstructured => by
    rw [h] at hstructured
    cases hstructured

theorem buildStructuredResult_conforms {structured : Value} {fallback : Option String}
    (h : buildStructuredResult crates.json crates.schemas structured toolCfg.outputSchema fallback =
      .ok result) : Conforms crates.schemas toolCfg result := by
  unfold buildStructuredResult at h
  cases hschema : toolCfg.outputSchema with
  | none =>
    rw [hschema] at h
    cases h
    refine ⟨fun _ schema _ heq => ?_, fun _ _ => List.cons_ne_nil _ _⟩
    rw [hschema] at heq
    cases heq
  | some schema =>
    rw [hschema] at h
    obtain ⟨_, hvalid, h⟩ := bind_eq_ok h
    cases h
    refine ⟨fun found schema' hfound heq => ?_, fun _ _ => List.cons_ne_nil _ _⟩
    rw [hschema] at heq
    cases heq
    cases hfound
    exact hvalid

theorem buildHttpToolResult_conforms {args response : Value}
    (h : buildHttpToolResult crates toolCfg args response = .ok result) :
    Conforms crates.schemas toolCfg result := by
  unfold buildHttpToolResult at h
  dsimp only at h
  split at h
  · obtain ⟨content, -, rfl⟩ := except_map_eq_ok h
    exact conforms_of_unstructured rfl
  · split at h
    · obtain ⟨structured, -, h⟩ := bind_eq_ok h
      exact buildStructuredResult_conforms h
    · exact buildStructuredResult_conforms h
  · exact buildStructuredResult_conforms h

/-- The schema is checked even for a result that says it is an error. -/
theorem checkPluginResult_conforms (given : CallToolResult) :
    Conforms crates.schemas toolCfg (checkPluginResult crates config toolCfg given) := by
  unfold checkPluginResult
  cases hstructured : given.structuredContent with
  | none => exact conforms_of_unstructured hstructured
  | some structured =>
    dsimp only
    split
    · exact conforms_of_unstructured rfl
    · rename_i hchecked
      have hvalid : ∀ found schema, given.structuredContent = some found →
          toolCfg.outputSchema = some schema →
          validateStructuredOutput crates.schemas found schema = .ok () := by
        intro found schema hfound hschema
        rw [hstructured] at hfound
        cases hfound
        rw [hschema] at hchecked
        exact hchecked
      split
      · refine ⟨fun found schema hfound => hvalid found schema ?_, fun _ _ => List.cons_ne_nil _ _⟩
        exact hstructured.trans hfound
      · rename_i hcontent
        refine ⟨hvalid, fun _ _ hnil => hcontent ?_⟩
        rw [hnil]
        rfl

theorem finishPluginCall_conforms {outcome : ToolOutcome}
    (h : finishPluginCall crates config toolCfg outcome = .returned (.ok result)) :
    Conforms crates.schemas toolCfg result := by
  cases outcome with
  | panicked message => cases h
  | returned given =>
    cases given with
    | error error =>
      cases h
      exact conforms_of_unstructured rfl
    | ok given =>
      cases h
      exact checkPluginResult_conforms given

end Results

section Executions
variable {crates : Crates} {engine : Engine} {W : Type} {outside : EngineOutside W}
  {toolCfg : ToolConfig} {args : Value} {request : Option RequestContext} {traffic : Traffic W}
  {result : CallToolResult}

theorem executePluginTool_conforms
    (h : (engine.executePluginTool crates outside toolCfg args request traffic).1 =
      .returned (.ok result)) : Conforms crates.schemas toolCfg result := by
  unfold Engine.executePluginTool at h
  cases hplugin : toolCfg.execute.asPlugin with
  | none =>
    rw [hplugin] at h
    cases h
  | some pluginExecute =>
    rw [hplugin] at h
    dsimp only at h
    split at h
    · cases h
    · cases hlookup : engine.lookupToolPlugin pluginExecute.plugin with
      | error error =>
        rw [hlookup] at h
        cases h
      | ok plugin =>
        rw [hlookup] at h
        dsimp only at h
        split at h
        · split at h
          · cases h
            exact conforms_of_unstructured rfl
          · exact finishPluginCall_conforms h
        · exact finishPluginCall_conforms h

theorem toolResultOfHttpError_unstructured (error : HttpExecutionError) :
    (engine.toolResultOfHttpError error).structuredContent = none := by
  cases error with
  | cancelled => rfl
  | _ => rfl

theorem executeHttpTool_conforms
    (h : (engine.executeHttpTool crates outside toolCfg args request traffic).1 = .ok result) :
    Conforms crates.schemas toolCfg result := by
  unfold Engine.executeHttpTool at h
  split at h
  · cases h
  · split at h
    · cases h
    · split at h
      · cases h
        exact conforms_of_unstructured rfl
      · dsimp only at h
        split at h
        · cases h
          exact conforms_of_unstructured (toolResultOfHttpError_unstructured _)
        · exact buildHttpToolResult_conforms h

theorem executeToolConfig_conforms
    (h : engine.catchUnwind (engine.executeToolConfig crates outside toolCfg args request
      traffic).1 = .ok result) : Conforms crates.schemas toolCfg result := by
  cases houtcome : (engine.executeToolConfig crates outside toolCfg args request traffic).1 with
  | panicked message =>
    rw [houtcome] at h
    cases h
    exact conforms_of_unstructured rfl
  | returned given =>
    rw [houtcome] at h
    have hgiven : given = .ok result := h
    subst hgiven
    unfold Engine.executeToolConfig at houtcome
    split at houtcome
    · exact executeHttpTool_conforms (Unwound.returned.inj houtcome)
    · exact executePluginTool_conforms houtcome

/-- The tool of the name, and a result as it says. -/
def Promised (crates : Crates) (engine : Engine) (name : String) (result : CallToolResult) : Prop :=
  ∃ toolCfg, engine.toolMap.lookup name = some toolCfg ∧ Conforms crates.schemas toolCfg result

theorem executeToolWithContext_promised {name : String}
    (h : (engine.executeToolWithContext crates outside name args request traffic).1 = .ok result) :
    Promised crates engine name result := by
  unfold Engine.executeToolWithContext at h
  cases htool : engine.toolMap.lookup name with
  | none =>
    rw [htool] at h
    cases h
  | some toolCfg =>
    rw [htool] at h
    obtain ⟨given, hgiven, h⟩ := bind_eq_ok (mapError_eq_ok.mp h)
    obtain ⟨_, -, h⟩ := bind_eq_ok h
    cases h
    exact ⟨toolCfg, htool, executeToolConfig_conforms hgiven⟩

end Executions

/-! ## The task store -/

/-- The results in the store, each with the id of its task. -/
def Stored (P : String → CallToolResult → Prop) (inner : TaskStoreInner) : Prop :=
  ∀ taskId entry result, inner.entries.lookup taskId = some entry →
    entry.terminalResult = some (.ok result) → P taskId result

section Store
variable {P : String → CallToolResult → Prop} {inner : TaskStoreInner}

theorem stored_cleanup (h : Stored P inner) (swept : DateTime) :
    Stored P (inner.cleanupExpired swept) :=
  fun taskId entry result hentry =>
    h taskId entry result (TaskStoreInner.lookup_cleanupExpired.mp hentry).1

theorem stored_replace (h : Stored P inner) {taskId : String} {entry : TaskEntry}
    (hentry : ∀ result, entry.terminalResult = some (.ok result) → P taskId result) :
    Stored P ⟨inner.entries.replace taskId entry⟩ := by
  intro other found result hfound hresult
  have hfound : (inner.entries.replace taskId entry).lookup other = some found := hfound
  rw [HashMap.lookup_replace] at hfound
  split at hfound
  · rename_i hother
    subst hother
    obtain ⟨_, -, rfl⟩ := Option.map_eq_some_iff.mp hfound
    exact hentry result hresult
  · exact h other found result hfound hresult

theorem stored_create (h : Stored P inner) {platform : Platform} {issued : ℕ} {peer : Peer}
    {peerKey : String} {ttlMs : Option UInt64} {swept now : DateTime} :
    Stored P (TaskStore.create platform issued inner peer peerKey ttlMs swept now).inner := by
  intro taskId entry result hentry hresult
  have hentry : ((inner.cleanupExpired swept).entries.insert (platform.newV4 issued) _).lookup
    taskId = some entry := hentry
  by_cases hid : taskId = platform.newV4 issued
  · subst hid
    rw [AList.lookup_insert] at hentry
    cases hentry
    cases hresult
  · rw [AList.lookup_insert_ne hid] at hentry
    exact stored_cleanup h swept taskId entry result hentry hresult

theorem stored_finish (h : Stored P inner) {platform : Platform} {taskId : String}
    {given : TerminalResult} {swept now : DateTime} (hgiven : ∀ result, given = .ok result → P taskId result) :
    Stored P (TaskStore.finish platform inner taskId given swept now).inner := by
  rcases TaskStore.finish_cases platform inner taskId given swept now with
    ⟨-, hinner, -⟩ | ⟨entry, -, -, -, hinner, -⟩
  · rw [hinner]
    exact stored_cleanup h swept
  · rw [hinner]
    exact stored_replace (stored_cleanup h swept) fun result heq => hgiven result (Option.some.inj heq)

theorem stored_cancel (h : Stored P inner) {platform : Platform} {taskId peerKey : String}
    {swept now : DateTime} (hcancelled : P taskId cancelledToolResult) :
    Stored P (TaskStore.cancel platform inner taskId peerKey swept now).inner := by
  rcases TaskStore.cancel_cases platform inner taskId peerKey swept now with
    ⟨error, -, hinner, -⟩ | ⟨entry, -, -, -, -, hinner, -⟩
  · rw [hinner]
    exact stored_cleanup h swept
  · rw [hinner]
    refine stored_replace (stored_cleanup h swept) fun result heq => ?_
    cases heq
    exact hcancelled

end Store

/-! ## Handlers -/

abbrev tasksOf {W : Type} (handling : Handling W) : TaskStoreInner := handling.server.tasks

section Frames
variable {W A : Type} {engine : Engine} {env : Environment W}

theorem leaves_ask (effect : W → Except McpError A × W) : Leaves tasksOf (ask effect) :=
  .act fun _ => rfl

theorem leaves_check (result : Except McpError A) : Leaves tasksOf (check result : Handler W A) :=
  .act fun _ => rfl

theorem leaves_observe (effect : W → A × W) : Leaves tasksOf (observe effect) := .act fun _ => rfl

theorem leaves_settle (result : Except McpError A) : Leaves tasksOf (settle result : Handler W A) :=
  .lift result

theorem leaves_server : Leaves tasksOf (server : Handler W (ServerState W)) := .act fun _ => rfl

theorem checkCancelled_leaves (context : RequestContext) :
    Leaves tasksOf (Engine.checkCancelled env context) := by
  refine (leaves_observe _).bind fun cancelled => ?_
  cases cancelled with
  | false => exact .pure ()
  | true => exact .throw cancelledError

theorem promptsOfProvider_leaves (provider : PromptProviderConfig) :
    Leaves tasksOf (engine.promptsOfProvider env provider) := by
  cases provider with
  | inline items => exact leaves_settle _
  | plugin plugin config =>
    refine (leaves_settle _).bind fun found => ?_
    exact (leaves_ask _).bind fun entries => leaves_settle _

theorem refreshPromptCatalog_leaves : Leaves tasksOf (engine.refreshPromptCatalog env) := by
  have hbuild : Leaves tasksOf (engine.buildPromptCatalog env) := by
    unfold Engine.buildPromptCatalog
    cases engine.config.prompts.filter PromptsConfig.isActive with
    | none => exact .pure _
    | some promptsConfig =>
      exact (Leaves.mapM fun provider => promptsOfProvider_leaves provider).bind fun _ => .pure _
  exact hbuild.bind fun catalog => Leaves.bind (.act fun _ => rfl) fun _ => .pure catalog

theorem promptCatalog_leaves : Leaves tasksOf (engine.promptCatalog env) := by
  refine leaves_server.bind fun server => ?_
  cases server.promptCatalog with
  | some existing => exact .pure existing
  | none => exact refreshPromptCatalog_leaves

theorem resourcesOfProvider_leaves (provider : ResourceProviderConfig) :
    Leaves tasksOf (engine.resourcesOfProvider env provider) := by
  cases provider with
  | inline items templates => exact leaves_settle _
  | plugin plugin config templates =>
    refine (leaves_settle _).bind fun found => ?_
    exact (leaves_ask _).bind fun entries => leaves_settle _

theorem refreshResourceCatalog_leaves : Leaves tasksOf (engine.refreshResourceCatalog env) := by
  have hresources : Leaves tasksOf (engine.buildResources env) := by
    unfold Engine.buildResources
    cases engine.config.resources.filter ResourcesConfig.isActive with
    | none => exact .pure _
    | some resourcesConfig =>
      exact (Leaves.mapM fun provider => resourcesOfProvider_leaves provider).bind fun _ => .pure _
  have hbuild : Leaves tasksOf (engine.buildResourceCatalog env) :=
    hresources.bind fun resources => (leaves_settle _).bind fun templates => .pure _
  exact hbuild.bind fun catalog => Leaves.bind (.act fun _ => rfl) fun _ => .pure catalog

theorem resourceCatalog_leaves : Leaves tasksOf (engine.resourceCatalog env) := by
  refine leaves_server.bind fun server => ?_
  cases server.resourceCatalog with
  | some existing => exact .pure existing
  | none => exact refreshResourceCatalog_leaves

theorem handleGetPromptRequest_leaves (context : RequestContext) (promptName : String)
    (arguments : Option Map) :
    Leaves tasksOf (engine.handleGetPromptRequest env context promptName arguments) := by
  refine (checkCancelled_leaves context).bind fun _ => promptCatalog_leaves.bind fun catalog => ?_
  cases catalog.lookup promptName with
  | none => exact .throw _
  | some selected =>
    refine (leaves_settle _).bind fun _ => ?_
    cases selected.source with
    | inline messages => exact (leaves_settle _).bind fun rendered => .pure _
    | plugin pluginName config => exact (leaves_settle _).bind fun plugin => leaves_ask _

theorem resolveResourceMatch_leaves (uri : String) :
    Leaves tasksOf (engine.resolveResourceMatch env uri) := by
  refine resourceCatalog_leaves.bind fun catalog => ?_
  cases catalog.resourceByUri uri with
  | some selected => exact .pure _
  | none =>
    cases matchTemplates uri catalog.templates with
    | none => exact .throw _
    | some found => exact (leaves_settle _).bind fun _ => .pure _

theorem handleReadResourceRequest_leaves (context : RequestContext) (uri : String) :
    Leaves tasksOf (engine.handleReadResourceRequest env context uri) := by
  refine (checkCancelled_leaves context).bind fun _ => (resolveResourceMatch_leaves uri).bind fun found => ?_
  cases found with
  | inlineResource mimeType content => exact leaves_settle _
  | inlineTemplate => exact .throw _
  | plugin pluginName config => exact (leaves_settle _).bind fun plugin => leaves_ask _

theorem completeFromSource_leaves (context : RequestContext) (sourceName : String)
    (request : CompleteRequestParams) :
    Leaves tasksOf (engine.completeFromSource env context sourceName request) := by
  unfold Engine.completeFromSource
  split
  · exact .throw _
  · exact (leaves_settle _).bind fun found => leaves_check _
  · refine (leaves_settle _).bind fun plugin => ?_
    exact (leaves_ask _).bind fun completion => leaves_check _

theorem completeArgument_leaves (context : RequestContext) (schema : Value)
    (completions : Option (HashMap String String)) (owner : String) (request : CompleteRequestParams) :
    Leaves tasksOf (engine.completeArgument env context schema completions owner request) := by
  refine (leaves_settle _).bind fun _ => ?_
  cases completions.bind (·.lookup request.argumentName) with
  | none => exact leaves_check _
  | some sourceName => exact completeFromSource_leaves context sourceName request

theorem completeRequest_leaves (context : RequestContext) (request : CompleteRequestParams) :
    Leaves tasksOf (engine.completeRequest env context request) := by
  unfold Engine.completeRequest
  split
  · refine promptCatalog_leaves.bind fun catalog => ?_
    split
    · exact .throw _
    · exact completeArgument_leaves context _ _ _ request
  · refine resourceCatalog_leaves.bind fun catalog => ?_
    split
    · exact .throw _
    · exact completeArgument_leaves context _ _ _ request

theorem handleCompleteRequest_leaves (context : RequestContext) (request : CompleteRequestParams) :
    Leaves tasksOf (engine.handleCompleteRequest env context request) := by
  refine (checkCancelled_leaves context).bind fun _ => ?_
  split
  · exact completeRequest_leaves context request
  · exact .throw _

theorem executeTool_leaves (name : String) (args : Value) (request : Option RequestContext) :
    Leaves tasksOf (engine.executeTool env name args request) := leaves_observe _

end Frames

section Safe
variable {P : String → CallToolResult → Prop}

/-- A program that puts only such results into the store. -/
abbrev StoresOnly {W A : Type} (P : String → CallToolResult → Prop) (program : Handler W A) : Prop :=
  Triple (fun handling => Stored P (tasksOf handling)) (fun _ handling => Stored P (tasksOf handling))
    (fun _ handling => Stored P (tasksOf handling)) program

/-- It does so in a server that has only such results. -/
theorem StoresOnly.at {W A : Type} {program : Handler W A} {before : ServerState W}
    (h : StoresOnly P program) (hstored : Stored P before.tasks) :
    Triple (fun handling => handling.server = before) (fun _ handling => Stored P (tasksOf handling))
      (fun _ handling => Stored P (tasksOf handling)) program := by
  refine h.mono (fun handling heq => ?_) (fun _ _ h => h) fun _ _ h => h
  subst heq
  exact hstored

variable {W A : Type} {engine : Engine} {env : Environment W} {platform : Platform}

theorem onTasks_stores {operation : TaskStoreInner → Section A}
    (h : ∀ inner, Stored P inner → Stored P (operation inner).inner) :
    StoresOnly P (Engine.onTasks operation : Handler W A) := by
  intro handling hstored
  have hleft := h handling.server.tasks hstored
  exact ⟨rfl, .ok hleft⟩

theorem handleEnqueueTaskRequest_stores (context : RequestContext) (name : String)
    (task : Option Map) (swept now : DateTime) :
    StoresOnly P (engine.handleEnqueueTaskRequest env context platform name task swept
      now) := by
  refine SameFrom.bind (checkCancelled_leaves context).triple fun _ => ?_
  refine SameFrom.bind (leaves_settle _).triple fun _ => ?_
  split
  · exact (Leaves.throw _).triple
  · refine SameFrom.bind (leaves_settle _).triple fun _ => ?_
    refine SameFrom.bind (leaves_settle _).triple fun ttlMs => ?_
    refine SameFrom.bind leaves_server.triple fun server => ?_
    refine SameFrom.bind (Leaves.act fun _ => rfl).triple fun _ => ?_
    refine SameFrom.bind (onTasks_stores fun inner h => stored_create h) fun created => ?_
    exact (Leaves.pure _).triple

theorem awaitTaskResult_stores (context : RequestContext) (taskId : String) (swept : DateTime) :
    StoresOnly P (Engine.awaitTaskResult env context taskId swept) := by
  refine SameFrom.bind (onTasks_stores fun inner h => stored_cleanup h swept) fun found => ?_
  rcases found with ((_ | _) | (error | callResult)) | waiting
  · exact (Leaves.throw _).triple
  · exact (Leaves.throw _).triple
  · exact ((leaves_check _).bind fun value => .pure _).triple
  · exact (Leaves.pure _).triple

theorem handleGetTaskResultRequest_stores (context : RequestContext) (taskId : String)
    (swept : DateTime) :
    StoresOnly P (engine.handleGetTaskResultRequest env context taskId swept) := by
  refine SameFrom.bind (checkCancelled_leaves context).triple fun _ => ?_
  refine SameFrom.bind (leaves_settle _).triple fun _ => ?_
  exact awaitTaskResult_stores context taskId swept

/-- The tool, executed in this world, gives this result. -/
def Executes (env : Environment W) (engine : Engine) (world : W) (name : String)
    (arguments : Option Map) (context : RequestContext) (result : CallToolResult) : Prop :=
  (engine.executeToolWithContext env.crates env.outside name (.object (arguments.getD []))
    (some context) ⟨world, []⟩).1 = .ok result

theorem runTask_stores {before : ServerState W} {context : RequestContext} {taskId name : String}
    {arguments : Option Map} {swept now : DateTime}
    (h : ∀ result, Executes env engine before.world name arguments context result → P taskId result)
    (hstored : Stored P before.tasks) :
    Triple (fun handling => handling.server = before) (fun _ handling => Stored P (tasksOf handling))
      (fun _ handling => Stored P (tasksOf handling))
      (engine.runTask env context platform taskId name arguments swept now) := by
  have hexecute : Triple (fun handling => handling.server = before)
      (fun given handling => Stored P (tasksOf handling) ∧ ∀ result, given = .ok result → P taskId result)
      (fun _ handling => Stored P (tasksOf handling))
      (engine.executeTool env name (.object (arguments.getD [])) (some context)) := by
    intro handling heq
    subst heq
    exact ⟨rfl, .ok ⟨hstored, fun result hresult => h result hresult⟩⟩
  refine SameFrom.bind hexecute fun given => ?_
  intro handling hgiven
  have hfinish : StoresOnly P
      (Engine.onTasks fun inner => TaskStore.finish platform inner taskId given swept now :
        Handler W (Option (Task × Peer))) :=
    onTasks_stores fun inner hinner => stored_finish hinner hgiven.2
  exact SameFrom.bind hfinish (fun _ => (Leaves.pure ()).triple) handling hgiven.1

theorem handleCancelTaskRequest_stores {env : ServerEnvironment W} (context : RequestContext) (taskId : String)
    (swept now : DateTime) (h : P taskId cancelledToolResult) :
    StoresOnly P (engine.handleCancelTaskRequest env context platform taskId swept now) := by
  refine SameFrom.bind (checkCancelled_leaves context).triple fun _ => ?_
  refine SameFrom.bind (leaves_settle _).triple fun _ => ?_
  refine SameFrom.bind (onTasks_stores fun inner hinner => stored_cancel hinner h) fun cancelled => ?_
  refine SameFrom.bind (leaves_settle _).triple fun told => ?_
  refine SameFrom.bind (leaves_observe _).triple fun sender => ?_
  exact ((leaves_check _).bind fun _ => .pure _).triple

end Safe

/-! ## Runs -/

section Runs
variable {W : Type} {built : ServerEngine} {env : ServerEnvironment W} {platform : Platform} {world : W}

/-- The execution of a task may store what its tool gives. -/
theorem handleEvent_stores {P : String → CallToolResult → Prop} {engine : Engine}
    {before : ServerState W} (event : Event)
    (h : ∀ taskId name arguments context swept now,
      event = .worker taskId name arguments context swept now →
      ∀ result, Executes env.toEnvironment engine before.world name arguments context result →
        P taskId result)
    (hstored : Stored P before.tasks) :
    Triple (fun handling => handling.server = before) (fun _ handling => Stored P (tasksOf handling))
      (fun _ handling => Stored P (tasksOf handling))
      (engine.handleEvent platform env.toEnvironment event) := by
  cases event with
  | worker taskId name arguments context swept now =>
    refine SameFrom.bind (runTask_stores ?_ hstored) fun _ => (Leaves.pure _).triple
    exact h taskId name arguments context swept now rfl
  | woken taskId swept context =>
    refine StoresOnly.at (SameFrom.map ?_ fun _ _ hkept => hkept) hstored
    exact awaitTaskResult_stores context taskId swept
  | request request context =>
    refine StoresOnly.at (SameFrom.map ?_ fun _ _ hstored => hstored) hstored
    cases request with
    | callTool name arguments =>
      exact ((executeTool_leaves name _ _).bind fun result => leaves_settle result).map.triple
    | enqueueTask name task swept now =>
      exact SameFrom.map (handleEnqueueTaskRequest_stores context name task swept now) fun _ _ h => h
    | taskResult taskId swept => exact handleGetTaskResultRequest_stores context taskId swept
    | getPrompt name arguments => exact (handleGetPromptRequest_leaves context name arguments).map.triple
    | listPrompts cursor =>
      refine Leaves.triple (Leaves.map ?_)
      refine (checkCancelled_leaves context).bind fun _ => promptCatalog_leaves.bind fun catalog => ?_
      exact (leaves_settle _).bind fun page => .pure _
    | readResource uri => exact (handleReadResourceRequest_leaves context uri).map.triple
    | listResources cursor =>
      refine Leaves.triple (Leaves.map ?_)
      refine (checkCancelled_leaves context).bind fun _ => resourceCatalog_leaves.bind fun catalog => ?_
      exact (leaves_settle _).bind fun page => .pure _
    | complete request => exact (handleCompleteRequest_leaves context request).map.triple

/-- Only the execution of a task and its cancellation put a result into the store. -/
theorem handleServerEvent_stores {P : String → CallToolResult → Prop} {before : ServerState W}
    (plugins : PluginRegistry) (event : ServerEvent)
    (hworker : ∀ taskId name arguments context swept now,
      event = .event (.worker taskId name arguments context swept now) →
      ∀ result, Executes env.toEnvironment (built.withPlugins plugins) before.world name arguments
        context result → P taskId result)
    (hcancelled : ∀ taskId, P taskId cancelledToolResult) (hstored : Stored P before.tasks) :
    Triple (fun handling => handling.server = before) (fun _ handling => Stored P (tasksOf handling))
      (fun _ handling => Stored P (tasksOf handling))
      (built.handleServerEvent env platform plugins event) := by
  cases event with
  | event event =>
    refine SameFrom.map (handleEvent_stores event ?_ hstored) fun _ _ h => h
    intro taskId name arguments context swept now hevent
    exact hworker taskId name arguments context swept now (congrArg ServerEvent.event hevent)
  | listTools cursor context =>
    refine StoresOnly.at (Leaves.triple (Leaves.map ?_)) hstored
    exact (checkCancelled_leaves context).bind fun _ => (leaves_settle _).bind fun page => .pure _
  | listResourceTemplates cursor context =>
    refine StoresOnly.at (Leaves.triple (Leaves.map ?_)) hstored
    refine (checkCancelled_leaves context).bind fun _ => resourceCatalog_leaves.bind fun catalog => ?_
    exact (leaves_settle _).bind fun page => .pure _
  | subscription action uri context =>
    refine StoresOnly.at (Leaves.triple (Leaves.bind ?_ fun _ => .pure _)) hstored
    refine (checkCancelled_leaves context).bind fun _ => ?_
    split
    · refine (resolveResourceMatch_leaves uri).bind fun found => ?_
      cases found with
      | plugin pluginName config => exact (leaves_settle _).bind fun plugin => leaves_ask _
      | inlineResource mimeType content => exact .pure ()
      | inlineTemplate => exact .pure ()
    · exact .throw _
  | listTasks cursor swept context =>
    refine StoresOnly.at (SameFrom.map ?_ fun _ _ h => h) hstored
    refine SameFrom.bind (checkCancelled_leaves context).triple fun _ => ?_
    refine SameFrom.bind (leaves_settle _).triple fun _ => ?_
    refine SameFrom.bind (onTasks_stores fun inner h => stored_cleanup h swept) fun tasks => ?_
    exact ((leaves_settle _).bind fun page => .pure _).triple
  | taskInfo taskId swept context =>
    refine StoresOnly.at (SameFrom.map ?_ fun _ _ h => h) hstored
    refine SameFrom.bind (checkCancelled_leaves context).triple fun _ => ?_
    refine SameFrom.bind (leaves_settle _).triple fun _ => ?_
    refine SameFrom.bind (onTasks_stores fun inner h => stored_cleanup h swept) fun found => ?_
    cases found with
    | none => exact (Leaves.throw _).triple
    | some task => exact (Leaves.pure _).triple
  | cancelTask taskId swept now context =>
    refine StoresOnly.at (SameFrom.map ?_ fun _ _ h => h) hstored
    exact handleCancelTaskRequest_stores context taskId swept now (hcancelled taskId)
  | setLevel level context =>
    refine StoresOnly.at (Leaves.triple (Leaves.map ?_)) hstored
    refine (checkCancelled_leaves context).bind fun _ => ?_
    split
    · exact leaves_observe _
    · exact .pure _
  | refreshPrompts => exact StoresOnly.at refreshPromptCatalog_leaves.map.map.triple hstored
  | refreshResources => exact StoresOnly.at refreshResourceCatalog_leaves.map.map.triple hstored

/-- An event with its plugins, and the reply to it. -/
abbrev Served := (PluginRegistry × ServerEvent) × Except McpError Reply

variable (built env platform world)

/-- A result that a task can have: it was cancelled, or an execution of the task in this past gave
the result, which is as the executed tool says. -/
inductive Produced (past : List Served) (taskId : String) : CallToolResult → Prop
  | cancelled : Produced past taskId cancelledToolResult
  | executed {earlier rest : List Served} {server : ServerState W} {plugins : PluginRegistry}
      {name : String} {arguments : Option Map} {context : RequestContext} {swept now : DateTime}
      {reply : Except McpError Reply} {result : CallToolResult}
      (worked : past = earlier ++
        ((plugins, .event (.worker taskId name arguments context swept now)), reply) :: rest)
      (reached : Runs (built.machine env platform world).Step (ServerEngine.newServer world) earlier
        server)
      (gave : Executes env.toEnvironment (built.withPlugins plugins) server.world name arguments
        context result)
      (promised : Promised env.crates built.toEngine name result) : Produced past taskId result

/-- The stored result of a task is sent, as a value. -/
def Sends (past : List Served) (taskId : String) (value : Value) : Prop :=
  ∃ result, Produced built env platform world past taskId result ∧
    env.crates.results.resultValue
      { result with metaValue := addRelatedTaskMeta taskId result.metaValue } = .ok value

/-- What a client is given after such a past: at once, from the store, or from the store once the
request that waits for it is woken. -/
structure Delivered (past : List Served) (served : Served) : Prop where
  direct : ∀ plugins name arguments context result,
    served = ((plugins, .event (.request (.callTool name arguments) context)),
      .ok (.handled (some (.toolResult result)))) → Promised env.crates built.toEngine name result
  stored : ∀ plugins taskId swept context value,
    served = ((plugins, .event (.request (.taskResult taskId swept) context)),
      .ok (.handled (some (.taskPayload value)))) → Sends built env platform world past taskId value
  late : ∀ plugins taskId swept context value,
    served = ((plugins, .event (.woken taskId swept context)),
      .ok (.handled (some (.taskPayload value)))) → Sends built env platform world past taskId value

variable {built env platform world}

theorem Produced.mono {past : List Served} (more : List Served) {taskId : String}
    {result : CallToolResult} (h : Produced built env platform world past taskId result) :
    Produced built env platform world (past ++ more) taskId result := by
  cases h with
  | cancelled => exact .cancelled
  | executed worked reached gave promised =>
    have hworked := congrArg (· ++ more) worked
    rw [List.append_assoc, List.cons_append] at hworked
    exact .executed hworked reached gave promised

theorem step_stored {past : List Served} {before after : ServerState W} {served : Served}
    (hr : Runs (built.machine env platform world).Step (ServerEngine.newServer world) past before)
    (hstored : Stored (Produced built env platform world past) before.tasks)
    (hstep : (built.machine env platform world).Step before served after) :
    Stored (Produced built env platform world (past ++ [served])) after.tasks := by
  obtain ⟨⟨plugins, event⟩, reply⟩ := served
  have hkept : Stored (Produced built env platform world (past ++ [((plugins, event), reply)]))
      before.tasks :=
    fun taskId entry result hentry hresult => (hstored taskId entry result hentry hresult).mono _
  have hevent : Triple (fun handling => handling.server = before)
      (fun _ handling => Stored (Produced built env platform world
        (past ++ [((plugins, event), reply)])) (tasksOf handling))
      (fun _ handling => Stored (Produced built env platform world
        (past ++ [((plugins, event), reply)])) (tasksOf handling))
      (built.handleServerEvent env platform plugins event) := by
    refine handleServerEvent_stores plugins event ?_ (fun _ => .cancelled) hkept
    rintro taskId name arguments context swept now rfl result hgave
    have hpromised : Promised env.crates (built.withPlugins plugins) name result :=
      executeToolWithContext_promised hgave
    exact .executed rfl hr hgave hpromised
  obtain ⟨-, hends⟩ := hevent ⟨before, []⟩ rfl
  obtain ⟨hafter, -⟩ := Prod.mk.inj (Option.some.inj hstep)
  rw [← hafter]
  cases hexec : (exec (built.handleServerEvent env platform plugins event) ⟨before, []⟩).1 with
  | ok given => exact hends.value given hexec
  | error error => exact hends.error error hexec

theorem runs_stored {past : List Served} {server : ServerState W}
    (hr : Runs (built.machine env platform world).Step (ServerEngine.newServer world) past server) :
    Stored (Produced built env platform world past) server.tasks := by
  have hboth : Runs (built.machine env platform world).Step (ServerEngine.newServer world) past
      server ∧ Stored (Produced built env platform world past) server.tasks := by
    refine hr.history (fun past server => Runs (built.machine env platform world).Step
      (ServerEngine.newServer world) past server ∧
        Stored (Produced built env platform world past) server.tasks) ?_ ?_
    · exact fun past before served after hbefore hstep =>
        ⟨hbefore.1.append (.single hstep), step_stored hbefore.1 hbefore.2 hstep⟩
    · refine ⟨.refl _, fun taskId entry result hentry => ?_⟩
      cases hentry
  exact hboth.2

theorem handleCallToolRequest_promised {plugins : PluginRegistry} {context : RequestContext}
    {name : String} {arguments : Option Map} {handling : Handling W} {result : CallToolResult}
    (h : (exec ((built.withPlugins plugins).handleCallToolRequest env.toEnvironment context name
      arguments) handling).1 = .ok result) : Promised env.crates built.toEngine name result := by
  have hexecuted : ((built.withPlugins plugins).executeToolWithContext env.crates env.outside name
      (.object (arguments.getD [])) (some context) ⟨handling.server.world, []⟩).1 = .ok result := h
  have hpromised : Promised env.crates (built.withPlugins plugins) name result :=
    executeToolWithContext_promised hexecuted
  exact hpromised

/-- The payload has the value of a stored result. -/
def GivesStored (P : String → CallToolResult → Prop) (crates : Crates) (taskId : String)
    (payload : Payload) : Prop :=
  ∀ value, payload = .taskPayload value → ∃ result, P taskId result ∧
    crates.results.resultValue
      { result with metaValue := addRelatedTaskMeta taskId result.metaValue } = .ok value

theorem awaitTaskResult_gives {P : String → CallToolResult → Prop} (context : RequestContext)
    (taskId : String) (swept : DateTime) :
    Triple (fun handling => Stored P (tasksOf handling))
      (fun payload _ => GivesStored P env.crates taskId payload) (fun _ _ => True)
      (Engine.awaitTaskResult env.toEnvironment context taskId swept) := by
  have hfound : Triple (fun handling => Stored P (tasksOf handling))
      (fun found _ => ∀ result, found = .inl (.ok (.ok result)) → P taskId result)
      (fun _ _ => True)
      (Engine.onTasks fun inner => TaskStore.checkResult inner taskId context.peerKey swept :
        Handler W (Except TaskLookupError TerminalResult ⊕ Notify)) := by
    refine fun handling hstored => ⟨rfl, .ok fun result hresult => ?_⟩
    obtain ⟨entry, hentry, hterminal⟩ := TaskStore.checkResult_ok hresult
    exact stored_cleanup hstored swept taskId entry result hentry hterminal
  refine SameFrom.bind hfound fun found => ?_
  rcases found with ((_ | _) | (error | callResult)) | waiting
  · exact .throw fun _ _ => trivial
  · exact .throw fun _ _ => trivial
  · refine fun handling hresult => ⟨rfl, fun payload hpayload value hvalue => ?_, fun _ _ => trivial⟩
    subst hvalue
    refine ⟨callResult, hresult callResult rfl, ?_⟩
    have hmapped : (((env.crates.results.resultValue
        { callResult with metaValue := addRelatedTaskMeta taskId callResult.metaValue }).mapError
          (McpError.internalError · none)).map Payload.taskPayload) = .ok (.taskPayload value) :=
      (congrArg Prod.fst (exec_map _ _ handling)).symm.trans hpayload
    obtain ⟨given, hgiven, heq⟩ := except_map_eq_ok hmapped
    cases heq
    exact mapError_eq_ok.mp hgiven
  · refine .pure fun _ _ value hvalue => ?_
    cases hvalue

theorem handleGetTaskResultRequest_gives {P : String → CallToolResult → Prop} {engine : Engine}
    (context : RequestContext) (taskId : String) (swept : DateTime) :
    Triple (fun handling => Stored P (tasksOf handling))
      (fun payload _ => GivesStored P env.crates taskId payload) (fun _ _ => True)
      (engine.handleGetTaskResultRequest env.toEnvironment context taskId swept) := by
  refine SameFrom.bind ((checkCancelled_leaves context).triple.mono (fun _ h => h) (fun _ _ h => h)
    fun _ _ _ => trivial) fun _ => ?_
  refine SameFrom.bind ((leaves_settle _).triple.mono (fun _ h => h) (fun _ _ h => h)
    fun _ _ _ => trivial) fun _ => ?_
  exact awaitTaskResult_gives context taskId swept

/-- Whatever a client is given as the result of a tool is as the tool says: what has structured
content has gone through the check of the output schema, in any run of the server. -/
theorem delivered_results_conform {es : List Served} {server : ServerState W}
    (hr : Runs (built.machine env platform world).Step (ServerEngine.newServer world) es server) :
    Each (Delivered built env platform world) es := by
  rintro past served rest rfl
  obtain ⟨before, hpast, hrest⟩ := hr.split
  cases hrest with
  | cons hstep _ =>
    constructor
    case direct =>
      rintro plugins name arguments context result rfl
      obtain ⟨hgiven, -⟩ := step_request hstep
      rw [Engine.handle, exec_map] at hgiven
      obtain ⟨given, hgiven, heq⟩ := except_map_eq_ok hgiven
      cases heq
      exact handleCallToolRequest_promised hgiven
    case stored =>
      rintro plugins taskId swept context value rfl
      obtain ⟨hgiven, -⟩ := step_request hstep
      have hgives : Triple
          (fun handling => Stored (Produced built env platform world past) (tasksOf handling))
          (fun payload _ =>
            GivesStored (Produced built env platform world past) env.crates taskId payload)
          (fun _ _ => True)
          ((built.withPlugins plugins).handleGetTaskResultRequest env.toEnvironment context taskId
            swept) := handleGetTaskResultRequest_gives context taskId swept
      exact (hgives ⟨before, []⟩ (runs_stored hpast)).2.value _ hgiven value rfl
    case late =>
      rintro plugins taskId swept context value rfl
      have hgiven : (exec (Engine.awaitTaskResult env.toEnvironment context taskId swept)
          ⟨before, []⟩).1 = .ok (.taskPayload value) := step_woken hstep
      have hgives : Triple
          (fun handling => Stored (Produced built env platform world past) (tasksOf handling))
          (fun payload _ =>
            GivesStored (Produced built env platform world past) env.crates taskId payload)
          (fun _ _ => True)
          (Engine.awaitTaskResult env.toEnvironment context taskId swept) :=
        awaitTaskResult_gives context taskId swept
      exact (hgives ⟨before, []⟩ (runs_stored hpast)).2.value _ hgiven value rfl

end Runs

/-! ## A census -/

namespace Census

/-- Objects are the only values that a schema takes. -/
def crates : Crates :=
  { Greeting.crates with
    schemas := ⟨fun _ => .ok fun value => if value.asObject.isSome then [] else ["not an object"]⟩ }

def tool : ToolConfig :=
  { Greeting.tool with
    outputSchema := some (.object [])
    execute := .http { Greeting.executeHttp with taskSupport := .optional }
    response := none }

def built : ServerEngine where
  config := { Greeting.engine.config with tasks := some ⟨some true, ⟨true, true⟩, true⟩ }
  toolMap := AList.singleton "greet" tool
  plugins := .new
  completionSources := ∅
  tools := []
  clientsCanSubscribe := false

def env : ServerEnvironment Unit where
  crates := crates
  outside := Greeting.outside
  subscribe _ _ _ world := (.ok (), world)
  unsubscribe _ _ _ world := (.ok (), world)
  sender world := (⟨fun _ => .ok .null, fun _ _ => .ok ()⟩, world)
  setMinLevel _ world := world

def platform : Platform := ⟨fun _ => "first", fun _ => ""⟩

def context : RequestContext := ⟨0, 0, "peer"⟩

def worked : PluginRegistry × ServerEvent :=
  (.new, .event (.worker "first" "greet" none context 0 0))

def asked : PluginRegistry × ServerEvent :=
  (.new, .event (.request (.taskResult "first" 0) context))

end Census

theorem delivered_results_conform_census :
    ∃ past reply,
      Delivered Census.built Census.env Census.platform () past (Census.asked, reply) ∧
      reply = .ok (.handled (some (.taskPayload .null))) ∧ Census.worked ∈ past.map Prod.fst := by
  have hexecute : (Census.built.machine Census.env Census.platform ()).execute
      (ServerEngine.newServer ())
      [(.new, .event (.request (.enqueueTask "greet" none 0 0) Census.context)), Census.worked,
        Census.asked] = some (_, [_, _, .ok (.handled (some (.taskPayload .null)))]) := rfl
  have hruns := Machine.runs_of_execute hexecute
  have hdelivered := delivered_results_conform hruns
  refine ⟨_, _, hdelivered [_, _] _ [] rfl, rfl, ?_⟩
  exact List.mem_cons_of_mem _ List.mem_cons_self

end RustMcpCore.Dispatch
