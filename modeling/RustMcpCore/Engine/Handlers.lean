import RustMcpCore.Engine.Catalogs
import RustMcpCore.Engine.ToolDispatch
import RustMcpCore.Tasks.Requests

/-! # Requests and their answers

The requests of the clients one after another, with the executions of tasks among
them. A handler starts with no error raised, and its value or its error is sent.
-/
namespace RustMcpCore.Dispatch
open Library Outbound

structure ListPromptsResult where
  prompts : List Prompt
  nextCursor : Option String

structure ListResourcesResult where
  resources : List Resource
  nextCursor : Option String

inductive Payload
  | toolResult (result : CallToolResult)
  | taskCreated (task : Task)
  | taskPayload (value : Value)
  /-- Nothing is sent yet: the handler waits for the task. -/
  | waiting
  | prompt (result : GetPromptResult)
  | prompts (result : ListPromptsResult)
  | resource (result : ReadResourceResult)
  | resources (result : ListResourcesResult)
  | completion (completion : CompletionInfo)

abbrev Response := Except McpError Payload

def RELATED_TASK_KEY : String := "io.modelcontextprotocol/related-task"

def relatedTask (taskId : String) : Value := .object [("taskId", .string taskId)]

def addRelatedTaskMeta (taskId : String) (metaValue : Option Map) : Option Map :=
  some (Map.insert (metaValue.getD []) RELATED_TASK_KEY (relatedTask taskId))

def withRelatedTaskError (error : McpError) (taskId : String) : McpError :=
  match error.data with
  | some (.object object) =>
    { error with data := some (.object (Map.insert object RELATED_TASK_KEY (relatedTask taskId))) }
  | _ => { error with data := some (.object [(RELATED_TASK_KEY, relatedTask taskId)]) }

def taskNotFoundError : McpError :=
  .invalidParams "failed to retrieve task: task not found" none

def resourceNotFound (uri : String) : McpError :=
  .resourceNotFound "Resource not found" (some (.object [("uri", .string uri)]))

def namesOf (key : String) (names : List String) : Option Value :=
  some (.object [(key, .array (names.map .string))])

inductive ResourceMatch
  | inlineResource (mimeType : Option String) (content : Option ResourceContentConfig)
  | inlineTemplate
  | plugin (pluginName : String) (config : Value)

def ResourceMatch.ofSource (mimeType : Option String) : ResourceSource → ResourceMatch
  | .inline content => .inlineResource mimeType content
  | .plugin pluginName config => .plugin pluginName config

def ResourceMatch.ofTemplate : ResourceSource → ResourceMatch
  | .inline _ => .inlineTemplate
  | .plugin pluginName config => .plugin pluginName config

def readInlineResource (uri : String) (mimeType : Option String) :
    Option ResourceContentConfig → Except McpError ReadResourceResult
  | none => .error (resourceNotFound uri)
  | some content =>
    match content.text, content.blob with
    | some text, _ => .ok ⟨[.text uri mimeType text none]⟩
    | none, some blob => .ok ⟨[.blob uri mimeType blob none]⟩
    | none, none => .error (resourceNotFound uri)

/-- The last template that matches, with its arguments. -/
def matchTemplates (uri : String) (templates : List ResolvedResourceTemplate) :
    Option (ResolvedResourceTemplate × Map) :=
  templates.reverse.findSome? fun template =>
    (matchUriTemplate template.template.raw.uriTemplate uri).map fun args => (template, args)

namespace Engine
variable (engine : Engine) {W : Type} (env : Environment W) (context : RequestContext)

def checkCancelled : Handler W Unit := do
  if ← observe (env.outside.isCancelled context.ct) then throw cancelledError

/-! ## Prompts -/

def handleListPromptsRequest (cursor : Option String) : Handler W ListPromptsResult := do
  checkCancelled env context
  let catalog ← engine.promptCatalog env
  let (prompts, nextCursor) ←
    settle (pageOf env.crates.base64 catalog.prompts cursor engine.promptPageSize)
  return { prompts, nextCursor }

def promptNotFound (catalog : PromptCatalog) (promptName : String) : McpError :=
  .invalidParams s!"prompt '{promptName}' not found"
    (namesOf "available_prompts" (catalog.entries.map (·.prompt.name)))

def handleGetPromptRequest (promptName : String) (arguments : Option Map) :
    Handler W GetPromptResult := do
  checkCancelled env context
  let args := arguments.getD []
  let catalog ← engine.promptCatalog env
  match catalog.lookup promptName with
  | none => throw (promptNotFound catalog promptName)
  | some selected =>
    settle (validateSchemaArgs env.crates.schemas selected.argumentsSchema args "prompt" promptName)
    match selected.source with
    | .inline messages =>
      let rendered ←
        settle (renderPromptMessages env.crates.models env.crates.json messages (.object args))
      return { description := selected.prompt.description, messages := rendered }
    | .plugin pluginName config =>
      let promptPlugin ← settle (engine.lookupPromptPlugin pluginName)
      let ctx := engine.buildPluginContext (some context)
      ask (env.outside.getPrompt promptPlugin promptName (.object args) { config, ctx })

/-! ## Resources -/

def handleListResourcesRequest (cursor : Option String) : Handler W ListResourcesResult := do
  checkCancelled env context
  let catalog ← engine.resourceCatalog env
  let (resources, nextCursor) ←
    settle (pageOf env.crates.base64 catalog.resourcesPayload cursor engine.resourcePageSize)
  return { resources, nextCursor }

def resolveResourceMatch (uri : String) : Handler W ResourceMatch := do
  let catalog ← engine.resourceCatalog env
  match catalog.resourceByUri uri with
  | some selected => return .ofSource selected.resource.raw.mimeType selected.source
  | none =>
    match matchTemplates uri catalog.templates with
    | none => throw (resourceNotFound uri)
    | some (template, args) =>
      settle (validateSchemaArgs env.crates.schemas template.argumentsSchema args
        "resource template" template.template.raw.uriTemplate)
      return .ofTemplate template.source

def callResourcePluginRead (pluginName : String) (config : Value) (uri : String)
    (request : Option RequestContext) : Handler W ReadResourceResult := do
  let plugin ← settle (engine.lookupResourcePlugin pluginName)
  ask (env.outside.readResource plugin uri { config, ctx := engine.buildPluginContext request })

def handleReadResourceRequest (uri : String) : Handler W ReadResourceResult := do
  checkCancelled env context
  match ← engine.resolveResourceMatch env uri with
  | .inlineResource mimeType content => settle (readInlineResource uri mimeType content)
  | .inlineTemplate => throw (resourceNotFound uri)
  | .plugin pluginName config => engine.callResourcePluginRead env pluginName config uri (some context)

/-! ## Completion -/

def completeInlineValues (values : List String) (lead : String) : Handler W CompletionInfo := do
  let (found, total) ← settle (countMatches values lead)
  check (completionInfoFromValuesWithTotal env.crates.completions
    (found.take CompletionInfo.MAX_VALUES) (some total) (CompletionInfo.MAX_VALUES < found.length))

def completeFromSource (sourceName : String) (request : CompleteRequestParams) :
    Handler W CompletionInfo :=
  match engine.completionSources.lookup sourceName with
  | none =>
    throw (.invalidRequest s!"completion provider '{sourceName}' is not defined" none)
  | some (.inline _ values) => completeInlineValues env values request.argumentValue
  | some (.plugin _ plugin sourceConfig) => do
    let completionPlugin ← settle (engine.lookupCompletionPlugin plugin)
    let config := mergePluginConfig engine.config .completion plugin sourceConfig
    let ctx := engine.buildPluginContext (some context)
    let completion ← ask (env.outside.complete completionPlugin request { config, ctx })
    check (validateCompletionInfo env.crates.completions completion)

/-- An argument of a prompt or of a template, by the source that its completions name. -/
def completeArgument (argumentsSchema : Value) (completions : Option (HashMap String String))
    (owner : String) (request : CompleteRequestParams) : Handler W CompletionInfo := do
  settle (validateCompletionArgumentExists argumentsSchema request.argumentName owner)
  match completions.bind (·.lookup request.argumentName) with
  | none => check (completionInfoFromValues env.crates.completions [])
  | some sourceName => engine.completeFromSource env context sourceName request

def completePromptArgument (promptName : String) (request : CompleteRequestParams) :
    Handler W CompletionInfo := do
  let catalog ← engine.promptCatalog env
  match catalog.lookup promptName with
  | none => throw (promptNotFound catalog promptName)
  | some selected =>
    engine.completeArgument env context selected.argumentsSchema selected.completions
      s!"prompt '{promptName}'" request

def templateNotFound (catalog : ResourceCatalog) (templateUri : String) : McpError :=
  .invalidParams s!"resource template '{templateUri}' not found"
    (namesOf "available_templates" (catalog.templates.map (·.template.raw.uriTemplate)))

def completeResourceTemplateArgument (templateUri : String) (request : CompleteRequestParams) :
    Handler W CompletionInfo := do
  let catalog ← engine.resourceCatalog env
  match catalog.templateByUriTemplate templateUri with
  | none => throw (templateNotFound catalog templateUri)
  | some selected =>
    engine.completeArgument env context selected.argumentsSchema selected.completions
      s!"resource template '{templateUri}'" request

def completeRequest (request : CompleteRequestParams) : Handler W CompletionInfo :=
  match request.ref with
  | .prompt name => engine.completePromptArgument env context name request
  | .resource uri => engine.completeResourceTemplateArgument env context uri request

def handleCompleteRequest (request : CompleteRequestParams) : Handler W CompletionInfo := do
  checkCancelled env context
  if engine.config.completionActive then engine.completeRequest env context request
  else throw (.methodNotFound "completion/complete")

/-! ## Tools and tasks -/

/-- A tool call, with no traffic before it. -/
def executeTool (name : String) (args : Value) (request : Option RequestContext) :
    Handler W (Except McpError CallToolResult) :=
  observe fun world =>
    ((engine.executeToolWithContext env.crates env.outside name args request ⟨world, []⟩).1,
      (engine.executeToolWithContext env.crates env.outside name args request ⟨world, []⟩).2.world)

def handleCallToolRequest (name : String) (arguments : Option Map) : Handler W CallToolResult := do
  let result ← engine.executeTool env name (.object (arguments.getD [])) (some context)
  settle result

/-- A section of the task store, and the value it gives. -/
def onTasks {A : Type} (operation : TaskStoreInner → Section A) : Handler W A := do
  let left := operation (← server).tasks
  update fun server => { server with tasks := left.inner }
  return left.value

def requireTasksActive (method : String) : Except McpError Unit :=
  if engine.config.tasksActive then .ok () else .error (.methodNotFound method)

def requireTaskSupport (tool : ToolConfig) : Except McpError Unit :=
  if tool.execute.taskSupport = .forbidden then .error (.methodNotFound "tools/call") else .ok ()

/-- The task, whose execution is spawned. -/
def handleEnqueueTaskRequest (platform : Platform) (name : String) (task : Option Map)
    (swept now : DateTime) : Handler W Task := do
  checkCancelled env context
  settle (engine.requireTasksActive "tools/call")
  match engine.toolMap.lookup name with
  | none => throw (.invalidParams s!"tool not found: {name}" none)
  | some tool =>
    settle (requireTaskSupport tool)
    let ttlMs ← settle (TaskRequests.parseTaskTtl task)
    let issued := (← server).issued
    update fun server => { server with issued := issued + 1 }
    let created ← onTasks fun inner =>
      TaskStore.create platform issued inner context.peer context.peerKey ttlMs swept now
    return created.task

/-- The execution of a task. -/
def runTask (platform : Platform) (taskId name : String) (arguments : Option Map)
    (swept now : DateTime) : Handler W Unit := do
  let result ← engine.executeTool env name (.object (arguments.getD [])) (some context)
  let _ ← onTasks fun inner => TaskStore.finish platform inner taskId result swept now

/-- One turn of the loop in `wait_for_result`, with what the request makes of its end. -/
def awaitTaskResult (taskId : String) (swept : DateTime) : Handler W Payload := do
  match ← onTasks fun inner => TaskStore.checkResult inner taskId context.peerKey swept with
  | .inr _ => return .waiting
  | .inl (.error .notFound) => throw taskNotFoundError
  | .inl (.ok (.error error)) => throw (withRelatedTaskError error taskId)
  | .inl (.ok (.ok callResult)) =>
    let callResult := { callResult with metaValue := addRelatedTaskMeta taskId callResult.metaValue }
    let value ←
      check ((env.crates.results.resultValue callResult).mapError (McpError.internalError · none))
    return .taskPayload value

def handleGetTaskResultRequest (taskId : String) (swept : DateTime) : Handler W Payload := do
  checkCancelled env context
  settle (engine.requireTasksActive "tasks/result")
  awaitTaskResult env context taskId swept

end Engine

/-! ## Runs -/

inductive Request
  | callTool (name : String) (arguments : Option Map)
  | enqueueTask (name : String) (task : Option Map) (swept now : DateTime)
  | taskResult (taskId : String) (swept : DateTime)
  | getPrompt (name : String) (arguments : Option Map)
  | listPrompts (cursor : Option String)
  | readResource (uri : String)
  | listResources (cursor : Option String)
  | complete (request : CompleteRequestParams)

inductive Event
  | request (request : Request) (context : RequestContext)
  /-- The execution of a task ends. -/
  | worker (taskId name : String) (arguments : Option Map) (context : RequestContext)
      (swept now : DateTime)
  /-- A request that waits for a task is notified, and looks again. -/
  | woken (taskId : String) (swept : DateTime) (context : RequestContext)

namespace Engine
variable (engine : Engine) (platform : Platform) {W : Type} (env : Environment W)

def handle (context : RequestContext) : Request → Handler W Payload
  | .callTool name arguments =>
    .toolResult <$> engine.handleCallToolRequest env context name arguments
  | .enqueueTask name task swept now =>
    .taskCreated <$> engine.handleEnqueueTaskRequest env context platform name task swept now
  | .taskResult taskId swept => engine.handleGetTaskResultRequest env context taskId swept
  | .getPrompt name arguments => .prompt <$> engine.handleGetPromptRequest env context name arguments
  | .listPrompts cursor => .prompts <$> engine.handleListPromptsRequest env context cursor
  | .readResource uri => .resource <$> engine.handleReadResourceRequest env context uri
  | .listResources cursor => .resources <$> engine.handleListResourcesRequest env context cursor
  | .complete request => .completion <$> engine.handleCompleteRequest env context request

/-- What is sent, and the errors that the handler met. An execution sends nothing. -/
def handleEvent : Event → Handler W (Option Payload)
  | .request request context => some <$> engine.handle platform env context request
  | .worker taskId name arguments context swept now => do
    engine.runTask env context platform taskId name arguments swept now
    return none
  | .woken taskId swept context => some <$> awaitTaskResult env context taskId swept

structure Handled (W : Type) where
  response : Except McpError (Option Payload)
  raised : List McpError
  server : ServerState W

def serveEvent (server : ServerState W) (event : Event) : Handled W :=
  let ended := Fallible.exec (engine.handleEvent platform env event) ⟨server, []⟩
  { response := ended.1, raised := ended.2.raised, server := ended.2.server }

def serve : ServerState W → List Event → List (Handled W)
  | _, [] => []
  | server, event :: events =>
    let handled := engine.serveEvent platform env server event
    handled :: serve handled.server events

end Engine

end RustMcpCore.Dispatch
