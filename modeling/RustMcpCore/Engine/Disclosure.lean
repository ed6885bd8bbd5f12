import RustMcpCore.Engine.Handlers
import RustMcpCore.Engine.ToolFailures
import RustMcpCore.Engine.ToolRedaction

/-! # What clients learn of internal errors

Tool calls redact internal errors, and what they leave in the task store is redacted.
The other handlers pass an internal error of a plugin or of a check on to the client.
-/
namespace RustMcpCore.Dispatch
open Library Outbound Fallible

section Handlers
variable {W A : Type} (R : McpError → McpError → Prop)

/-- One server in both, and nothing raised. -/
def Agree (handling handling' : Handling W) : Prop :=
  handling'.server = handling.server ∧ handling.raised = [] ∧ handling'.raised = []

/-- One server in both, and one error unless it was raised. -/
def Fails (error error' : McpError) (handling handling' : Handling W) : Prop :=
  handling'.server = handling.server ∧
    (handling.raised = [] ∧ error' = error ∨ handling.raised ≠ [] ∧ R error error')

/-- Two handlers that differ in the internal errors they give. -/
abbrev SameHandler (handler handler' : Handler W A) : Prop := Alike Agree (Fails R) handler handler'

variable {R}

theorem fails_refl (error : McpError) (handling handling' : Handling W)
    (h : Agree handling handling') : Fails R error error handling handling' :=
  ⟨h.1, .inl ⟨h.2.1, rfl⟩⟩

theorem same_settle (result : Except McpError A) :
    SameHandler R (settle result : Handler W A) (settle result) :=
  Alike.lift fails_refl result

theorem same_throw (error : McpError) :
    SameHandler R (throw error : Handler W A) (throw error) :=
  Alike.throw fails_refl error

theorem internalErrors_other {error : McpError} (code : error.code ≠ ErrorCode.internalError) :
    internalErrors (.error error : Except McpError A) = [] :=
  if_neg code

theorem internalErrors_internal {error : McpError} (code : error.code = ErrorCode.internalError) :
    internalErrors (.error error : Except McpError A) = [error] :=
  if_pos code

/-- A result that two handlers get at one point, after which the servers are the same. -/
theorem matching_turns {result result' : Except McpError A} (h : Turns R result result')
    {server server' : ServerState W} (hserver : server' = server) :
    Matching Agree (Fails R) (result, ⟨server, [] ++ internalErrors result⟩)
      (result', ⟨server', [] ++ internalErrors result'⟩) := by
  cases h with
  | value a => exact .value a ⟨hserver, rfl, rfl⟩
  | other code =>
    refine .failure ⟨hserver, .inl ⟨?_, rfl⟩⟩
    rw [List.nil_append, internalErrors_other code]
  | internal internal related =>
    refine .failure ⟨hserver, .inr ⟨?_, related⟩⟩
    rw [List.nil_append, internalErrors_internal internal.1]
    exact List.cons_ne_nil _ _

theorem same_ask {effect effect' : W → Except McpError A × W} (h : Parallel (Turns R) effect effect') :
    SameHandler R (ask effect) (ask effect') := by
  rintro ⟨server, raised⟩ ⟨server', raised'⟩ ⟨hserver, hraised, hraised'⟩
  cases hserver
  cases hraised
  cases hraised'
  obtain ⟨hworld, hresult⟩ := h server.world
  refine matching_turns hresult ?_
  rw [hworld]

theorem same_check {result result' : Except McpError A} (h : Turns R result result') :
    SameHandler R (check result : Handler W A) (check result') := by
  rintro ⟨server, raised⟩ ⟨server', raised'⟩ ⟨hserver, hraised, hraised'⟩
  cases hserver
  cases hraised
  cases hraised'
  exact matching_turns h rfl

theorem same_observe {effect effect' : W → A × W} (h : Parallel Eq effect effect') :
    SameHandler R (observe effect) (observe effect') := by
  rintro ⟨server, raised⟩ ⟨server', raised'⟩ ⟨hserver, hraised, hraised'⟩
  cases hserver
  obtain ⟨hworld, hresult⟩ := h server.world
  unfold observe
  simp only [exec_act, ← hresult, hworld]
  exact .value _ ⟨rfl, hraised, hraised'⟩

theorem same_server : SameHandler R (server : Handler W (ServerState W)) server := by
  rintro handling handling' h
  unfold server
  simp only [exec_act, h.1]
  exact .value _ h

theorem same_update (change : ServerState W → ServerState W) :
    SameHandler R (update change) (update change) :=
  fun _ _ h => .value () ⟨congrArg change h.1, h.2⟩

end Handlers

/-! ## The handlers -/

section Requests
variable {engine : Engine} {W : Type} {R : McpError → McpError → Prop} {env env' : Environment W}

theorem checkCancelled_same (h : Alters R env env') (context : RequestContext) :
    SameHandler R (Engine.checkCancelled env context) (Engine.checkCancelled env' context) := by
  unfold Engine.checkCancelled
  rw [h.isCancelled]
  refine (same_observe (Parallel.rfl Eq.refl)).bind fun cancelled => ?_
  split
  · exact same_throw _
  · exact .pure _

theorem promptsOfProvider_same (h : Alters R env env') (provider : PromptProviderConfig) :
    SameHandler R (engine.promptsOfProvider env provider) (engine.promptsOfProvider env' provider) := by
  cases provider with
  | inline items => exact same_settle _
  | plugin plugin config =>
    refine (same_settle _).bind fun promptPlugin => ?_
    refine (same_ask (h.listPrompts promptPlugin _)).bind fun entries => ?_
    exact same_settle _

theorem promptCatalog_same (h : Alters R env env') :
    SameHandler R (engine.promptCatalog env) (engine.promptCatalog env') := by
  unfold Engine.promptCatalog
  refine same_server.bind fun server => ?_
  split
  · exact .pure _
  · unfold Engine.refreshPromptCatalog
    refine Alike.bind ?_ fun catalog => ?_
    · unfold Engine.buildPromptCatalog
      split
      · exact .pure _
      · refine (Alike.mapM (promptsOfProvider_same h) _).bind fun prompts => ?_
        exact .pure _
    · refine (same_update _).bind fun _ => ?_
      exact .pure _

theorem resourcesOfProvider_same (h : Alters R env env') (provider : ResourceProviderConfig) :
    SameHandler R (engine.resourcesOfProvider env provider)
      (engine.resourcesOfProvider env' provider) := by
  have hinline : Engine.resolveInlineResource env' = Engine.resolveInlineResource env := by
    unfold Engine.resolveInlineResource
    rw [h.parsers]
  have hplugin : Engine.resolvePluginResource env' = Engine.resolvePluginResource env := by
    unfold Engine.resolvePluginResource
    rw [h.parsers]
  cases provider with
  | inline items templates =>
    unfold Engine.resourcesOfProvider
    rw [hinline]
    exact same_settle _
  | plugin plugin config templates =>
    unfold Engine.resourcesOfProvider
    rw [hplugin]
    refine (same_settle _).bind fun resourcePlugin => ?_
    refine (same_ask (h.listResources resourcePlugin _)).bind fun entries => ?_
    exact same_settle _

theorem buildResourceTemplates_eq (h : Alters R env env') :
    engine.buildResourceTemplates env' = engine.buildResourceTemplates env := by
  have htemplate : engine.resolveTemplate env' = engine.resolveTemplate env := by
    unfold Engine.resolveTemplate
    rw [h.parsers, h.schemas]
  have hprovider : engine.templatesOfProvider env' = engine.templatesOfProvider env := by
    unfold Engine.templatesOfProvider
    rw [htemplate]
  unfold Engine.buildResourceTemplates
  rw [hprovider]

theorem resourceCatalog_same (h : Alters R env env') :
    SameHandler R (engine.resourceCatalog env) (engine.resourceCatalog env') := by
  unfold Engine.resourceCatalog
  refine same_server.bind fun server => ?_
  split
  · exact .pure _
  · unfold Engine.refreshResourceCatalog
    refine Alike.bind ?_ fun catalog => ?_
    · unfold Engine.buildResourceCatalog
      rw [buildResourceTemplates_eq h]
      refine Alike.bind ?_ fun resources => ?_
      · unfold Engine.buildResources
        split
        · exact .pure _
        · refine (Alike.mapM (resourcesOfProvider_same h) _).bind fun resources => ?_
          exact .pure _
      · refine (same_settle _).bind fun templates => ?_
        exact .pure _
    · refine (same_update _).bind fun _ => ?_
      exact .pure _

theorem handleListPromptsRequest_same (h : Alters R env env') (context : RequestContext)
    (cursor : Option String) :
    SameHandler R (engine.handleListPromptsRequest env context cursor)
      (engine.handleListPromptsRequest env' context cursor) := by
  unfold Engine.handleListPromptsRequest
  rw [h.base64]
  refine (checkCancelled_same h context).bind fun _ => ?_
  refine (promptCatalog_same h).bind fun catalog => ?_
  refine (same_settle _).bind fun page => ?_
  exact .pure _

theorem handleGetPromptRequest_same (h : Alters R env env') (context : RequestContext)
    (promptName : String) (arguments : Option Map) :
    SameHandler R (engine.handleGetPromptRequest env context promptName arguments)
      (engine.handleGetPromptRequest env' context promptName arguments) := by
  unfold Engine.handleGetPromptRequest
  rw [h.schemas, h.models, h.json]
  refine (checkCancelled_same h context).bind fun _ => ?_
  refine (promptCatalog_same h).bind fun catalog => ?_
  split
  · exact same_throw _
  · refine (same_settle _).bind fun _ => ?_
    split
    · refine (same_settle _).bind fun rendered => ?_
      exact .pure _
    · refine (same_settle _).bind fun promptPlugin => ?_
      exact same_ask (h.getPrompt promptPlugin promptName _ _)

theorem handleListResourcesRequest_same (h : Alters R env env') (context : RequestContext)
    (cursor : Option String) :
    SameHandler R (engine.handleListResourcesRequest env context cursor)
      (engine.handleListResourcesRequest env' context cursor) := by
  unfold Engine.handleListResourcesRequest
  rw [h.base64]
  refine (checkCancelled_same h context).bind fun _ => ?_
  refine (resourceCatalog_same h).bind fun catalog => ?_
  refine (same_settle _).bind fun page => ?_
  exact .pure _

theorem resolveResourceMatch_same (h : Alters R env env') (uri : String) :
    SameHandler R (engine.resolveResourceMatch env uri) (engine.resolveResourceMatch env' uri) := by
  unfold Engine.resolveResourceMatch
  rw [h.schemas]
  refine (resourceCatalog_same h).bind fun catalog => ?_
  split
  · exact .pure _
  · split
    · exact same_throw _
    · refine (same_settle _).bind fun _ => ?_
      exact .pure _

theorem handleReadResourceRequest_same (h : Alters R env env') (context : RequestContext)
    (uri : String) :
    SameHandler R (engine.handleReadResourceRequest env context uri)
      (engine.handleReadResourceRequest env' context uri) := by
  unfold Engine.handleReadResourceRequest
  refine (checkCancelled_same h context).bind fun _ => ?_
  refine (resolveResourceMatch_same h uri).bind fun found => ?_
  split
  · exact same_settle _
  · exact same_throw _
  · unfold Engine.callResourcePluginRead
    refine (same_settle _).bind fun plugin => ?_
    exact same_ask (h.readResource plugin uri _)

theorem checkCompletion_same (h : Alters R env env') (values : List String)
    (info : Unit → CompletionInfo) :
    SameHandler R
      (check (((env.crates.completions values).mapError invalidCompletion).map info) : Handler W _)
      (check (((env'.crates.completions values).mapError invalidCompletion).map info)) :=
  same_check ((h.completions values).map info)

theorem completeFromSource_same (h : Alters R env env') (context : RequestContext)
    (sourceName : String) (request : CompleteRequestParams) :
    SameHandler R (engine.completeFromSource env context sourceName request)
      (engine.completeFromSource env' context sourceName request) := by
  unfold Engine.completeFromSource
  split
  · exact same_throw _
  · refine (same_settle _).bind fun counted => ?_
    exact checkCompletion_same h _ _
  · refine (same_settle _).bind fun completionPlugin => ?_
    refine (same_ask (h.complete completionPlugin request _)).bind fun completion => ?_
    exact checkCompletion_same h _ _

theorem completeArgument_same (h : Alters R env env') (context : RequestContext)
    (argumentsSchema : Value) (completions : Option (HashMap String String)) (owner : String)
    (request : CompleteRequestParams) :
    SameHandler R
      (engine.completeArgument env context argumentsSchema completions owner request)
      (engine.completeArgument env' context argumentsSchema completions owner request) := by
  unfold Engine.completeArgument
  refine (same_settle _).bind fun _ => ?_
  split
  · exact checkCompletion_same h _ _
  · exact completeFromSource_same h context _ request

theorem handleCompleteRequest_same (h : Alters R env env') (context : RequestContext)
    (request : CompleteRequestParams) :
    SameHandler R (engine.handleCompleteRequest env context request)
      (engine.handleCompleteRequest env' context request) := by
  unfold Engine.handleCompleteRequest
  refine (checkCancelled_same h context).bind fun _ => ?_
  split
  · unfold Engine.completeRequest
    split
    · unfold Engine.completePromptArgument
      refine (promptCatalog_same h).bind fun catalog => ?_
      split
      · exact same_throw _
      · exact completeArgument_same h context _ _ _ request
    · unfold Engine.completeResourceTemplateArgument
      refine (resourceCatalog_same h).bind fun catalog => ?_
      split
      · exact same_throw _
      · exact completeArgument_same h context _ _ _ request
  · exact same_throw _

theorem onTasks_same {A : Type} (operation : TaskStoreInner → Section A) :
    SameHandler R (Engine.onTasks operation : Handler W A) (Engine.onTasks operation) := by
  unfold Engine.onTasks
  refine same_server.bind fun server => ?_
  refine (same_update _).bind fun _ => ?_
  exact .pure _

theorem awaitTaskResult_same (h : Alters R env env') (context : RequestContext)
    (taskId : String) (swept : DateTime) :
    SameHandler R (Engine.awaitTaskResult env context taskId swept)
      (Engine.awaitTaskResult env' context taskId swept) := by
  unfold Engine.awaitTaskResult
  refine (onTasks_same _).bind fun found => ?_
  split
  · exact .pure _
  · exact same_throw _
  · exact same_throw _
  · refine (same_check (h.resultValue _)).bind fun value => ?_
    exact .pure _

theorem handleGetTaskResultRequest_same (h : Alters R env env') (context : RequestContext)
    (taskId : String) (swept : DateTime) :
    SameHandler R (engine.handleGetTaskResultRequest env context taskId swept)
      (engine.handleGetTaskResultRequest env' context taskId swept) := by
  unfold Engine.handleGetTaskResultRequest
  refine (checkCancelled_same h context).bind fun _ => ?_
  refine (same_settle _).bind fun _ => ?_
  exact awaitTaskResult_same h context taskId swept

theorem handleEnqueueTaskRequest_same (h : Alters R env env') (context : RequestContext)
    (platform : Platform) (name : String) (task : Option Map) (swept now : DateTime) :
    SameHandler R (engine.handleEnqueueTaskRequest env context platform name task swept now)
      (engine.handleEnqueueTaskRequest env' context platform name task swept now) := by
  unfold Engine.handleEnqueueTaskRequest
  refine (checkCancelled_same h context).bind fun _ => ?_
  refine (same_settle _).bind fun _ => ?_
  split
  · exact same_throw _
  · refine (same_settle _).bind fun _ => ?_
    refine (same_settle _).bind fun ttlMs => ?_
    refine same_server.bind fun server => ?_
    refine (same_update _).bind fun _ => ?_
    refine (onTasks_same _).bind fun created => ?_
    exact .pure _

section Redacted
variable (hidden : engine.config.exposeInternalErrorDetails = false)
include hidden

theorem executeTool_same (h : Alters R env env') (name : String) (args : Value)
    (request : Option RequestContext) :
    SameHandler R (engine.executeTool env name args request)
      (engine.executeTool env' name args request) := by
  refine same_observe fun world => ?_
  exact executeToolWithContext_tandem h hidden name args request ⟨world, []⟩ ⟨world, []⟩ rfl

theorem handle_same (h : Alters R env env') (platform : Platform) (context : RequestContext)
    (request : Request) :
    SameHandler R (engine.handle platform env context request)
      (engine.handle platform env' context request) := by
  cases request with
  | callTool name arguments =>
    refine Alike.map ?_ _
    refine (executeTool_same hidden h name _ _).bind fun result => ?_
    exact same_settle result
  | enqueueTask name task swept now =>
    exact (handleEnqueueTaskRequest_same h context platform name task swept now).map _
  | taskResult taskId swept => exact handleGetTaskResultRequest_same h context taskId swept
  | getPrompt name arguments => exact (handleGetPromptRequest_same h context name arguments).map _
  | listPrompts cursor => exact (handleListPromptsRequest_same h context cursor).map _
  | readResource uri => exact (handleReadResourceRequest_same h context uri).map _
  | listResources cursor => exact (handleListResourcesRequest_same h context cursor).map _
  | complete request => exact (handleCompleteRequest_same h context request).map _

theorem handleEvent_same (h : Alters R env env') (platform : Platform) (event : Event) :
    SameHandler R (engine.handleEvent platform env event) (engine.handleEvent platform env' event) := by
  cases event with
  | request request context => exact (handle_same hidden h platform context request).map _
  | worker taskId name arguments context swept now =>
    refine Alike.bind ?_ fun _ => ?_
    · refine (executeTool_same hidden h name _ _).bind fun result => ?_
      refine (onTasks_same _).bind fun _ => ?_
      exact .pure _
    · exact .pure _
  | woken taskId swept context => exact (awaitTaskResult_same h context taskId swept).map _

end Redacted

end Requests

/-! ## Runs -/

section Runs
variable {engine : Engine} {platform : Platform} {W : Type} {R : McpError → McpError → Prop}
  {env env' : Environment W}

/-- Both answers are one answer, or both are an error that was raised. -/
def SameAnswer (R : McpError → McpError → Prop) (handled handled' : Engine.Handled W) : Prop :=
  handled.raised = [] ∧ handled'.response = handled.response ∨
    handled.raised ≠ [] ∧ ∃ error error', handled.response = .error error ∧
      handled'.response = .error error' ∧ R error error'

theorem serveEvent_same (h : Alters R env env')
    (hidden : engine.config.exposeInternalErrorDetails = false) (server : ServerState W)
    (event : Event) :
    (engine.serveEvent platform env' server event).server =
        (engine.serveEvent platform env server event).server ∧
      SameAnswer R (engine.serveEvent platform env server event)
        (engine.serveEvent platform env' server event) := by
  have hboth := handleEvent_same hidden h platform event ⟨server, []⟩ ⟨server, []⟩ ⟨rfl, rfl, rfl⟩
  unfold Engine.serveEvent
  generalize exec (engine.handleEvent platform env event) ⟨server, []⟩ = ended at hboth ⊢
  generalize exec (engine.handleEvent platform env' event) ⟨server, []⟩ = ended' at hboth ⊢
  cases hboth with
  | value payload agree => exact ⟨agree.1, .inl ⟨agree.2.1, rfl⟩⟩
  | failure fails =>
    refine ⟨fails.1, ?_⟩
    rcases fails.2 with ⟨hraised, herror⟩ | ⟨hraised, hrelated⟩
    · exact .inl ⟨hraised, congrArg Except.error herror⟩
    · exact .inr ⟨hraised, _, _, rfl, rfl, hrelated⟩

/-- What is sent in a run. -/
def responses (run : List (Engine.Handled W)) : List (Except McpError (Option Payload)) :=
  run.map (·.response)

theorem responses_same (h : Alters R env env')
    (hidden : engine.config.exposeInternalErrorDetails = false) {server : ServerState W}
    {events : List Event}
    (hraised : ∀ handled ∈ engine.serve platform env server events, handled.raised = []) :
    responses (engine.serve platform env' server events) =
      responses (engine.serve platform env server events) := by
  induction events generalizing server with
  | nil => rfl
  | cons event events ih =>
    obtain ⟨hfirst, hrest⟩ := List.forall_mem_cons.mp hraised
    obtain ⟨hserver, hanswer⟩ := serveEvent_same h hidden server event
    have hresponse : (engine.serveEvent platform env' server event).response =
        (engine.serveEvent platform env server event).response := by
      rcases hanswer with ⟨_, hsame⟩ | ⟨hsome, _⟩
      · exact hsame
      · exact absurd hfirst hsome
    have hlater := ih hrest
    unfold responses at hlater ⊢
    unfold Engine.serve
    simp only [List.map_cons, hresponse, hserver, hlater]

/-- Where all raised errors become others, every one of them shows. -/
theorem raised_of_responses_same (h : Alters (fun error error' => error' ≠ error) env env')
    (hidden : engine.config.exposeInternalErrorDetails = false) {server : ServerState W}
    {events : List Event}
    (hsame : responses (engine.serve platform env' server events) =
      responses (engine.serve platform env server events)) :
    ∀ handled ∈ engine.serve platform env server events, handled.raised = [] := by
  induction events generalizing server with
  | nil => exact List.forall_mem_nil _
  | cons event events ih =>
    obtain ⟨hserver, hanswer⟩ := serveEvent_same h hidden server event
    obtain ⟨hfirst, hrest⟩ := List.cons.inj hsame
    have hresponse : (engine.serveEvent platform env' server event).response =
        (engine.serveEvent platform env server event).response := hfirst
    refine List.forall_mem_cons.mpr ⟨?_, ?_⟩
    · rcases hanswer with ⟨hraised, _⟩ | ⟨_, error, error', herror, herror', hne⟩
      · exact hraised
      · rw [herror, herror'] at hresponse
        exact absurd (Except.error.inj hresponse) hne
    · rw [hserver] at hrest
      exact ih hrest

end Runs

/-! ## Other words for every internal error -/

def reword (error : McpError) : McpError :=
  if error.code = ErrorCode.internalError then { error with message := error.message ++ "." }
  else error

def rewordText (text : String) : String := text ++ "."

def Environment.reworded {W : Type} (env : Environment W) : Environment W where
  crates :=
    { env.crates with
      results := { env.crates.results with
        resultValue := fun result => (env.crates.results.resultValue result).mapError rewordText }
      completions := fun values => (env.crates.completions values).mapError rewordText }
  outside :=
    { env.outside with
      listPrompts := fun plugin params world =>
        (env.outside.listPrompts plugin params world).map (·.mapError reword) id
      getPrompt := fun plugin name args params world =>
        (env.outside.getPrompt plugin name args params world).map (·.mapError reword) id
      listResources := fun plugin params world =>
        (env.outside.listResources plugin params world).map (·.mapError reword) id
      readResource := fun plugin uri params world =>
        (env.outside.readResource plugin uri params world).map (·.mapError reword) id
      complete := fun plugin request params world =>
        (env.outside.complete plugin request params world).map (·.mapError reword) id }

section Reworded
variable {A W : Type}

theorem append_ne (text : String) : text ++ "." ≠ text := by
  intro h
  have hlength := congrArg String.length h
  rw [String.length_append] at hlength
  have hone : ".".length = 1 := rfl
  omega

theorem turns_reword (result : Except McpError A) :
    Turns (fun error error' => error' ≠ error) result (result.mapError reword) := by
  cases result with
  | ok a => exact .value a
  | error error =>
    by_cases hcode : error.code = ErrorCode.internalError
    · have hreword : reword error = { error with message := error.message ++ "." } := if_pos hcode
      refine .internal ⟨hcode, ?_⟩ ?_
      · rw [hreword]
        exact hcode
      · rw [hreword]
        exact fun h => append_ne error.message (congrArg McpError.message h)
    · have hreword : reword error = error := if_neg hcode
      simp only [Except.mapError, hreword]
      exact .other hcode

theorem turns_rewordText (result : Except String A) {f : String → McpError}
    (hcode : ∀ text, (f text).code = ErrorCode.internalError)
    (hf : ∀ text, f (rewordText text) ≠ f text) :
    Turns (fun error error' => error' ≠ error) (result.mapError f)
      ((result.mapError rewordText).mapError f) := by
  cases result with
  | ok a => exact .value a
  | error text => exact .internal ⟨hcode text, hcode _⟩ (hf text)

theorem turns_mapError_self (result : Except String A) {f : String → McpError}
    (hcode : ∀ text, (f text).code = ErrorCode.internalError) :
    Turns (fun _ _ => True) (result.mapError f) (result.mapError f) := by
  cases result with
  | ok a => exact .value a
  | error text => exact .internal ⟨hcode text, hcode text⟩ trivial

theorem invalidCompletion_reworded (text : String) :
    invalidCompletion (rewordText text) ≠ invalidCompletion text := by
  intro h
  have hlength := congrArg (fun error => error.message.length) h
  simp only [invalidCompletion, McpError.internalError, rewordText, toString,
    String.length_append] at hlength
  have hone : ".".length = 1 := rfl
  omega

theorem alters_reworded (env : Environment W) :
    Alters (fun error error' => error' ≠ error) env env.reworded where
  json := rfl
  models := rfl
  schemas := rfl
  base64 := rfl
  parsers := rfl
  fromSlice _ := .same _
  resultLen _ := .same _
  contentValue _ := .same _
  valueLen _ := .same _
  resultValue _ := turns_rewordText _ (fun _ => rfl) fun text h =>
    append_ne text (congrArg McpError.message h)
  completions _ := turns_rewordText _ (fun _ => rfl) invalidCompletion_reworded
  isCancelled := rfl
  pollsCancelled := rfl
  sleep := rfl
  sleepUnlessCancelled := rfl
  send _ := Parallel.rfl .same
  sendUnlessCancelled _ _ := Parallel.rfl (rel_refl .same)
  accessToken _ _ _ := Parallel.rfl .same
  callTool _ _ _ := Parallel.rfl OutcomeVaries.refl
  callToolUnlessCancelled _ _ _ := Parallel.rfl (rel_refl OutcomeVaries.refl)
  listPrompts _ _ _ := ⟨rfl, turns_reword _⟩
  getPrompt _ _ _ _ _ := ⟨rfl, turns_reword _⟩
  listResources _ _ _ := ⟨rfl, turns_reword _⟩
  readResource _ _ _ _ := ⟨rfl, turns_reword _⟩
  complete _ _ _ _ := ⟨rfl, turns_reword _⟩

end Reworded

/-- The answers do not depend on what internal errors say exactly if no handler but that
of a tool call meets one. -/
theorem serve_hides_internal_errors (engine : Engine) (platform : Platform) {W : Type}
    (env : Environment W) (hidden : engine.config.exposeInternalErrorDetails = false)
    (server : ServerState W) (events : List Event) :
    (∀ env', Alters (fun _ _ => True) env env' →
        responses (engine.serve platform env' server events) =
          responses (engine.serve platform env server events)) ↔
      ∀ handled ∈ engine.serve platform env server events, handled.raised = [] := by
  constructor
  · intro h
    have hreworded := alters_reworded env
    exact raised_of_responses_same hreworded hidden (h env.reworded (hreworded.mono fun _ _ _ => trivial))
  · exact fun hraised env' haltered => responses_same haltered hidden hraised

/-! ## A prompt plugin whose store is gone -/

namespace Notes

def prompts : PromptsConfig where
  enabled := none
  notifyListChanged := false
  providers := [.plugin "notes" none]

def engine : Engine where
  config := { McpConfig.empty with prompts := some prompts }
  toolMap := ∅
  plugins := ⟨fun pluginType => if pluginType = .prompt then AList.singleton "notes" ⟨"notes", 0⟩ else ∅,
    {"notes"}⟩
  completionSources := ∅

def entry : PromptEntry where
  prompt := { name := "note", title := none, description := none, arguments := none, icons := none }
  argumentsSchema := .object []
  completions := none

/-- The plugin lists its prompt and fails with the given message when it is to render it. -/
def env (message : String) : Environment Unit where
  crates := Greeting.crates
  outside := { Greeting.outside with
    listPrompts := fun _ _ world => (.ok [entry], world)
    getPrompt := fun _ _ _ _ world => (.error (.internalError message none), world) }

def platform : Platform := ⟨fun _ => "", fun _ => ""⟩

def server : ServerState Unit := ⟨(), none, none, ⟨∅⟩, 0⟩

def events : List Event := [.request (.getPrompt "note" none) ⟨0, 0, "peer"⟩]

theorem alters (message message' : String) :
    Alters (fun _ _ => True) (env message) (env message') where
  json := rfl
  models := rfl
  schemas := rfl
  base64 := rfl
  parsers := rfl
  fromSlice _ := .same _
  resultLen _ := .same _
  contentValue _ := .same _
  valueLen _ := .same _
  resultValue _ := .value _
  completions _ := turns_mapError_self _ fun _ => rfl
  isCancelled := rfl
  pollsCancelled := rfl
  sleep := rfl
  sleepUnlessCancelled := rfl
  send _ := Parallel.rfl .same
  sendUnlessCancelled _ _ := Parallel.rfl (rel_refl .same)
  accessToken _ _ _ := Parallel.rfl .same
  callTool _ _ _ := Parallel.rfl OutcomeVaries.refl
  callToolUnlessCancelled _ _ _ := Parallel.rfl (rel_refl OutcomeVaries.refl)
  listPrompts _ _ _ := ⟨rfl, .value _⟩
  getPrompt _ _ _ _ _ := ⟨rfl, .internal ⟨rfl, rfl⟩ trivial⟩
  listResources _ _ _ := ⟨rfl, .value _⟩
  readResource _ _ _ _ := ⟨rfl, .value _⟩
  complete _ _ _ _ := ⟨rfl, .value _⟩

theorem responses_eq (message : String) :
    responses (engine.serve platform (env message) server events) =
      [.error (.internalError message none)] := rfl

end Notes

theorem serve_hides_internal_errors_notes :
    (∀ env', Alters (fun _ _ => True) (Notes.env "no such table") env' →
        responses (Notes.engine.serve Notes.platform env' Notes.server Notes.events) =
          responses (Notes.engine.serve Notes.platform (Notes.env "no such table") Notes.server
            Notes.events)) ↔
      ∀ handled ∈ Notes.engine.serve Notes.platform (Notes.env "no such table") Notes.server
        Notes.events, handled.raised = [] :=
  serve_hides_internal_errors Notes.engine Notes.platform (Notes.env "no such table") rfl
    Notes.server Notes.events

/-- The client reads what the plugin says of its store. -/
theorem prompt_error_reaches_client :
    Notes.engine.config.exposeInternalErrorDetails = false ∧
      Alters (fun _ _ => True) (Notes.env "no such table") (Notes.env "disk full") ∧
      responses (Notes.engine.serve Notes.platform (Notes.env "disk full") Notes.server
          Notes.events) ≠
        responses (Notes.engine.serve Notes.platform (Notes.env "no such table") Notes.server
          Notes.events) := by
  refine ⟨rfl, Notes.alters _ _, ?_⟩
  rw [Notes.responses_eq, Notes.responses_eq]
  intro h
  have hmessage := congrArg McpError.message (Except.error.inj (List.cons.inj h).1)
  exact absurd hmessage (by decide)

end RustMcpCore.Dispatch
