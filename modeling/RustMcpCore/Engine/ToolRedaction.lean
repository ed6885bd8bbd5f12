import Mathlib.Data.Option.Defs
import RustMcpCore.Engine.ToolDispatch
import RustMcpCore.Library.TwoRuns

/-! # Tool calls hide internal errors

Two environments differ in what internal errors say. Where the engine redacts, a tool
call gives one result in both, and leaves the outside in one state.
-/
namespace RustMcpCore.Dispatch
open Library Outbound

/-- Two errors with the code `INTERNAL_ERROR`, whatever they say. -/
def Internal (error error' : McpError) : Prop :=
  error.code = ErrorCode.internalError ∧ error'.code = ErrorCode.internalError

/-- Any two texts. -/
def AnyText (_ _ : String) : Prop := True

/-- Values and errors with other codes are kept, and internal errors are related. -/
inductive Turns {A : Type} (R : McpError → McpError → Prop) :
    Except McpError A → Except McpError A → Prop
  | value (a : A) : Turns R (.ok a) (.ok a)
  | other {error : McpError} (code : error.code ≠ ErrorCode.internalError) :
      Turns R (.error error) (.error error)
  | internal {error error' : McpError} (internal : Internal error error')
      (related : R error error') : Turns R (.error error) (.error error')

theorem Turns.mono {A : Type} {R S : McpError → McpError → Prop} {result result' : Except McpError A}
    (h : Turns R result result') (hle : ∀ error error', R error error' → S error error') :
    Turns S result result' := by
  cases h with
  | value a => exact .value a
  | other code => exact .other code
  | internal internal related => exact .internal internal (hle _ _ related)

theorem Turns.map {A B : Type} {R : McpError → McpError → Prop} {result result' : Except McpError A}
    (h : Turns R result result') (f : A → B) : Turns R (result.map f) (result'.map f) := by
  cases h with
  | value a => exact .value (f a)
  | other code => exact .other code
  | internal internal related => exact .internal internal related

inductive OutcomeVaries : ToolOutcome → ToolOutcome → Prop
  | returned {result result' : Except McpError CallToolResult} (varies : Varies Internal result result') :
      OutcomeVaries (.returned result) (.returned result')
  | panicked (message message' : Option String) :
      OutcomeVaries (.panicked message) (.panicked message')

theorem OutcomeVaries.refl (outcome : ToolOutcome) : OutcomeVaries outcome outcome := by
  cases outcome with
  | returned result => exact .returned (.same result)
  | panicked message => exact .panicked message message

theorem rel_refl {A : Type} {R : A → A → Prop} (h : ∀ a, R a a) (given : Option A) :
    Option.Rel R given given := by
  cases given with
  | none => exact .none
  | some a => exact .some (h a)

/-- The outside moves on in the same way, and what it gives is related. -/
def Parallel {A W : Type} (R : A → A → Prop) (effect effect' : W → A × W) : Prop :=
  ∀ world, (effect' world).2 = (effect world).2 ∧ R (effect world).1 (effect' world).1

/-- What an internal error says may be something else in the second environment. Outside
of tool calls, it is then related by the given relation. -/
structure Alters {W : Type} (R : McpError → McpError → Prop) (env env' : Environment W) : Prop where
  json : env'.crates.json = env.crates.json
  models : env'.crates.models = env.crates.models
  schemas : env'.crates.schemas = env.crates.schemas
  base64 : env'.crates.base64 = env.crates.base64
  parsers : env'.crates.parsers = env.crates.parsers
  fromSlice : ∀ bytes, Varies AnyText (env.crates.fromSlice bytes) (env'.crates.fromSlice bytes)
  resultLen : ∀ result, Varies AnyText (env.crates.results.resultLen result)
    (env'.crates.results.resultLen result)
  contentValue : ∀ content, Varies AnyText (env.crates.results.contentValue content)
    (env'.crates.results.contentValue content)
  valueLen : ∀ value, Varies AnyText (env.crates.results.valueLen value)
    (env'.crates.results.valueLen value)
  resultValue : ∀ result, Turns R
    ((env.crates.results.resultValue result).mapError (McpError.internalError · none))
    ((env'.crates.results.resultValue result).mapError (McpError.internalError · none))
  completions : ∀ values, Turns R ((env.crates.completions values).mapError invalidCompletion)
    ((env'.crates.completions values).mapError invalidCompletion)
  isCancelled : env'.outside.isCancelled = env.outside.isCancelled
  pollsCancelled : env'.outside.pollsCancelled = env.outside.pollsCancelled
  sleep : env'.outside.sleep = env.outside.sleep
  sleepUnlessCancelled : env'.outside.sleepUnlessCancelled = env.outside.sleepUnlessCancelled
  send : ∀ request, Parallel (Varies Internal) (env.outside.send request) (env'.outside.send request)
  sendUnlessCancelled : ∀ token request, Parallel (Option.Rel (Varies Internal))
    (env.outside.sendUnlessCancelled token request) (env'.outside.sendUnlessCancelled token request)
  accessToken : ∀ upstream auth force, Parallel (Varies Internal)
    (env.outside.accessToken upstream auth force) (env'.outside.accessToken upstream auth force)
  callTool : ∀ plugin args params, Parallel OutcomeVaries
    (env.outside.callTool plugin args params) (env'.outside.callTool plugin args params)
  callToolUnlessCancelled : ∀ plugin args params, Parallel (Option.Rel OutcomeVaries)
    (env.outside.callToolUnlessCancelled plugin args params)
    (env'.outside.callToolUnlessCancelled plugin args params)
  listPrompts : ∀ plugin params, Parallel (Turns R)
    (env.outside.listPrompts plugin params) (env'.outside.listPrompts plugin params)
  getPrompt : ∀ plugin name args params, Parallel (Turns R)
    (env.outside.getPrompt plugin name args params) (env'.outside.getPrompt plugin name args params)
  listResources : ∀ plugin params, Parallel (Turns R)
    (env.outside.listResources plugin params) (env'.outside.listResources plugin params)
  readResource : ∀ plugin uri params, Parallel (Turns R)
    (env.outside.readResource plugin uri params) (env'.outside.readResource plugin uri params)
  complete : ∀ plugin request params, Parallel (Turns R)
    (env.outside.complete plugin request params) (env'.outside.complete plugin request params)

theorem Alters.mono {W : Type} {R S : McpError → McpError → Prop} {env env' : Environment W}
    (h : Alters R env env') (hle : ∀ error error', R error error' → S error error') :
    Alters S env env' :=
  { h with
    resultValue := fun result => (h.resultValue result).mono hle
    completions := fun values => (h.completions values).mono hle
    listPrompts := fun plugin params world =>
      ⟨(h.listPrompts plugin params world).1, (h.listPrompts plugin params world).2.mono hle⟩
    getPrompt := fun plugin name args params world =>
      ⟨(h.getPrompt plugin name args params world).1,
        (h.getPrompt plugin name args params world).2.mono hle⟩
    listResources := fun plugin params world =>
      ⟨(h.listResources plugin params world).1, (h.listResources plugin params world).2.mono hle⟩
    readResource := fun plugin uri params world =>
      ⟨(h.readResource plugin uri params world).1, (h.readResource plugin uri params world).2.mono hle⟩
    complete := fun plugin request params world =>
      ⟨(h.complete plugin request params world).1, (h.complete plugin request params world).2.mono hle⟩ }

/-! ## What a client sees -/

section Client
variable {config : McpConfig}

theorem shouldRedact_of_internal (hidden : config.exposeInternalErrorDetails = false)
    {error : McpError} (h : error.code = ErrorCode.internalError) :
    config.shouldRedactInternalErrorForClient error = true :=
  decide_eq_true ⟨h, hidden⟩

theorem toolErrorResult_eq (hidden : config.exposeInternalErrorDetails = false)
    {error error' : McpError} (h : Internal error error') :
    config.toolErrorResultFromError error = config.toolErrorResultFromError error' := by
  unfold McpConfig.toolErrorResultFromError McpConfig.sanitizeToolErrorMessage
  rw [shouldRedact_of_internal hidden h.1, shouldRedact_of_internal hidden h.2]
  rfl

theorem sanitizeClientError_eq (hidden : config.exposeInternalErrorDetails = false)
    {error error' : McpError} (h : Internal error error') :
    config.sanitizeClientError error = config.sanitizeClientError error' := by
  unfold McpConfig.sanitizeClientError
  rw [shouldRedact_of_internal hidden h.1, shouldRedact_of_internal hidden h.2]
  rfl

/-- Related results are one result for the client. -/
theorem sanitized_eq {A : Type} (hidden : config.exposeInternalErrorDetails = false)
    {result result' : Except McpError A} (h : Varies Internal result result') :
    result'.mapError config.sanitizeClientError = result.mapError config.sanitizeClientError := by
  cases h with
  | same => rfl
  | errors related => exact congrArg Except.error (sanitizeClientError_eq hidden related).symm

end Client

/-! ## Requests of HTTP tools -/

/-- The two internal errors of a request that an upstream takes part in. -/
inductive HttpVaries : HttpExecutionError → HttpExecutionError → Prop
  | request {error error' : McpError} (internal : Internal error error') :
      HttpVaries (.request error) (.request error')
  | response {error error' : McpError} (internal : Internal error error') :
      HttpVaries (.response error) (.response error')

/-- Two runs that leave the outside in one state. -/
def Abreast {A W : Type} (R : A → A → Prop) (ended ended' : A × Traffic W) : Prop :=
  ended'.2.world = ended.2.world ∧ R ended.1 ended'.1

def Tandem {A W : Type} (R : A → A → Prop) (run run' : Traffic W → A × Traffic W) : Prop :=
  ∀ traffic traffic', traffic'.world = traffic.world → Abreast R (run traffic) (run' traffic')

section Steps
variable {A W : Type} {R : A → A → Prop} {effect effect' : W → A × W} {traffic traffic' : Traffic W}

theorem Parallel.rfl (hrefl : ∀ a, R a a) : Parallel R effect effect := fun _ => ⟨Eq.refl _, hrefl _⟩

theorem step_abreast (h : Parallel R effect effect') (hworld : traffic'.world = traffic.world) :
    Abreast R (traffic.step effect) (traffic'.step effect') := by
  unfold Abreast Traffic.step
  rw [hworld]
  exact h traffic.world

theorem step_same (effect : W → A × W) (hworld : traffic'.world = traffic.world) :
    Abreast Eq (traffic.step effect) (traffic'.step effect) :=
  step_abreast (Parallel.rfl Eq.refl) hworld

theorem exchange_abreast {S : Option Answer → Option Answer → Prop}
    {effect effect' : W → Option Answer × W} (h : Parallel S effect effect')
    (request : OutboundHttpRequest) (hworld : traffic'.world = traffic.world) :
    Abreast S (traffic.exchange request effect) (traffic'.exchange request effect') := by
  unfold Abreast Traffic.exchange
  rw [hworld]
  exact h traffic.world

end Steps

section Requests
variable {W : Type} {R : McpError → McpError → Prop} {env env' : Environment W}

theorem readAnswer_varies (h : Alters R env env') {answer answer' : Answer}
    (hanswer : Varies Internal answer answer') :
    Varies HttpVaries (readAnswer env.crates.fromSlice answer)
      (readAnswer env'.crates.fromSlice answer') := by
  cases hanswer with
  | errors related => exact .errors (.request related)
  | same =>
    cases answer with
    | error error => exact .same _
    | ok response =>
      unfold readAnswer OutboundHttpResponse.json
      simp only
      split
      · refine Varies.mapError ?_ fun _ _ => HttpVaries.response
        exact (h.fromSlice response.body).mapError fun _ _ _ => ⟨Eq.refl _, Eq.refl _⟩
      · exact .same _

theorem readOutcome_varies (h : Alters R env env') {answer answer' : Option Answer}
    (hanswer : Option.Rel (Varies Internal) answer answer') :
    Varies HttpVaries (readOutcome env.crates.fromSlice answer)
      (readOutcome env'.crates.fromSlice answer') := by
  cases hanswer with
  | none => exact .same _
  | some hsome => exact readAnswer_varies h hsome

theorem sendOr_parallel (h : Alters R env env') (request : OutboundHttpRequest)
    (cancellation : Option CancellationToken) :
    Parallel (Option.Rel (Varies Internal)) (env.outside.sendOr request cancellation)
      (env'.outside.sendOr request cancellation) := by
  intro world
  cases cancellation with
  | none =>
    obtain ⟨hworld, hanswer⟩ := h.send request world
    exact ⟨hworld, .some hanswer⟩
  | some token => exact h.sendUnlessCancelled token request world

variable {baseUrl : String} {template : HttpRequestTemplate} {args : Value}

theorem executeHttpDetailed_tandem (h : Alters R env env')
    (cancellation : Option CancellationToken) :
    Tandem (Varies HttpVaries)
      (executeHttpDetailed env.crates.json env.crates.fromSlice env.outside.toOutside baseUrl
        template args cancellation)
      (executeHttpDetailed env'.crates.json env'.crates.fromSlice env'.outside.toOutside baseUrl
        template args cancellation) := by
  intro traffic traffic' hworld
  unfold executeHttpDetailed
  rw [h.json]
  cases prepareRequest env.crates.json baseUrl template args with
  | error error => exact ⟨hworld, .same _⟩
  | ok request =>
    obtain ⟨hafter, houtcome⟩ :=
      exchange_abreast (sendOr_parallel h request cancellation) request hworld
    exact ⟨hafter, readOutcome_varies h houtcome⟩

theorem executeOrCancel_tandem (h : Alters R env env') (token : CancellationToken) :
    Tandem (Varies HttpVaries)
      (executeOrCancel env.crates.json env.crates.fromSlice env.outside.toOutside baseUrl
        template args token)
      (executeOrCancel env'.crates.json env'.crates.fromSlice env'.outside.toOutside baseUrl
        template args token) := by
  intro traffic traffic' hworld
  unfold executeOrCancel
  rw [h.pollsCancelled]
  have hpolled := step_same (env.outside.pollsCancelled token) hworld
  cases hrun : traffic.step (env.outside.pollsCancelled token) with
  | mk polled after =>
    cases hrun' : traffic'.step (env.outside.pollsCancelled token) with
    | mk polled' after' =>
      rw [hrun, hrun'] at hpolled
      obtain ⟨hafter, rfl⟩ := hpolled
      cases polled with
      | true => exact ⟨hafter, .same _⟩
      | false => exact executeHttpDetailed_tandem h (some token) after after' hafter

theorem executeHttpRequestWithCancellation_tandem (h : Alters R env env')
    (params : HttpRequestExecutionParams) :
    Tandem (Varies HttpVaries)
      (executeHttpRequestWithCancellation env.crates env.outside params template)
      (executeHttpRequestWithCancellation env'.crates env'.outside params template) := by
  unfold executeHttpRequestWithCancellation
  split
  · exact executeOrCancel_tandem h _
  · exact executeHttpDetailed_tandem h none
  · exact executeHttpDetailed_tandem h none

theorem shouldRetry_eq {result result' : Except HttpExecutionError Value}
    (h : Varies HttpVaries result result') (enabled : Bool) (retry : OutboundRetryConfig) :
    shouldRetryHttpExecution enabled result' retry = shouldRetryHttpExecution enabled result retry := by
  cases h with
  | same => rfl
  | errors related =>
    cases related with
    | request => rfl
    | response => rfl

variable {params : RetryExecutionParams HttpExecutionError} {traffic traffic' : Traffic W}

theorem cancelledBefore_abreast (h : Alters R env env') (hworld : traffic'.world = traffic.world) :
    Abreast Eq (cancelledBefore env.outside.toOutside params traffic)
      (cancelledBefore env'.outside.toOutside params traffic') := by
  unfold cancelledBefore
  rw [h.isCancelled]
  split
  · exact step_same _ hworld
  · exact ⟨hworld, rfl⟩

theorem delayed_abreast (h : Alters R env env') (delayMs : UInt64)
    (hworld : traffic'.world = traffic.world) :
    Abreast Eq (delayed env.outside.toOutside params delayMs traffic)
      (delayed env'.outside.toOutside params delayMs traffic') := by
  unfold delayed
  rw [h.sleep, h.sleepUnlessCancelled]
  split
  · exact step_same _ hworld
  · exact step_same _ hworld

variable {operation operation' : Traffic W → Except HttpExecutionError Value × Traffic W}
  {enabled : Bool}

theorem retryRound_tandem (h : Alters R env env')
    (hoperation : Tandem (Varies HttpVaries) operation operation') (retry : OutboundRetryConfig)
    {again again' : Option (Traffic W → Except HttpExecutionError Value × Traffic W)}
    (hagain : Option.Rel (Tandem (Varies HttpVaries)) again again') :
    Tandem (Varies HttpVaries)
      (retryRound env.outside.toOutside params operation (shouldRetryHttpExecution enabled) retry
        again)
      (retryRound env'.outside.toOutside params operation' (shouldRetryHttpExecution enabled) retry
        again') := by
  intro traffic traffic' hworld
  have hbefore : Abreast Eq (cancelledBefore env.outside.toOutside params traffic)
    (cancelledBefore env'.outside.toOutside params traffic') := cancelledBefore_abreast h hworld
  unfold retryRound
  cases hrun : cancelledBefore env.outside.toOutside params traffic with
  | mk cancelled after =>
    cases hrun' : cancelledBefore env'.outside.toOutside params traffic' with
    | mk cancelled' after' =>
      rw [hrun, hrun'] at hbefore
      obtain ⟨hafter, rfl⟩ := hbefore
      cases cancelled with
      | true => exact ⟨hafter, .same _⟩
      | false =>
        have htried := hoperation after after' hafter
        simp only
        cases hresult : operation after with
        | mk result tried =>
          cases hresult' : operation' after' with
          | mk result' tried' =>
            rw [hresult, hresult'] at htried
            cases hagain with
            | none => exact htried
            | some hrest =>
              obtain ⟨htried, hvaries⟩ := htried
              simp only [shouldRetry_eq hvaries]
              split
              · have hdelay : Abreast Eq (delayed env.outside.toOutside params retry.delayMs tried)
                  (delayed env'.outside.toOutside params retry.delayMs tried') :=
                  delayed_abreast h retry.delayMs htried
                cases hrested : delayed env.outside.toOutside params retry.delayMs tried with
                | mk dropped rested =>
                  cases hrested' : delayed env'.outside.toOutside params retry.delayMs tried' with
                  | mk dropped' rested' =>
                    rw [hrested, hrested'] at hdelay
                    obtain ⟨hrested, rfl⟩ := hdelay
                    cases dropped with
                    | true => exact ⟨hrested, .same _⟩
                    | false => exact hrest rested rested' hrested
              · exact ⟨htried, hvaries⟩

theorem retryLoop_tandem (h : Alters R env env')
    (hoperation : Tandem (Varies HttpVaries) operation operation') (retry : OutboundRetryConfig)
    (left : ℕ) :
    Tandem (Varies HttpVaries)
      (retryLoop env.outside.toOutside params operation (shouldRetryHttpExecution enabled) retry left)
      (retryLoop env'.outside.toOutside params operation' (shouldRetryHttpExecution enabled) retry
        left) := by
  induction left with
  | zero => exact retryRound_tandem h hoperation retry .none
  | succ left ih => exact retryRound_tandem h hoperation retry (.some ih)

theorem executeHttpRequestWithRetry_tandem (h : Alters R env env')
    (params : HttpRequestExecutionParams) (retry : HttpRetryExecutionParams) :
    Tandem (Varies HttpVaries)
      (executeHttpRequestWithRetry env.crates env.outside params template retry)
      (executeHttpRequestWithRetry env'.crates env'.outside params template retry) := by
  have hoperation : Tandem (Varies HttpVaries)
      (executeHttpRequestWithCancellation env.crates env.outside params template)
      (executeHttpRequestWithCancellation env'.crates env'.outside params template) :=
    executeHttpRequestWithCancellation_tandem h params
  intro traffic traffic' hworld
  unfold executeHttpRequestWithRetry executeWithRetry
  split
  · exact hoperation traffic traffic' hworld
  · split
    · exact hoperation traffic traffic' hworld
    · exact retryLoop_tandem h hoperation _ _ traffic traffic' hworld

end Requests

/-! ## Tool calls -/

section Calls
variable {engine : Engine} {W : Type} {R : McpError → McpError → Prop} {env env' : Environment W}

theorem buildHeaders_eq (h : Alters R env env') (upstream : UpstreamConfig)
    (oauth2Bearer : Option String) (toolHeaders : Option Value) :
    engine.buildHeaders env'.crates upstream oauth2Bearer toolHeaders =
      engine.buildHeaders env.crates upstream oauth2Bearer toolHeaders := by
  unfold Engine.buildHeaders
  rw [h.base64]

variable (engine) in
theorem executeHttpRequestFlow_tandem (h : Alters R env env') (dispatch : HttpDispatchParams)
    (template : HttpRequestTemplate) (context : Option Oauth2ExecutionContext) :
    Tandem (Varies HttpVaries)
      (engine.executeHttpRequestFlow env.crates env.outside dispatch template context)
      (engine.executeHttpRequestFlow env'.crates env'.outside dispatch template context) := by
  intro traffic traffic' hworld
  have hfirst : Abreast (Varies HttpVaries)
      (executeHttpRequestWithRetry env.crates env.outside dispatch.request template dispatch.retry
        traffic)
      (executeHttpRequestWithRetry env'.crates env'.outside dispatch.request template
        dispatch.retry traffic') :=
    executeHttpRequestWithRetry_tandem h dispatch.request dispatch.retry traffic traffic' hworld
  unfold Engine.executeHttpRequestFlow
  cases hrun : executeHttpRequestWithRetry env.crates env.outside dispatch.request template
      dispatch.retry traffic with
  | mk result tried =>
    cases hrun' : executeHttpRequestWithRetry env'.crates env'.outside dispatch.request template
        dispatch.retry traffic' with
    | mk result' tried' =>
      rw [hrun, hrun'] at hfirst
      obtain ⟨htried, hvaries⟩ := hfirst
      cases hvaries with
      | errors related =>
        -- Neither error is a status, so there is no second round.
        cases related with
        | request internal =>
          simp only [HttpExecutionError.statusCode, reduceCtorEq, and_false, if_false]
          exact ⟨htried, .errors (.request internal)⟩
        | response internal =>
          simp only [HttpExecutionError.statusCode, reduceCtorEq, and_false, if_false]
          exact ⟨htried, .errors (.response internal)⟩
      | same =>
        cases result with
        | ok response => exact ⟨htried, .same _⟩
        | error error =>
          simp only
          split
          · cases context with
            | none => exact ⟨htried, .same _⟩
            | some context =>
              have htoken :=
                step_abreast (h.accessToken dispatch.upstreamName context.auth true) htried
              simp only
              cases hfresh : tried.step
                  (env.outside.accessToken dispatch.upstreamName context.auth true) with
              | mk token refreshed =>
                cases hfresh' : tried'.step
                    (env'.outside.accessToken dispatch.upstreamName context.auth true) with
                | mk token' refreshed' =>
                  rw [hfresh, hfresh'] at htoken
                  obtain ⟨hrefreshed, hvaries⟩ := htoken
                  cases hvaries with
                  | errors internal => exact ⟨hrefreshed, .errors (.request internal)⟩
                  | same =>
                    cases token with
                    | error error => exact ⟨hrefreshed, .same _⟩
                    | ok bearer =>
                      simp only [buildHeaders_eq h]
                      exact executeHttpRequestWithRetry_tandem h dispatch.request dispatch.retry
                        refreshed refreshed' hrefreshed
          · exact ⟨htried, .same _⟩

theorem resolveOauth2Context_abreast (h : Alters R env env') (upstreamName : String)
    (upstream : UpstreamConfig) {traffic traffic' : Traffic W}
    (hworld : traffic'.world = traffic.world) :
    Abreast (Varies Internal)
      (Engine.resolveOauth2Context env.outside upstreamName upstream traffic)
      (Engine.resolveOauth2Context env'.outside upstreamName upstream traffic') := by
  unfold Engine.resolveOauth2Context
  split
  · rename_i auth _
    obtain ⟨hafter, htoken⟩ := step_abreast (h.accessToken upstreamName auth false) hworld
    exact ⟨hafter, htoken.map _⟩
  · exact ⟨hworld, .same _⟩

theorem buildHttpToolResult_eq (h : Alters R env env') (toolCfg : ToolConfig) (args response : Value) :
    buildHttpToolResult env'.crates toolCfg args response =
      buildHttpToolResult env.crates toolCfg args response := by
  unfold buildHttpToolResult
  rw [h.json, h.models, h.schemas]

variable (hidden : engine.config.exposeInternalErrorDetails = false)
include hidden

theorem toolResultOfHttpError_eq {error error' : HttpExecutionError} (h : HttpVaries error error') :
    engine.toolResultOfHttpError error' = engine.toolResultOfHttpError error := by
  cases h with
  | request internal => exact (toolErrorResult_eq hidden internal).symm
  | response internal => exact (toolErrorResult_eq hidden internal).symm

theorem executeHttpTool_tandem (h : Alters R env env') (toolCfg : ToolConfig) (args : Value)
    (request : Option RequestContext) :
    Tandem Eq (engine.executeHttpTool env.crates env.outside toolCfg args request)
      (engine.executeHttpTool env'.crates env'.outside toolCfg args request) := by
  intro traffic traffic' hworld
  unfold Engine.executeHttpTool
  split
  · exact ⟨hworld, rfl⟩
  · rename_i executeHttp _
    split
    · exact ⟨hworld, rfl⟩
    · rename_i upstream _
      have hresolved := resolveOauth2Context_abreast h executeHttp.upstream upstream hworld
      cases hrun : Engine.resolveOauth2Context env.outside executeHttp.upstream upstream traffic with
      | mk context after =>
        cases hrun' : Engine.resolveOauth2Context env'.outside executeHttp.upstream upstream
            traffic' with
        | mk context' after' =>
          rw [hrun, hrun'] at hresolved
          obtain ⟨hafter, hcontext⟩ := hresolved
          cases hcontext with
          | errors internal => exact ⟨hafter, congrArg Except.ok (toolErrorResult_eq hidden internal)⟩
          | same =>
            cases context with
            | error error => exact ⟨hafter, rfl⟩
            | ok context =>
              have htemplate : engine.buildHttpRequestTemplate env'.crates executeHttp upstream
                  (context.map (·.bearer)) =
                  engine.buildHttpRequestTemplate env.crates executeHttp upstream
                    (context.map (·.bearer)) := by
                unfold Engine.buildHttpRequestTemplate
                rw [buildHeaders_eq h]
              simp only [htemplate]
              generalize engine.dispatchParams toolCfg executeHttp upstream args request context =
                dispatch
              generalize engine.buildHttpRequestTemplate env.crates executeHttp upstream
                (context.map (·.bearer)) = template
              have hflow := executeHttpRequestFlow_tandem engine h dispatch template context
                after after' hafter
              cases hended : engine.executeHttpRequestFlow env.crates env.outside dispatch template
                  context after with
              | mk result ended =>
                cases hended' : engine.executeHttpRequestFlow env'.crates env'.outside dispatch
                    template context after' with
                | mk result' ended' =>
                  rw [hended, hended'] at hflow
                  obtain ⟨hended, hvaries⟩ := hflow
                  cases hvaries with
                  | errors related =>
                    exact ⟨hended, congrArg Except.ok (toolResultOfHttpError_eq hidden related).symm⟩
                  | same =>
                    cases result with
                    | error error => exact ⟨hended, rfl⟩
                    | ok response =>
                      exact ⟨hended, (buildHttpToolResult_eq h toolCfg args response).symm⟩

theorem finishPluginCall_varies (h : Alters R env env') (toolCfg : ToolConfig)
    {outcome outcome' : ToolOutcome} (houtcome : OutcomeVaries outcome outcome') :
    OutcomeVaries (finishPluginCall env.crates engine.config toolCfg outcome)
      (finishPluginCall env'.crates engine.config toolCfg outcome') := by
  have hcheck : ∀ result, checkPluginResult env'.crates engine.config toolCfg result =
      checkPluginResult env.crates engine.config toolCfg result := by
    intro result
    unfold checkPluginResult
    rw [h.json, h.schemas]
  cases houtcome with
  | panicked message message' => exact .panicked message message'
  | returned hvaries =>
    cases hvaries with
    | errors internal =>
      have hsame := toolErrorResult_eq hidden internal
      unfold finishPluginCall
      simp only [hsame]
      exact .returned (.same _)
    | same =>
      rename_i result
      cases result with
      | error error => exact .returned (.same _)
      | ok result =>
        unfold finishPluginCall
        simp only [hcheck]
        exact .returned (.same _)

theorem executePluginTool_tandem (h : Alters R env env') (toolCfg : ToolConfig) (args : Value)
    (request : Option RequestContext) :
    Tandem OutcomeVaries (engine.executePluginTool env.crates env.outside toolCfg args request)
      (engine.executePluginTool env'.crates env'.outside toolCfg args request) := by
  intro traffic traffic' hworld
  unfold Engine.executePluginTool
  split
  · exact ⟨hworld, .returned (.same _)⟩
  · split
    · exact ⟨hworld, .returned (.same _)⟩
    · split
      · exact ⟨hworld, .returned (.same _)⟩
      · rename_i plugin _
        simp only
        split
        · generalize hparams : PluginCallParams.mk _ _ = params
          have hcall := step_abreast (h.callToolUnlessCancelled plugin args params) hworld
          cases hrun : traffic.step (env.outside.callToolUnlessCancelled plugin args params) with
          | mk outcome after =>
            cases hrun' : traffic'.step
                (env'.outside.callToolUnlessCancelled plugin args params) with
            | mk outcome' after' =>
              rw [hrun, hrun'] at hcall
              obtain ⟨hafter, houtcome⟩ := hcall
              cases houtcome with
              | none => exact ⟨hafter, .returned (.same _)⟩
              | some hsome => exact ⟨hafter, finishPluginCall_varies hidden h toolCfg hsome⟩
        · generalize hparams : PluginCallParams.mk _ _ = params
          obtain ⟨hafter, houtcome⟩ := step_abreast (h.callTool plugin args params) hworld
          exact ⟨hafter, finishPluginCall_varies hidden h toolCfg houtcome⟩

theorem executeToolConfig_tandem (h : Alters R env env') (toolCfg : ToolConfig) (args : Value)
    (request : Option RequestContext) :
    Tandem OutcomeVaries (engine.executeToolConfig env.crates env.outside toolCfg args request)
      (engine.executeToolConfig env'.crates env'.outside toolCfg args request) := by
  intro traffic traffic' hworld
  unfold Engine.executeToolConfig
  split
  · obtain ⟨hafter, hresult⟩ :=
      executeHttpTool_tandem hidden h toolCfg args request traffic traffic' hworld
    simp only [← hresult]
    exact ⟨hafter, .returned (.same _)⟩
  · exact executePluginTool_tandem hidden h toolCfg args request traffic traffic' hworld

end Calls

/-! ## Limits and delivery -/

section Delivery
variable {engine : Engine} {W : Type} {R : McpError → McpError → Prop} {env env' : Environment W}

theorem sizeCheckFailed_internal (what text text' : String) (_ : AnyText text text') :
    Internal (sizeCheckFailed what text) (sizeCheckFailed what text') :=
  ⟨rfl, rfl⟩

theorem measureBlock_varies (h : Alters R env env') (bytes : ResponseBytes) (content : Content) :
    Varies Internal (measureBlock env.crates.results bytes content)
      (measureBlock env'.crates.results bytes content) := by
  unfold measureBlock
  refine ((h.contentValue content).mapError (sizeCheckFailed_internal _)).bind fun value => ?_
  refine ((h.valueLen value).mapError (sizeCheckFailed_internal _)).bind fun blockBytes => ?_
  exact .same _

theorem measureResultBytes_varies (h : Alters R env env') (result : CallToolResult) :
    Varies Internal (measureResultBytes env.crates.results result)
      (measureResultBytes env'.crates.results result) := by
  unfold measureResultBytes
  refine ((h.resultLen result).mapError (sizeCheckFailed_internal _)).bind fun total => ?_
  have hstructured : Varies Internal
      (measureStructured env.crates.results result.structuredContent)
      (measureStructured env'.crates.results result.structuredContent) := by
    unfold measureStructured
    split
    · exact .same _
    · exact (h.valueLen _).mapError (sizeCheckFailed_internal _)
  refine hstructured.bind fun structured => ?_
  exact Varies.foldlM (measureBlock_varies h) result.content _

theorem enforceResponseLimits_varies (h : Alters R env env') (result : CallToolResult)
    (limits : Option ResponseLimitsConfig) :
    Varies Internal (enforceResponseLimits env.crates.results result limits)
      (enforceResponseLimits env'.crates.results result limits) := by
  cases limits with
  | none => exact .same _
  | some limits => exact (measureResultBytes_varies h result).bind fun _ => .same _

theorem catchUnwind_varies {outcome outcome' : ToolOutcome} (houtcome : OutcomeVaries outcome outcome')
    (hidden : engine.config.exposeInternalErrorDetails = false) :
    Varies Internal (engine.catchUnwind outcome) (engine.catchUnwind outcome') := by
  cases houtcome with
  | returned hvaries => exact hvaries
  | panicked message message' =>
    have hinternal : Internal (mapToolPanicToError message) (mapToolPanicToError message') := by
      constructor
      · cases message with
        | _ => rfl
      · cases message' with
        | _ => rfl
    unfold Engine.catchUnwind
    simp only [toolErrorResult_eq hidden hinternal]
    exact .same _

/-- A tool call is the same in both environments, for the client and for the outside. -/
theorem executeToolWithContext_tandem (h : Alters R env env')
    (hidden : engine.config.exposeInternalErrorDetails = false) (name : String) (args : Value)
    (request : Option RequestContext) :
    Tandem Eq (engine.executeToolWithContext env.crates env.outside name args request)
      (engine.executeToolWithContext env'.crates env'.outside name args request) := by
  intro traffic traffic' hworld
  unfold Engine.executeToolWithContext
  split
  · exact ⟨hworld, rfl⟩
  · rename_i toolCfg _
    obtain ⟨hafter, houtcome⟩ :=
      executeToolConfig_tandem hidden h toolCfg args request traffic traffic' hworld
    refine ⟨hafter, (sanitized_eq hidden ?_).symm⟩
    refine (catchUnwind_varies houtcome hidden).bind fun result => ?_
    exact (enforceResponseLimits_varies h result _).bind fun _ => .same _

end Delivery

end RustMcpCore.Dispatch
