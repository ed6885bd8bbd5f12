import RustMcpCore.Engine.ToolDispatch

/-! # Failures of HTTP tools

Up to the answer of the upstream every failure of an HTTP tool becomes a result. What
is made of the answer may fail once more, and that failure is an error of the call.
-/
namespace RustMcpCore.Dispatch
open Library Outbound

section Mapping
variable (crates : Crates) (toolCfg : ToolConfig) (args response : Value)

def OutputAccepted (structured : Value) : Prop :=
  ∀ schema, toolCfg.outputSchema = some schema → SchemaAccepts crates.schemas schema structured

def ItemsFit (ctx : RenderContext) (items : List Value) : Prop :=
  ∀ item ∈ items, Templating.Renders crates.json ctx item ∧
    ∀ rendered, Templating.renderValue crates.json item ctx = .ok rendered →
      WellFormedBlock crates.models rendered

def TemplateFits (ctx : RenderContext) (template : Value) : Prop :=
  Templating.Renders crates.json ctx template ∧
    ∀ structured, Templating.renderValue crates.json template ctx = .ok structured →
      OutputAccepted crates toolCfg structured

/-- The response has what the response template of the tool asks for, and what comes of
it has the shape of content blocks or meets the output schema. -/
def ResponseFits : Prop :=
  let ctx : RenderContext := { args, response := some response }
  match toolCfg.response with
  | some (.content config) => ItemsFit crates ctx config.items
  | some (.structured { template := some template, .. }) => TemplateFits crates toolCfg ctx template
  | some (.structured { template := none, .. }) | none => OutputAccepted crates toolCfg response

variable {crates toolCfg args response}

theorem buildHttpToolResult_ok :
    (∃ result, buildHttpToolResult crates toolCfg args response = .ok result) ↔
      ResponseFits crates toolCfg args response := by
  unfold buildHttpToolResult ResponseFits
  rcases toolCfg.response with _ | config
  · exact buildStructuredResult_ok
  · cases config with
    | content config => exact exists_ok_map.trans buildContentBlocks_ok
    | structured config =>
      obtain ⟨template, fallback⟩ := config
      simp only
      cases template with
      | none => exact buildStructuredResult_ok
      | some template =>
        simp only [exists_ok_bind, buildStructuredResult_ok]
        unfold TemplateFits
        rw [← Templating.renderValue_ok]
        constructor
        · rintro ⟨structured, hrendered, haccepted⟩
          refine ⟨⟨structured, hrendered⟩, fun other hother => ?_⟩
          cases hrendered.symm.trans hother
          exact haccepted
        · rintro ⟨⟨structured, hrendered⟩, haccepted⟩
          exact ⟨structured, hrendered, haccepted structured hrendered⟩

end Mapping

section Flow
variable {engine : Engine} {crates : Crates} {W : Type} {outside : EngineOutside W}

theorem shouldRetryHttpExecution_ok (enabled : Bool) (value : Value) (retry : OutboundRetryConfig) :
    shouldRetryHttpExecution enabled (.ok value) retry = false := rfl

theorem executeHttpRequestWithCancellation_faithful {params : HttpRequestExecutionParams}
    {template : HttpRequestTemplate} :
    Faithful crates.fromSlice (executeHttpRequestWithCancellation crates outside params template) := by
  intro traffic hquiet
  unfold executeHttpRequestWithCancellation
  split
  · exact executeOrCancel_faithful traffic hquiet
  · exact executeHttpDetailed_faithful traffic hquiet
  · exact executeHttpDetailed_faithful traffic hquiet

theorem executeHttpRequestWithRetry_faithful {params : HttpRequestExecutionParams}
    {template : HttpRequestTemplate} {retry : HttpRetryExecutionParams} :
    Faithful crates.fromSlice (executeHttpRequestWithRetry crates outside params template retry) :=
  executeWithRetry_faithful executeHttpRequestWithCancellation_faithful
    (shouldRetryHttpExecution_ok retry.oauth401RefreshEnabled)

/-- The flow gives a response exactly if its last request was answered with it. -/
theorem executeHttpRequestFlow_faithful {dispatch : HttpDispatchParams}
    {template : HttpRequestTemplate} {context : Option Oauth2ExecutionContext} :
    Faithful crates.fromSlice (engine.executeHttpRequestFlow crates outside dispatch template context) := by
  intro traffic hquiet response
  have hattempts : Faithful crates.fromSlice (executeHttpRequestWithRetry crates outside
      dispatch.request template dispatch.retry) := executeHttpRequestWithRetry_faithful
  have hfirst := hattempts traffic hquiet
  unfold Engine.executeHttpRequestFlow
  cases hresult : executeHttpRequestWithRetry crates outside dispatch.request template
      dispatch.retry traffic with
  | mk result tried =>
    rw [hresult] at hfirst
    cases result with
    | ok value => exact hfirst response
    | error error =>
      have hfailed : ∀ response, ¬ AnsweredWith crates.fromSlice tried.exchanges response := by
        intro value hanswered
        cases (hfirst value).mpr hanswered
      simp only
      split
      · cases context with
        | none => exact hfirst response
        | some context =>
          simp only
          cases htoken : tried.step (outside.accessToken dispatch.upstreamName context.auth true) with
          | mk token refreshed =>
            have hsame : refreshed.exchanges = tried.exchanges := by
              rw [← Traffic.exchanges_step tried, htoken]
            replace hfailed : ∀ response, ¬ AnsweredWith crates.fromSlice refreshed.exchanges response := by
              rwa [hsame]
            cases token with
            | error error => exact iff_of_false nofun (hfailed response)
            | ok bearer => exact executeHttpRequestWithRetry_faithful refreshed hfailed response
      · exact hfirst response

variable (outside) in
theorem exchanges_resolveOauth2Context (upstreamName : String) (upstream : UpstreamConfig)
    (traffic : Traffic W) :
    (Engine.resolveOauth2Context outside upstreamName upstream traffic).2.exchanges =
      traffic.exchanges := by
  unfold Engine.resolveOauth2Context
  split
  · rfl
  · rfl

end Flow

/-- A call gives a result: a failure, or what the tool makes of the response. -/
def ReportsFailures (crates : Crates) (toolCfg : ToolConfig) (args : Value) {W : Type}
    (run : ToolOutcome × Traffic W) : Prop :=
  ∃ result, run.1 = .returned (.ok result) ∧
    (result.isError = some true ∨
      ∃ response, AnsweredWith crates.fromSlice run.2.exchanges response ∧
        buildHttpToolResult crates toolCfg args response = .ok result)

section Reports
variable {engine : Engine} {crates : Crates} {W : Type} {outside : EngineOutside W}
  {toolCfg : ToolConfig} {executeHttp : ExecuteHttpConfig} {args : Value}
  {request : Option RequestContext}

theorem isError_toolResultOfHttpError (error : HttpExecutionError) :
    (engine.toolResultOfHttpError error).isError = some true := by
  cases error with
  | _ => rfl

theorem not_answered_nil (response : Value) : ¬ AnsweredWith crates.fromSlice [] response :=
  fun ⟨_, hlast, _⟩ => by cases hlast

variable (engine toolCfg args) in
/-- Once the flow is over, only the mapping of a response can go wrong. -/
theorem reports_response {result : Except HttpExecutionError Value} {traffic : Traffic W}
    (hresult : ∀ response, result = .ok response ↔ AnsweredWith crates.fromSlice traffic.exchanges response) :
    ReportsFailures crates toolCfg args
      (match result with
        | .error error => (.returned (.ok (engine.toolResultOfHttpError error)), traffic)
        | .ok response => (.returned (buildHttpToolResult crates toolCfg args response), traffic)) ↔
      ∀ response, AnsweredWith crates.fromSlice traffic.exchanges response →
        ResponseFits crates toolCfg args response := by
  cases result with
  | error error =>
    refine iff_of_true ⟨_, rfl, .inl (isError_toolResultOfHttpError error)⟩ fun value h => ?_
    cases (hresult value).mpr h
  | ok response =>
    have hanswered := (hresult response).mp rfl
    constructor
    · rintro ⟨mapped, hmapped, -⟩ other hother
      cases (hresult other).mpr hother
      exact buildHttpToolResult_ok.mp ⟨mapped, Unwound.returned.inj hmapped⟩
    · intro h
      obtain ⟨mapped, hmapped⟩ := buildHttpToolResult_ok.mpr (h response hanswered)
      exact ⟨mapped, congrArg Unwound.returned hmapped, .inr ⟨response, hanswered, hmapped⟩⟩

end Reports

/-- The failures of an HTTP tool are results exactly if its upstream is configured and
the response it ends with, if there is one, fits the tool. -/
theorem executeToolConfig_reports_failures (engine : Engine) (crates : Crates) {W : Type}
    (outside : EngineOutside W) (toolCfg : ToolConfig) (executeHttp : ExecuteHttpConfig)
    (http : toolCfg.execute = .http executeHttp) (args : Value) (request : Option RequestContext)
    (world : W) :
    ReportsFailures crates toolCfg args
        (engine.executeToolConfig crates outside toolCfg args request ⟨world, []⟩) ↔
      (∃ upstream, engine.config.upstreams.lookup executeHttp.upstream = some upstream) ∧
      ∀ response, AnsweredWith crates.fromSlice
          (engine.executeToolConfig crates outside toolCfg args request ⟨world, []⟩).2.exchanges
          response →
        ResponseFits crates toolCfg args response := by
  unfold Engine.executeToolConfig Engine.executeHttpTool
  simp only [http, ExecuteConfig.executeType, ExecuteConfig.asHttp]
  cases engine.config.upstreams.lookup executeHttp.upstream with
  | none => exact iff_of_false (fun ⟨_, h, _⟩ => by cases h) fun ⟨⟨_, h⟩, _⟩ => by cases h
  | some upstream =>
    simp only [Option.some.injEq, exists_eq', true_and]
    have hresolved :=
      exchanges_resolveOauth2Context outside executeHttp.upstream upstream ⟨world, []⟩
    cases hcontext : Engine.resolveOauth2Context outside executeHttp.upstream upstream ⟨world, []⟩ with
    | mk context traffic =>
      rw [hcontext] at hresolved
      have hquiet : ∀ response, ¬ AnsweredWith crates.fromSlice traffic.exchanges response := by
        rw [hresolved]
        exact not_answered_nil
      cases context with
      | error error =>
        refine iff_of_true ⟨_, rfl, .inl rfl⟩ fun response h => ?_
        exact absurd h (hquiet response)
      | ok context =>
        simp only
        generalize engine.dispatchParams toolCfg executeHttp upstream args request context = dispatch
        generalize engine.buildHttpRequestTemplate crates executeHttp upstream
          (context.map (·.bearer)) = template
        have hflow : Faithful crates.fromSlice
            (engine.executeHttpRequestFlow crates outside dispatch template context) :=
          executeHttpRequestFlow_faithful
        have hended := hflow traffic hquiet
        cases hresult : engine.executeHttpRequestFlow crates outside dispatch template context
            traffic with
        | mk result ended =>
          rw [hresult] at hended
          cases result with
          | error error => exact reports_response engine toolCfg args hended
          | ok response => exact reports_response engine toolCfg args hended

/-! ## A response without the member that a template asks for -/

namespace Greeting

def upstream : UpstreamConfig where
  baseUrl := "http://localhost"
  headers := ∅
  userAgent := none
  timeoutMs := none
  maxResponseBytes := none
  retry := none
  auth := none

def executeHttp : ExecuteHttpConfig where
  upstream := "people"
  method := "GET"
  path := "/me"
  query := none
  headers := none
  body := none
  retry := none
  taskSupport := .forbidden

def tool : ToolConfig where
  name := "greet"
  description := "Greets the caller."
  cancellable := true
  inputSchema := .object []
  outputSchema := none
  execute := .http executeHttp
  response := some (.content
    ⟨[.object [("text", .string "${$.name}"), ("type", .string "text")]]⟩)

def engine : Engine where
  config := { McpConfig.empty with upstreams := AList.singleton "people" upstream }
  toolMap := AList.singleton "greet" tool
  plugins := .new
  completionSources := ∅

/-- An empty object is the only text that is read. -/
def crates : Crates where
  json :=
    { fromStr := fun text => if text = "{}" then .ok (.object []) else .error "expected value"
      toString := fun _ => "{}" }
  fromSlice := fun bytes => if bytes = [123, 125] then .ok (.object []) else .error "expected value"
  models :=
    { metaValue := fun value => (value.asObject.map Except.ok).getD (.error "expected a map")
      annotations := fun _ => .ok ⟨none, none, none⟩
      icons := fun _ => .ok [] }
  results := ⟨fun _ => .ok 2, fun _ => .ok .null, fun _ => .ok .null, fun _ => .ok 2⟩
  schemas := ⟨fun _ => .ok fun _ => []⟩
  base64 := ⟨id, some⟩
  parsers := ⟨fun _ => .ok (), fun _ => .error "input contains invalid characters"⟩
  completions := fun values => if values.length ≤ 100 then .ok () else .error "Too many values"

/-- An upstream that answers every request with `200` and `{}`. -/
def outside : EngineOutside Unit where
  send _ world := (.ok ⟨200, [123, 125]⟩, world)
  sendUnlessCancelled _ _ world := (some (.ok ⟨200, [123, 125]⟩), world)
  isCancelled _ world := (false, world)
  pollsCancelled _ world := (false, world)
  sleep _ world := world
  sleepUnlessCancelled _ _ world := (false, world)
  accessToken _ _ _ world := (.ok "token", world)
  callTool _ _ _ world := (.panicked none, world)
  callToolUnlessCancelled _ _ _ world := (none, world)
  listPrompts _ _ world := (.ok [], world)
  getPrompt _ _ _ _ world := (.ok ⟨none, []⟩, world)
  listResources _ _ world := (.ok [], world)
  readResource _ _ _ world := (.ok ⟨[]⟩, world)
  complete _ _ _ world := (.ok ⟨[], none, none⟩, world)

end Greeting

theorem executeToolConfig_reports_failures_greeting :
    ReportsFailures Greeting.crates Greeting.tool (.object [])
        (Greeting.engine.executeToolConfig Greeting.crates Greeting.outside Greeting.tool
          (.object []) none ⟨(), []⟩) ↔
      (∃ upstream, Greeting.engine.config.upstreams.lookup "people" = some upstream) ∧
      ∀ response, AnsweredWith Greeting.crates.fromSlice
          (Greeting.engine.executeToolConfig Greeting.crates Greeting.outside Greeting.tool
            (.object []) none ⟨(), []⟩).2.exchanges response →
        ResponseFits Greeting.crates Greeting.tool (.object []) response :=
  executeToolConfig_reports_failures Greeting.engine Greeting.crates Greeting.outside Greeting.tool
    Greeting.executeHttp rfl (.object []) none ()

theorem greeting_without_name_is_error :
    Greeting.engine.toolMap.lookup "greet" = some Greeting.tool ∧
      ¬ ReportsFailures Greeting.crates Greeting.tool (.object [])
        (Greeting.engine.executeToolConfig Greeting.crates Greeting.outside Greeting.tool
          (.object []) none ⟨(), []⟩) := by
  refine ⟨rfl, fun ⟨result, hresult, _⟩ => ?_⟩
  have herror : (Greeting.engine.executeToolConfig Greeting.crates Greeting.outside Greeting.tool
      (.object []) none ⟨(), []⟩).1 = .returned (.error
        (.invalidParams "missing required value for '$.name'" none)) := by
    rfl
  rw [herror] at hresult
  cases hresult

end RustMcpCore.Dispatch
