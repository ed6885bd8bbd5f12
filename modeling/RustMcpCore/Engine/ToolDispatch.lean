import RustMcpCore.Auth.Outbound.Config
import RustMcpCore.Engine.Environment
import RustMcpCore.Engine.HttpExecutor
import RustMcpCore.Engine.Redaction

/-! # Tool calls

A tool is an HTTP request or a plugin. What goes wrong in either is to become a result
that says so; the results of both are checked against the output schema of the tool.
-/
namespace RustMcpCore.Dispatch
open Library Outbound

def mapToolPanicToError (message : Option String) : McpError :=
  match message with
  | some message => .internalError s!"tool execution panicked: {message}" none
  | none => .internalError "tool execution panicked" none

/-! ## Results -/

section Results
variable (crates : Crates)

def buildHttpToolResult (toolCfg : ToolConfig) (args response : Value) :
    Except McpError CallToolResult :=
  let ctx : RenderContext := { args, response := some response }
  match toolCfg.response with
  | some (.content config) =>
    (buildContentBlocks crates.models crates.json config.items ctx).map buildContentResult
  | some (.structured config) => do
    let structured ← match config.template with
      | some template => Templating.renderValue crates.json template ctx
      | none => pure response
    buildStructuredResult crates.json crates.schemas structured toolCfg.outputSchema
      (config.fallback.map contentFallbackStr)
  | none => buildStructuredResult crates.json crates.schemas response toolCfg.outputSchema none

/-- `execute_plugin_tool` once the plugin has answered. -/
def checkPluginResult (config : McpConfig) (toolCfg : ToolConfig) (result : CallToolResult) :
    CallToolResult :=
  match result.structuredContent with
  | none => result
  | some structured =>
    match (toolCfg.outputSchema.elim (pure ())
        (validateStructuredOutput crates.schemas structured) : Except McpError Unit) with
    | .error error => config.toolErrorResultFromError error
    | .ok () =>
      if result.content.isEmpty then
        { result with content := [Content.text (crates.json.toString structured)] }
      else result

def finishPluginCall (config : McpConfig) (toolCfg : ToolConfig) : ToolOutcome → ToolOutcome
  | .returned (.ok result) => .returned (.ok (checkPluginResult crates config toolCfg result))
  | .returned (.error error) => .returned (.ok (config.toolErrorResultFromError error))
  | .panicked message => .panicked message

end Results

/-! ## Plugins -/

namespace Engine
variable (engine : Engine) (crates : Crates) {W : Type} (outside : EngineOutside W)

def executePluginTool (toolCfg : ToolConfig) (args : Value) (request : Option RequestContext)
    (traffic : Traffic W) : ToolOutcome × Traffic W :=
  match toolCfg.execute.asPlugin with
  | none => (.returned (.error
      (.invalidRequest "plugin tool requires execute.type=plugin" none)), traffic)
  | some pluginExecute =>
    if pluginExecute.plugin = "" then
      (.returned (.error (.invalidRequest "plugin tool requires plugin" none)), traffic)
    else
      match engine.lookupToolPlugin pluginExecute.plugin with
      | .error error => (.returned (.error error), traffic)
      | .ok plugin =>
        let ctx := engine.buildPluginContext request
        let config :=
          mergePluginConfig engine.config .tool pluginExecute.plugin pluginExecute.config
        if toolCfg.cancellable then
          match traffic.step (outside.callToolUnlessCancelled plugin args { config, ctx }) with
          | (none, traffic) => (.returned (.ok cancelledToolResult), traffic)
          | (some outcome, traffic) =>
            (finishPluginCall crates engine.config toolCfg outcome, traffic)
        else
          let ctx := { ctx with cancellation := none }
          let (outcome, traffic) := traffic.step (outside.callTool plugin args { config, ctx })
          (finishPluginCall crates engine.config toolCfg outcome, traffic)

end Engine

/-! ## HTTP requests -/

structure Oauth2ExecutionContext where
  auth : UpstreamOauth2AuthConfig
  bearer : String
  retryOn401Once : Bool

structure HttpRequestExecutionParams where
  toolCfg : ToolConfig
  upstreamBaseUrl : String
  args : Value
  request : Option RequestContext

structure HttpRetryExecutionParams where
  retry : Option OutboundRetryConfig
  cancellation : Option CancellationToken
  oauth401RefreshEnabled : Bool

structure HttpDispatchParams where
  upstreamName : String
  upstream : UpstreamConfig
  request : HttpRequestExecutionParams
  retry : HttpRetryExecutionParams

def shouldRetryHttpExecution (oauth401RefreshEnabled : Bool)
    (result : Except HttpExecutionError Value) (retry : OutboundRetryConfig) : Bool :=
  match result with
  | .ok _ | .error (.template _) | .error (.response _) | .error .cancelled => false
  | .error (.upstreamStatus status) =>
    if oauth401RefreshEnabled ∧ status = 401 then false else status ∈ retry.onStatuses
  | .error (.request _) => retry.onNetworkErrors

section Requests
variable (crates : Crates) {W : Type} (outside : EngineOutside W)

def executeHttpRequestWithCancellation (params : HttpRequestExecutionParams)
    (template : HttpRequestTemplate) (traffic : Traffic W) :
    Except HttpExecutionError Value × Traffic W :=
  match params.toolCfg.cancellable, params.request with
  | true, some request => executeOrCancel crates.json crates.fromSlice outside.toOutside params.upstreamBaseUrl
      template params.args request.ct traffic
  | true, none | false, _ => executeHttpDetailed crates.json crates.fromSlice outside.toOutside
      params.upstreamBaseUrl template params.args none traffic

def executeHttpRequestWithRetry (params : HttpRequestExecutionParams)
    (template : HttpRequestTemplate) (retry : HttpRetryExecutionParams) (traffic : Traffic W) :
    Except HttpExecutionError Value × Traffic W :=
  executeWithRetry outside.toOutside
    { method := template.method
      retry := retry.retry
      cancellation := retry.cancellation
      cancelledError := HttpExecutionError.cancelled }
    (executeHttpRequestWithCancellation crates outside params template)
    (shouldRetryHttpExecution retry.oauth401RefreshEnabled) traffic

end Requests

namespace Engine
variable (engine : Engine) (crates : Crates) {W : Type} (outside : EngineOutside W)

def buildHeaders (upstream : UpstreamConfig) (oauth2Bearer : Option String)
    (toolHeaders : Option Value) : Option Value :=
  buildTemplatedHeaders crates.base64.encode engine.config.outboundHttp upstream oauth2Bearer toolHeaders

def resolveOauth2Context (upstreamName : String) (upstream : UpstreamConfig)
    (traffic : Traffic W) : Except McpError (Option Oauth2ExecutionContext) × Traffic W :=
  match upstream.auth with
  | some (.oauth2 auth) =>
    let (token, traffic) := traffic.step (outside.accessToken upstreamName auth false)
    let retryOn401Once := (OutboundOauth2RefreshPolicy.fromAuth auth).retryOn401Once
    (token.map fun bearer => some { auth, bearer, retryOn401Once }, traffic)
  | _ => (.ok none, traffic)

def buildHttpRequestTemplate (executeHttp : ExecuteHttpConfig) (upstream : UpstreamConfig)
    (oauth2Bearer : Option String) : HttpRequestTemplate where
  method := executeHttp.method
  path := executeHttp.path
  query := executeHttp.query
  headers := engine.buildHeaders crates upstream oauth2Bearer executeHttp.headers
  body := executeHttp.body
  timeoutMs := resolveTimeoutMs upstream engine.config.outboundHttp none
  maxResponseBytes := resolveMaxResponseBytes upstream engine.config.outboundHttp none

/-- The request and its retries, once more with a new token after a first 401. -/
def executeHttpRequestFlow (dispatch : HttpDispatchParams) (template : HttpRequestTemplate)
    (oauth2Context : Option Oauth2ExecutionContext) (traffic : Traffic W) :
    Except HttpExecutionError Value × Traffic W :=
  match executeHttpRequestWithRetry crates outside dispatch.request template dispatch.retry
      traffic with
  | (.ok response, traffic) => (.ok response, traffic)
  | (.error error, traffic) =>
    if dispatch.retry.oauth401RefreshEnabled ∧ error.statusCode = some 401 then
      match oauth2Context with
      | none => (.error error, traffic)
      | some context =>
        match traffic.step (outside.accessToken dispatch.upstreamName context.auth true) with
        | (.error error, traffic) => (.error (.request error), traffic)
        | (.ok refreshed, traffic) =>
          let headers := engine.buildHeaders crates dispatch.upstream (some refreshed)
            (dispatch.request.toolCfg.execute.asHttp.bind (·.headers))
          executeHttpRequestWithRetry crates outside dispatch.request { template with headers }
            dispatch.retry traffic
    else (.error error, traffic)

def toolResultOfHttpError : HttpExecutionError → CallToolResult
  | .cancelled => cancelledToolResult
  | error => engine.config.toolErrorResultFromError error.intoMcpError

/-- What `execute_http_tool` hands to the flow. -/
def dispatchParams (toolCfg : ToolConfig) (executeHttp : ExecuteHttpConfig)
    (upstream : UpstreamConfig) (args : Value) (request : Option RequestContext)
    (oauth2Context : Option Oauth2ExecutionContext) : HttpDispatchParams where
  upstreamName := executeHttp.upstream
  upstream
  request := { toolCfg, upstreamBaseUrl := upstream.baseUrl, args, request }
  retry :=
    { retry := resolveRetryConfig upstream engine.config.outboundHttp executeHttp.retry
      cancellation := if toolCfg.cancellable then request.map (·.ct) else none
      oauth401RefreshEnabled := oauth2Context.any (·.retryOn401Once) }

def executeHttpTool (toolCfg : ToolConfig) (args : Value) (request : Option RequestContext)
    (traffic : Traffic W) : Except McpError CallToolResult × Traffic W :=
  match toolCfg.execute.asHttp with
  | none => (.error (.invalidRequest "http tool requires execute.type=http" none), traffic)
  | some executeHttp =>
    match engine.config.upstreams.lookup executeHttp.upstream with
    | none =>
      let upstreamName := executeHttp.upstream
      (.error (.invalidRequest s!"unknown upstream: {upstreamName}" none), traffic)
    | some upstream =>
      match resolveOauth2Context outside executeHttp.upstream upstream traffic with
      | (.error error, traffic) => (.ok (engine.config.toolErrorResultFromError error), traffic)
      | (.ok oauth2Context, traffic) =>
        let template :=
          engine.buildHttpRequestTemplate crates executeHttp upstream (oauth2Context.map (·.bearer))
        let dispatch := engine.dispatchParams toolCfg executeHttp upstream args request oauth2Context
        match engine.executeHttpRequestFlow crates outside dispatch template oauth2Context
            traffic with
        | (.error error, traffic) => (.ok (engine.toolResultOfHttpError error), traffic)
        | (.ok response, traffic) => (buildHttpToolResult crates toolCfg args response, traffic)

def executeToolConfig (toolCfg : ToolConfig) (args : Value) (request : Option RequestContext)
    (traffic : Traffic W) : ToolOutcome × Traffic W :=
  match toolCfg.execute.executeType with
  | .http =>
    let (result, traffic) := engine.executeHttpTool crates outside toolCfg args request traffic
    (.returned result, traffic)
  | .plugin => engine.executePluginTool crates outside toolCfg args request traffic

/-- `unwrap_or_else` on what `catch_unwind` gives. -/
def catchUnwind : ToolOutcome → Except McpError CallToolResult
  | .returned result => result
  | .panicked message =>
    .ok (engine.config.toolErrorResultFromError (mapToolPanicToError message))

/-- The limits on a result, and what the client sees of an error. -/
def deliverToolResult (result : Except McpError CallToolResult) : Except McpError CallToolResult :=
  (do
    let result ← result
    enforceResponseLimits crates.results result engine.config.responseLimits
    return result).mapError engine.config.sanitizeClientError

def executeToolWithContext (name : String) (args : Value) (request : Option RequestContext)
    (traffic : Traffic W) : Except McpError CallToolResult × Traffic W :=
  match engine.toolMap.lookup name with
  | none => (.error (.invalidParams s!"tool not found: {name}" none), traffic)
  | some toolCfg =>
    let (outcome, traffic) := engine.executeToolConfig crates outside toolCfg args request traffic
    (engine.deliverToolResult crates (engine.catchUnwind outcome), traffic)

end Engine

end RustMcpCore.Dispatch
