import RustMcpCore.Auth.Outbound.Config
import RustMcpCore.Engine.Environment
import RustMcpCore.Http.OutboundPipeline

/-! # Requests of plugins to upstreams

A plugin names an upstream and gets the settings, the headers, the retries and the
tokens of it for its request.
-/
namespace RustMcpCore.Dispatch
open Library Outbound

inductive PluginSendAuthMode
  | inherit
  | none
  | explicit (authorization : String)

structure PluginOauth2ExecutionContext where
  auth : UpstreamOauth2AuthConfig
  bearer : String
  retryOn401Once : Bool

/-- `OutboundTokenManager::access_token`. -/
abbrev TokenManager (W : Type) :=
  String → UpstreamOauth2AuthConfig → Bool → W → Except McpError String × W

def oauth2HelperUnavailable : McpError :=
  .invalidRequest "outbound oauth2 helper unavailable" none

/-- The predicate that is given to `execute_with_retry`. -/
def shouldRetryUpstreamHttp (result : Answer) (retry : OutboundRetryConfig) : Bool :=
  match result with
  | .ok response => response.status ∈ retry.onStatuses
  | .error error => error.code = ErrorCode.internalError && retry.onNetworkErrors

section Send
variable {W : Type} (outside : Outside W) (tokenManager : Option (TokenManager W))

def sendOnce (request : OutboundHttpRequest) (traffic : Traffic W) : Answer × Traffic W :=
  let (answer, world) := outside.send request traffic.world
  (answer, { world, exchanges := traffic.exchanges ++ [⟨request, some answer⟩] })

def executeUpstreamHttpWithRetry (request : OutboundHttpRequest)
    (retry : Option OutboundRetryConfig) (cancellation : Option CancellationToken)
    (traffic : Traffic W) : Answer × Traffic W :=
  executeWithRetry outside { method := request.method, retry, cancellation, cancelledError }
    (sendOnce outside request) shouldRetryUpstreamHttp traffic

def resolvePluginOauth2Context (upstreamName : String) (upstream : UpstreamConfig)
    (authMode : PluginSendAuthMode) (traffic : Traffic W) :
    Except McpError (Option PluginOauth2ExecutionContext) × Traffic W :=
  match authMode, upstream.auth with
  | .inherit, some (.oauth2 auth) =>
    match tokenManager with
    | none => (.error oauth2HelperUnavailable, traffic)
    | some accessToken =>
      let (token, traffic) := traffic.step (accessToken upstreamName auth false)
      let retryOn401Once := (OutboundOauth2RefreshPolicy.fromAuth auth).retryOn401Once
      (token.map fun bearer => some { auth, bearer, retryOn401Once }, traffic)
  | _, _ => (.ok none, traffic)

namespace PluginContext
variable (ctx : PluginContext) (base64 : String → String)

def buildUpstreamRequestHeaders (upstream : UpstreamConfig) (authMode : PluginSendAuthMode)
    (oauth2Bearer : Option String) (requestHeaders : List (String × String)) :
    List (String × String) :=
  let auth := match authMode with
    | .inherit => PluginRequestAuth.inherit oauth2Bearer
    | .none => PluginRequestAuth.none
    | .explicit authorization => PluginRequestAuth.explicit authorization
  buildRequestHeaders base64 ctx.outboundHttp upstream auth requestHeaders

/-- The request as `send_with` sends it with a token. -/
def upstreamRequest (upstream : UpstreamConfig) (authMode : PluginSendAuthMode) (url : String)
    (request : OutboundHttpRequest) (oauth2Bearer : Option String) : OutboundHttpRequest :=
  { request with
    url
    timeoutMs := resolveTimeoutMs upstream ctx.outboundHttp request.timeoutMs
    maxResponseBytes :=
      resolveMaxResponseBytes upstream ctx.outboundHttp request.maxResponseBytes
    headers := ctx.buildUpstreamRequestHeaders base64 upstream authMode oauth2Bearer
      request.headers }

def sendWith (upstreamName : String) (request : OutboundHttpRequest)
    (authMode : PluginSendAuthMode) (traffic : Traffic W) : Answer × Traffic W :=
  match ctx.upstreams.lookup upstreamName with
  | none => (.error (.invalidRequest s!"upstream '{upstreamName}' not found" none), traffic)
  | some upstream =>
    match resolvePluginOauth2Context tokenManager upstreamName upstream authMode traffic with
    | (.error error, traffic) => (.error error, traffic)
    | (.ok oauth2Context, traffic) =>
      match resolveUpstreamUrl upstream.baseUrl request.url with
      | .error error => (.error error, traffic)
      | .ok url =>
        let withToken := ctx.upstreamRequest base64 upstream authMode url request
        let retry := resolveRetryConfig upstream ctx.outboundHttp none
        match executeUpstreamHttpWithRetry outside (withToken (oauth2Context.map (·.bearer)))
            retry ctx.cancellation traffic, oauth2Context with
        | (.ok response, traffic), some context =>
          if response.status = 401 ∧ context.retryOn401Once then
            match tokenManager with
            | none => (.error oauth2HelperUnavailable, traffic)
            | some accessToken =>
              match traffic.step (accessToken upstreamName context.auth true) with
              | (.error error, traffic) => (.error error, traffic)
              | (.ok refreshed, traffic) =>
                executeUpstreamHttpWithRetry outside (withToken (some refreshed)) retry
                  ctx.cancellation traffic
          else (.ok response, traffic)
        | (result, traffic), _ => (result, traffic)

end PluginContext

end Send

end RustMcpCore.Dispatch
