import Mathlib.Data.Finset.Basic
import RustMcpCore.Auth.Inbound.Middleware
import RustMcpCore.Http.Axum
import RustMcpCore.Http.RateLimit

/-! # The router of the server

The router has a segment for the endpoint, one for the server's own metadata and one
for each route of a plugin. Plugins may put layers around the segments; these are kept
until all plugins are processed and applied when the router is put together.
-/
namespace RustMcpCore
open Library

/-! ## Segments -/

abbrev RouterTransform (Router : Type) := Router → Router

def applyLayers {Router : Type} (router : Router) (layers : List (RouterTransform Router)) :
    Router :=
  layers.reverse.foldl (fun router layer => layer router) router

structure RouterSegment (Router : Type) where
  router : Router
  layers : List (RouterTransform Router)

namespace RouterSegment
variable {Router : Type}

def new (router : Router) : RouterSegment Router := ⟨router, []⟩

def addLayer (segment : RouterSegment Router) (layer : RouterTransform Router) :
    RouterSegment Router :=
  { segment with layers := segment.layers ++ [layer] }

def build (segment : RouterSegment Router) : Router := applyLayers segment.router segment.layers

end RouterSegment

/-! ## Targets -/

structure HttpRouterTarget where
  targetType : HttpRouterTargetType
  path : String

inductive HttpRouterOp (Router : Type)
  | wrap (layer : RouterTransform Router)
  | route (router : Router)

def normalizeTargetPath (path : String) : Except McpError String :=
  let trimmed := Text.trim path
  if trimmed = "" then
    .error (.invalidRequest "http_router_plugins target path cannot be empty" none)
  else if trimmed = "*" then .ok "*"
  else if trimmed = "/" then .ok "/"
  else
    let trimmed := Text.trimEndMatches trimmed '/'
    if trimmed.toList.head? = some '/' then .ok trimmed else .ok ("/" ++ trimmed)

def normalizeTarget (target : PluginTargetConfig) : Except McpError HttpRouterTarget := do
  let path ← normalizeTargetPath target.path
  if target.targetType = .route ∧ path = "*" then
    .error (.invalidRequest "http_router plugins route targets cannot use '*'" none)
  else pure ⟨target.targetType, path⟩

def normalizeTargets (targets : List PluginTargetConfig) : Except McpError (List HttpRouterTarget) :=
  if targets.isEmpty then
    .error (.invalidRequest "http_router plugins target list cannot be empty" none)
  else targets.mapM normalizeTarget

/-! ## What plugins are told -/

structure AuthSummary where
  authEnabled : Bool
  oauthEnabled : Bool
  resourceUrl : Option String

structure RuntimeContext where
  auth : AuthSummary
  authState : Option AuthState

def buildAuthSummary (config : McpConfig) (authState : AuthState) : AuthSummary :=
  let oauth := config.server.auth.bind (·.oauth)
  let endpointPath := normalizeEndpointPath config.server.endpointPath
  let publicBase := (oauth.bind (·.publicUrl)).getD
    s!"http://{config.server.host}:{config.server.port.toNat}"
  let resourceUrl := (oauth.map (·.resource)).getD (publicBase ++ endpointPath)
  { authEnabled := config.server.authActive
    oauthEnabled := authState.oauthEnabled
    resourceUrl := if config.server.authActive then some resourceUrl else none }

def buildRuntimeContext (config : McpConfig) (authState : AuthState) : RuntimeContext where
  auth := buildAuthSummary config authState
  authState := if config.server.authActive then some authState else none

structure HttpRouterPlugin (Router : Type) where
  apply : RuntimeContext → List HttpRouterTarget → Value →
    Except McpError (List (HttpRouterOp Router))

/-! ## The endpoint -/

structure StreamableHttpRoutePolicy where
  enableGetStream : Bool
  enableSseResumption : Bool
  allowDeleteSession : Bool
  sessionMode : StreamableHttpSessionMode

def StreamableHttpRoutePolicy.fromConfig (config : McpConfig) : StreamableHttpRoutePolicy :=
  let transport := config.server.transport.streamableHttp
  { enableGetStream := transport.enableGetStream
    enableSseResumption := transport.enableSseResumption
    allowDeleteSession := transport.allowDeleteSession
    sessionMode := transport.sessionMode }

structure StreamableHttpServerConfig where
  statefulMode : Bool

def buildStreamableHttpConfig (transport : TransportConfig) : StreamableHttpServerConfig where
  statefulMode := transport.streamableHttp.sessionMode ≠ .none

/-- The services of the server and the layers around them. -/
structure ServerLayers (Service : Type) where
  streamableHttpService : StreamableHttpServerConfig → Service
  oauthResourceMetadata : AuthState → Service
  catchPanic : Service → Service
  setSensitiveRequestHeaders : List String → Service → Service
  setSensitiveResponseHeaders : List String → Service → Service
  requestBodyLimit : ℕ → Service → Service
  governor : GovernorConfig → Service → Service
  sessionCreationRateLimit : SessionCreationRateLimiter → Service → Service
  protocolVersionNegotiation : ProtocolVersionNegotiationMode → Service → Service
  routeGuard : StreamableHttpRoutePolicy → Service → Service
  authMiddleware : AuthState → Service → Service

variable {Router Service : Type} (ax : Axum Router Service) (layers : ServerLayers Service)

def applyInboundRateLimitLayer (router : Router) (hardening : StreamableHttpHardeningConfig) :
    Except McpError Router :=
  match hardening.rateLimit.filter (·.isActive) with
  | none => .ok router
  | some rateLimit =>
    if !rateLimit.hasAnyBucket then
      .error (.invalidRequest
        "transport.streamable_http.hardening.rate_limit requires global or per_ip when enabled"
        none)
    else do
      let router ← match rateLimit.global with
        | none => pure router
        | some bucket =>
          (buildGlobalRateLimit bucket).map fun config => ax.layer router (layers.governor config)
      match rateLimit.perIp with
        | none => pure router
        | some bucket =>
          (buildPerIpRateLimit bucket).map fun config => ax.layer router (layers.governor config)

def applySessionCreationRateLimitLayer (router : Router)
    (hardening : StreamableHttpHardeningConfig) : Router :=
  match buildSessionCreationRateLimiter hardening with
  | none => router
  | some limiter => ax.layer router (layers.sessionCreationRateLimit limiter)

/-- The layers of the endpoint, each around the ones before it. -/
def layerMcpRouter (router : Router) (config : McpConfig) (authState : AuthState) :
    Except McpError Router := do
  let hardening := config.server.transport.streamableHttp.effectiveHardening
  let router ← applyInboundRateLimitLayer ax layers router hardening
  let router := applySessionCreationRateLimitLayer ax layers router hardening
  let router := ax.layer router (layers.requestBodyLimit hardening.maxRequestBytes.toNat)
  let router := ax.layer router (layers.protocolVersionNegotiation
    config.server.transport.streamableHttp.protocolVersionNegotiation)
  let router := ax.layer router (layers.routeGuard (.fromConfig config))
  pure (if config.server.authActive then ax.layer router (layers.authMiddleware authState)
    else router)

def buildMcpRouter (config : McpConfig) (authState : AuthState) :
    Option (Except McpError Router) :=
  let endpointPath := normalizeEndpointPath config.server.endpointPath
  let service := layers.streamableHttpService (buildStreamableHttpConfig config.server.transport)
  (ax.nestService ax.new endpointPath service).map fun router =>
    layerMcpRouter ax layers router config authState

def oauthRouter (state : AuthState) : Option Router :=
  let endpointMetadataPath := oauthResourceMetadataEndpointPath state.endpointPath
  (ax.route ax.new OAUTH_METADATA_PATH (layers.oauthResourceMetadata state)).bind fun router =>
    if endpointMetadataPath ≠ OAUTH_METADATA_PATH then
      ax.route router endpointMetadataPath (layers.oauthResourceMetadata state)
    else some router

/-! ## Layers of the endpoint segment -/

def SENSITIVE_REQUEST_HEADERS : List String :=
  ["authorization", "proxy-authorization", "cookie", "mcp-session-id"]

def SENSITIVE_RESPONSE_HEADERS : List String := ["set-cookie"]

/-- `HeaderName::from_bytes`. -/
def HeaderName.fromBytes (name : String) : Except String String :=
  if name ≠ "" ∧ name.toList.all Challenge.isTchar then .ok (Text.toAsciiLowercase name)
  else .error "invalid HTTP header name"

def parseSensitiveHeaderName (header : String) : Except McpError String :=
  match HeaderName.fromBytes header with
  | .ok name => .ok name
  | .error error =>
    .error (.invalidRequest s!"invalid hardening header name '{header}': {error}" none)

def parseSensitiveHeaderNames (headers : List String) : Except McpError (List String) :=
  headers.mapM parseSensitiveHeaderName

/-- The layers that the segment of the endpoint starts with. -/
def applyStreamableHttpHardeningLayers (segment : RouterSegment Router)
    (hardening : StreamableHttpHardeningConfig) : Except McpError (RouterSegment Router) := do
  let segment := if hardening.catchPanics then
      segment.addLayer fun router => ax.layer router layers.catchPanic
    else segment
  if hardening.sanitizeSensitiveHeaders then
    let requestHeaders ← parseSensitiveHeaderNames SENSITIVE_REQUEST_HEADERS
    let segment := segment.addLayer fun router =>
      ax.layer router (layers.setSensitiveRequestHeaders requestHeaders)
    let responseHeaders ← parseSensitiveHeaderNames SENSITIVE_RESPONSE_HEADERS
    pure (segment.addLayer fun router =>
      ax.layer router (layers.setSensitiveResponseHeaders responseHeaders))
  else pure segment

/-! ## Plugins -/

structure PluginRouteState (Router : Type) where
  mcpSegment : RouterSegment Router
  appSegment : RouterSegment Router
  pluginSegments : HashMap String (RouterSegment Router)
  pluginRouteOrder : List String
  pluginRoutes : Finset String
  reservedRoutes : Finset String
  endpointPath : String

/-- The paths that no plugin may take. -/
def reservedPaths (endpointPath : String) (oauthEnabled : Bool) : Finset String :=
  let endpoint : Finset String := {endpointPath}
  if oauthEnabled then
    let reserved := insert OAUTH_METADATA_PATH endpoint
    if endpointPath ≠ "/" then insert (OAUTH_METADATA_PATH ++ endpointPath) reserved else reserved
  else endpoint

namespace PluginRouteState

def new (mcpRouter appRouter : Router) (endpointPath : String) (authState : AuthState) :
    PluginRouteState Router where
  mcpSegment := .new mcpRouter
  appSegment := .new appRouter
  pluginSegments := ∅
  pluginRouteOrder := []
  pluginRoutes := ∅
  reservedRoutes := reservedPaths endpointPath authState.oauthEnabled
  endpointPath

def addRoute (state : PluginRouteState Router) (path : String) (router : Router) :
    PluginRouteState Router :=
  { state with
    pluginRoutes := insert path state.pluginRoutes
    pluginRouteOrder := state.pluginRouteOrder ++ [path]
    pluginSegments := state.pluginSegments.insert path (.new router) }

/-- A layer around every segment there is. -/
def wrapAll (state : PluginRouteState Router) (layer : RouterTransform Router) :
    PluginRouteState Router :=
  { state with
    mcpSegment := state.mcpSegment.addLayer layer
    appSegment := state.appSegment.addLayer layer
    pluginSegments := state.pluginSegments.mapValues fun segment => segment.addLayer layer }

/-- One target with the op for it. The index is for the messages. -/
def applyOp (pluginName : String) (state : PluginRouteState Router)
    (entry : (HttpRouterTarget × HttpRouterOp Router) × ℕ) :
    Except McpError (PluginRouteState Router) :=
  let ((target, op), index) := entry
  match target.targetType with
  | .route =>
    if target.path ∈ state.reservedRoutes ∨ target.path ∈ state.pluginRoutes then
      .error (.invalidRequest (s!"http router plugin {pluginName} target {index} collides with " ++
        s!"existing route: {target.path}") none)
    else
      match op with
      | .route router => .ok (state.addRoute target.path router)
      | .wrap _ => .error (.invalidRequest
          s!"http router plugin {pluginName} target {index} expected route op" none)
  | .wrap =>
    if target.path ≠ "*" ∧ target.path ≠ state.endpointPath ∧
        target.path ∉ state.pluginRoutes then
      .error (.invalidRequest
        s!"http router plugin {pluginName} target {index} wraps unknown path: {target.path}" none)
    else
      match op with
      | .route _ => .error (.invalidRequest
          s!"http router plugin {pluginName} target {index} expected wrap op" none)
      | .wrap layer =>
        if target.path = "*" then .ok (state.wrapAll layer)
        else if target.path = state.endpointPath then
          .ok { state with mcpSegment := state.mcpSegment.addLayer layer }
        else
          match state.pluginSegments.lookup target.path with
          | none => .error (.internalError (s!"http router plugin {pluginName} target {index} " ++
              s!"missing route segment for path {target.path}") none)
          | some segment => .ok { state with
              pluginSegments := state.pluginSegments.insert target.path (segment.addLayer layer) }

def applyOps (state : PluginRouteState Router) (pluginName : String)
    (targets : List HttpRouterTarget) (ops : List (HttpRouterOp Router)) :
    Except McpError (PluginRouteState Router) :=
  (targets.zip ops).zipIdx.foldlM (applyOp pluginName) state

/-- `plugins` finds the registered router plugins. -/
def processPlugin (plugins : String → Option (HttpRouterPlugin Router)) (ctx : RuntimeContext)
    (state : PluginRouteState Router) (pluginCfg : PluginConfig) :
    Except McpError (PluginRouteState Router) := do
  let targetsCfg := pluginCfg.targets.getD []
  if targetsCfg.isEmpty then
    .error (.invalidRequest s!"http_router plugin {pluginCfg.name} requires targets" none)
  else
    let targets ← normalizeTargets targetsCfg
    match plugins pluginCfg.name with
    | none =>
      .error (.invalidRequest s!"http router plugin not registered: {pluginCfg.name}" none)
    | some plugin =>
      let ops ← plugin.apply ctx targets (pluginCfg.config.getD .null)
      if ops.length ≠ targets.length then
        .error (.invalidRequest (s!"http router plugin {pluginCfg.name} returned " ++
          s!"{ops.length} ops for {targets.length} targets") none)
      else state.applyOps pluginCfg.name targets ops

def processPlugins (plugins : String → Option (HttpRouterPlugin Router))
    (routerPlugins : List PluginConfig) (ctx : RuntimeContext)
    (state : PluginRouteState Router) : Except McpError (PluginRouteState Router) :=
  routerPlugins.foldlM (processPlugin plugins ctx) state

/-- One round of the last loop: the segment of a path leaves the map and is nested. -/
def mountNext (mounted : Router × HashMap String (RouterSegment Router)) (path : String) :
    Option (Router × HashMap String (RouterSegment Router)) :=
  match mounted.2.lookup path with
  | none => some mounted
  | some segment =>
    (ax.nest mounted.1 path segment.build).map fun app => (app, mounted.2.erase path)

def assemble (state : PluginRouteState Router) : Option Router :=
  (ax.merge state.appSegment.build state.mcpSegment.build).bind fun app =>
    (state.pluginRouteOrder.foldlM (mountNext ax) (app, state.pluginSegments)).map Prod.fst

end PluginRouteState

/-- A panic has no result. -/
def buildStreamableHttpRouter (config : McpConfig) (authState : AuthState)
    (plugins : String → Option (HttpRouterPlugin Router)) : Option (Except McpError Router) :=
  let endpointPath := normalizeEndpointPath config.server.endpointPath
  let hardening := config.server.transport.streamableHttp.effectiveHardening
  (buildMcpRouter ax layers config authState).bind fun
    | .error e => some (.error e)
    | .ok mcpRouter =>
      let appRouter := if authState.oauthEnabled then
          (oauthRouter ax layers authState).bind (ax.merge ax.new ·)
        else some ax.new
      appRouter.bind fun appRouter =>
        let routerPlugins := config.plugins.filter fun plugin => plugin.pluginType = .httpRouter
        let ctx := buildRuntimeContext config authState
        let state := PluginRouteState.new mcpRouter appRouter endpointPath authState
        match applyStreamableHttpHardeningLayers ax layers state.mcpSegment hardening with
        | .error e => some (.error e)
        | .ok mcpSegment =>
          match PluginRouteState.processPlugins plugins routerPlugins ctx
              { state with mcpSegment } with
          | .error e => some (.error e)
          | .ok state => (state.assemble ax).map .ok

end RustMcpCore
