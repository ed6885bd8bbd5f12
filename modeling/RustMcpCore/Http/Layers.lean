import RustMcpCore.Http.Router

/-! # What the layers of the endpoint do with a request

A service answers a request or panics. The services here also report the buckets of the
inbound limit they asked, in order, and whether there was something in them.
-/
namespace RustMcpCore
open Library

structure Response where
  status : ℕ
  /-- The headers that the server itself sets. -/
  headers : List (String × String)
  body : List UInt8

def Response.text (status : ℕ) (body : String) : Response := ⟨status, [], body.toUTF8.toList⟩

/-- What is kept between requests. -/
structure InboundState (W G : Type) where
  world : W
  governor : G
  sessions : SessionCreationBuckets

abbrev BucketLog := List (GovernorKey × Bool)

/-- A service. A panic has no response. -/
abbrev HttpService (W G : Type) :=
  HttpRequest → InboundState W G → Option Response × InboundState W G × BucketLog

/-- The libraries the layers come from. -/
structure HttpLibraries (Alg Jwk Key W G : Type) where
  jwt : JwtLibrary Alg Jwk Key
  net : Network W Jwk
  /-- The readings of the clock of one attempt to create a session. -/
  readings : W → Readings × W
  /-- What a governor answers in place of the service, if the bucket of the key is empty. -/
  governor : GovernorConfig → GovernorKey → G → Option Response × G
  /-- What is answered if the request announces a body over the limit. -/
  bodyLimit : ℕ → HttpRequest → Option Response
  streamableHttpService : StreamableHttpServerConfig → HttpRequest → W → Response × W
  oauthResourceMetadata : AuthState → Response
  panicked : Response
  knownVersions : List String

/-! ## The guard of the route -/

def SESSION_REMAP_BODY_MAX_BYTES : ℕ := 4096

def methodNotAllowedResponse (allow : String) : Response :=
  { Response.text 405 "Method Not Allowed" with headers := [("allow", allow)] }

/-- What the guard answers in place of the service. -/
def StreamableHttpRoutePolicy.refusal (policy : StreamableHttpRoutePolicy)
    (request : HttpRequest) : Option Response :=
  if request.method = "GET" ∧ !policy.enableGetStream then
    some (methodNotAllowedResponse (if policy.allowDeleteSession then "DELETE, POST" else "POST"))
  else if request.method = "DELETE" ∧ !policy.allowDeleteSession then
    some (methodNotAllowedResponse (if policy.enableGetStream then "GET, POST" else "POST"))
  else if request.method = "GET" ∧ !policy.enableSseResumption ∧
      (request.headers.lookup "last-event-id").isSome then
    some (.text 400 "SSE resumption is disabled for this server")
  else if policy.sessionMode = .required ∧ (request.method = "GET" ∨ request.method = "DELETE") ∧
      (request.headers.lookup "mcp-session-id").isNone then
    some (.text 400 "MCP-Session-Id header is required")
  else none

def containsText (text body : List UInt8) : Bool := body.tails.any (text.isPrefixOf ·)

def classifySessionStatus (body : List UInt8) : ℕ :=
  if containsText "Session ID is required".toUTF8.toList body then 400
  else if containsText "Session not found".toUTF8.toList body then 404
  else 401

def remapSessionStatus (response : Response) : Response :=
  if response.status ≠ 401 then response
  else if SESSION_REMAP_BODY_MAX_BYTES < response.body.length then { response with body := [] }
  else
    let remapped := classifySessionStatus response.body
    if remapped = 401 then response else ⟨remapped, [], response.body⟩

/-! ## Protocol versions -/

def MCP_PROTOCOL_VERSION_HEADER : String := "mcp-protocol-version"

def HeaderMap.remove (headers : HeaderMap) (name : String) : HeaderMap :=
  headers.filter fun header => header.1 ≠ name

def normalizeProtocolVersionHeader (knownVersions : List String)
    (mode : ProtocolVersionNegotiationMode) (headers : HeaderMap) : HeaderMap :=
  if mode ≠ .negotiate then headers
  else
    match headers.lookup MCP_PROTOCOL_VERSION_HEADER with
    | none => headers
    | some value =>
      match headerToStr value with
      | none => HeaderMap.remove headers MCP_PROTOCOL_VERSION_HEADER
      | some version =>
        if version ∈ knownVersions then headers
        else HeaderMap.remove headers MCP_PROTOCOL_VERSION_HEADER

/-! ## The layers -/

namespace HttpLibraries
variable {Alg Jwk Key W G : Type} (lib : HttpLibraries Alg Jwk Key W G)

def governorLayer (config : GovernorConfig) (inner : HttpService W G) : HttpService W G :=
  fun request s =>
    let key := config.keyExtractor.extract request
    match lib.governor config key s.governor with
    | (some response, governor) => (some response, { s with governor }, [(key, false)])
    | (none, governor) =>
      let (response, s, log) := inner request { s with governor }
      (response, s, (key, true) :: log)

def sessionCreationLayer (limiter : SessionCreationRateLimiter) (inner : HttpService W G) :
    HttpService W G := fun request s =>
  if isSessionCreationRequest request then
    let (now, world) := lib.readings s.world
    let (allowed, sessions) := limiter.allowWithKey s.sessions (limiter.extractKey request) now
    if !allowed then
      (some (.text 429 "Too Many Requests: session creation rate limit exceeded"),
        { s with world, sessions }, [])
    else inner request { s with world, sessions }
  else inner request s

def bodyLimitLayer (limit : ℕ) (inner : HttpService W G) : HttpService W G := fun request s =>
  match lib.bodyLimit limit request with
  | some response => (some response, s, [])
  | none => inner request s

def negotiationLayer (mode : ProtocolVersionNegotiationMode) (inner : HttpService W G) :
    HttpService W G := fun request =>
  inner { request with
    headers := normalizeProtocolVersionHeader lib.knownVersions mode request.headers }

def routeGuardLayer (policy : StreamableHttpRoutePolicy) (inner : HttpService W G) :
    HttpService W G := fun request s =>
  match policy.refusal request with
  | some response => (some response, s, [])
  | none =>
    let (response, s, log) := inner request s
    (response.map remapSessionStatus, s, log)

def authLayer (state : AuthState) (inner : HttpService W G) : HttpService W G := fun request s =>
  match authMiddleware lib.jwt lib.net state request.headers s.world with
  | (.next, world) => inner request { s with world }
  | (.response status challenge, world) =>
    (some ⟨status, challenge.toList.map fun value => ("www-authenticate", value), []⟩,
      { s with world }, [])
  | (.panicked, world) => (none, { s with world }, [])

def catchPanicLayer (inner : HttpService W G) : HttpService W G := fun request s =>
  let (response, s, log) := inner request s
  (some (response.getD lib.panicked), s, log)

/-- Headers are marked as sensitive for the logs alone. -/
def serverLayers : ServerLayers (HttpService W G) where
  streamableHttpService config request s :=
    let (response, world) := lib.streamableHttpService config request s.world
    (some response, { s with world }, [])
  oauthResourceMetadata state _ s := (some (lib.oauthResourceMetadata state), s, [])
  catchPanic := lib.catchPanicLayer
  setSensitiveRequestHeaders _ inner := inner
  setSensitiveResponseHeaders _ inner := inner
  requestBodyLimit := lib.bodyLimitLayer
  governor := lib.governorLayer
  sessionCreationRateLimit := lib.sessionCreationLayer
  protocolVersionNegotiation := lib.negotiationLayer
  routeGuard := routeGuardLayer
  authMiddleware := lib.authLayer

end HttpLibraries
end RustMcpCore
