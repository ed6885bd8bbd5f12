import RustMcpCore.Http.Layers
import RustMcpCore.Runtime.Checks

/-! # Which requests the inbound limit counts

A layer goes around what was there before it, so that the layer added last is the first
to see a request. The inbound limit is the innermost one: what another layer answers
itself is not counted.
-/
namespace RustMcpCore
open Library
variable {Alg Jwk Key W G Router : Type} (lib : HttpLibraries Alg Jwk Key W G)

/-! ## What is to be counted -/

/-- The buckets that a request is to be counted in. -/
def bucketKeys (rateLimit : StreamableHttpRateLimitConfig) (request : HttpRequest) :
    List GovernorKey :=
  rateLimit.perIp.toList.map (fun bucket => .perIp (extractRateLimitKey request bucket.keySource)) ++
    rateLimit.global.toList.map fun _ => .global

/-- A bucket had nothing left for the request, or it was taken from all of them. -/
def Charged (keys : List GovernorKey) (log : BucketLog) : Prop :=
  (∃ key ∈ keys, (key, false) ∈ log) ∨ ∀ key ∈ keys, (key, true) ∈ log

/-- Every request that comes to the service is counted. -/
def Counts (keys : HttpRequest → List GovernorKey) (service : HttpService W G) : Prop :=
  ∀ request s, Charged (keys request) (service request s).2.2

theorem bucketKeys_ne_nil {rateLimit : StreamableHttpRateLimitConfig} {request : HttpRequest}
    (hbucket : rateLimit.hasAnyBucket = true) : bucketKeys rateLimit request ≠ [] := by
  obtain ⟨enabled, global, perIp⟩ := rateLimit
  cases global with
  | some bucket => simp [bucketKeys]
  | none =>
    cases perIp with
    | some bucket => simp [bucketKeys]
    | none => cases hbucket

theorem not_charged_nil {keys : List GovernorKey} (h : keys ≠ []) : ¬ Charged keys [] := by
  rintro (⟨key, _, hlog⟩ | hall)
  · cases hlog
  · obtain ⟨key, hkey⟩ := List.exists_mem_of_ne_nil keys h
    cases hall key hkey

theorem counts_governor {config : GovernorConfig} {keys : HttpRequest → List GovernorKey}
    {inner : HttpService W G} (h : Counts keys inner) :
    Counts (fun request => config.keyExtractor.extract request :: keys request)
      (lib.governorLayer config inner) := by
  intro request s
  simp only [HttpLibraries.governorLayer]
  cases lib.governor config (config.keyExtractor.extract request) s.governor with
  | mk refused governor =>
    cases refused with
    | some response => exact .inl ⟨_, List.mem_cons_self, List.mem_cons_self⟩
    | none =>
      rcases h request { s with governor } with ⟨key, hkey, hlog⟩ | hall
      · exact .inl ⟨key, List.mem_cons_of_mem _ hkey, List.mem_cons_of_mem _ hlog⟩
      · refine .inr fun key hkey => ?_
        rcases List.mem_cons.mp hkey with rfl | hkey
        · exact List.mem_cons_self
        · exact List.mem_cons_of_mem _ (hall key hkey)

/-! ## The service behind the layers -/

/-- All paths of the router lead to the service. -/
def Serves {Service : Type} (ax : Axum Router Service) (router : Router)
    (service : Service) : Prop := ∀ route ∈ ax.routes router, route.2 = service

/-- What the layers of the endpoint make of the service behind the inbound limit. -/
def endpointService (config : McpConfig) (authState : AuthState) (limited : HttpService W G) :
    HttpService W G :=
  let transport := config.server.transport.streamableHttp
  let hardening := transport.effectiveHardening
  let inner := match buildSessionCreationRateLimiter hardening with
    | none => limited
    | some limiter => lib.sessionCreationLayer limiter limited
  let inner := lib.bodyLimitLayer hardening.maxRequestBytes.toNat inner
  let inner := lib.negotiationLayer transport.protocolVersionNegotiation inner
  let inner := HttpLibraries.routeGuardLayer (.fromConfig config) inner
  if config.server.authActive then lib.authLayer authState inner else inner

section Serves
variable {lib} {ax : Axum Router (HttpService W G)} (nesting : ax.Nesting)
include nesting

theorem serves_layer {router : Router} {service : HttpService W G}
    (h : Serves ax router service) (wrap : HttpService W G → HttpService W G) :
    Serves ax (ax.layer router wrap) (wrap service) := by
  intro route hroute
  rw [Axum.routes, nesting.entries_layer, List.map_map] at hroute
  obtain ⟨inner, hinner, rfl⟩ := List.mem_map.mp hroute
  exact congrArg wrap (h _ (List.mem_map_of_mem hinner))

theorem serves_nestService {router : Router} {lead : String} {service : HttpService W G}
    (h : ax.nestService ax.new lead service = some router) : Serves ax router service := by
  intro route hroute
  rw [Axum.routes, nesting.entries_nestService _ _ _ _ h, nesting.entries_new, List.nil_append,
    List.map_map] at hroute
  obtain ⟨place, _, rfl⟩ := List.mem_map.mp hroute
  rfl

/-- The limit that is on counts what comes to it. -/
theorem serves_inboundLimit {hardening : StreamableHttpHardeningConfig}
    {rateLimit : StreamableHttpRateLimitConfig} {router limited : Router}
    {service : HttpService W G} (active : hardening.rateLimit.filter (·.isActive) = some rateLimit)
    (h : Serves ax router service)
    (hlimited : applyInboundRateLimitLayer ax lib.serverLayers router hardening = .ok limited) :
    rateLimit.hasAnyBucket = true ∧
      ∃ inner, Counts (bucketKeys rateLimit) inner ∧ Serves ax limited inner := by
  unfold applyInboundRateLimitLayer at hlimited
  rw [active] at hlimited
  simp only at hlimited
  split at hlimited
  · cases hlimited
  · rename_i hbucket
    refine ⟨by simpa using hbucket, ?_⟩
    obtain ⟨enabled, globalBucket, perIpBucket⟩ := rateLimit
    have hfirst : ∃ global inner, Serves ax global inner ∧
        Counts (fun _ => globalBucket.toList.map fun _ => GovernorKey.global) inner ∧
        (perIpBucket = none → global = limited) ∧
        ∀ bucket, perIpBucket = some bucket → ((buildPerIpRateLimit bucket).map fun config =>
          ax.layer global (lib.serverLayers.governor config)) = Except.ok limited := by
      cases globalBucket with
      | none =>
        refine ⟨router, service, h, fun _ _ => .inr (List.forall_mem_nil _), ?_, ?_⟩
        · rintro rfl
          exact Except.ok.inj hlimited
        · rintro bucket rfl
          exact hlimited
      | some bucket =>
        obtain ⟨global, hglobal, hlimited⟩ := bind_eq_ok hlimited
        obtain ⟨config, hconfig, rfl⟩ := except_map_eq_ok hglobal
        have hcounts := @counts_governor _ _ _ _ _ lib config (fun _ => []) service
          fun _ _ => .inr (List.forall_mem_nil _)
        rw [governorConfig_keyExtractor hconfig] at hcounts
        refine ⟨_, _, serves_layer nesting h _, hcounts, ?_, ?_⟩
        · rintro rfl
          exact Except.ok.inj hlimited
        · rintro bucket rfl
          exact hlimited
    obtain ⟨global, inner, hserves, hcounts, hlast, hlimited⟩ := hfirst
    cases perIpBucket with
    | none =>
      obtain rfl := hlast rfl
      exact ⟨inner, hcounts, hserves⟩
    | some bucket =>
      obtain ⟨config, hconfig, rfl⟩ := except_map_eq_ok (hlimited bucket rfl)
      have hboth := @counts_governor _ _ _ _ _ lib config _ _ hcounts
      rw [governorConfig_keyExtractor hconfig] at hboth
      exact ⟨_, hboth, serves_layer nesting hserves _⟩

/-- The router of the endpoint serves what the layers make of a service that counts. -/
theorem serves_endpointService {config : McpConfig} {authState : AuthState}
    {rateLimit : StreamableHttpRateLimitConfig} {router : Router}
    (active : config.server.transport.streamableHttp.effectiveHardening.rateLimit.filter
      (·.isActive) = some rateLimit)
    (built : buildMcpRouter ax lib.serverLayers config authState = some (.ok router)) :
    rateLimit.hasAnyBucket = true ∧ ∃ limited, Counts (bucketKeys rateLimit) limited ∧
      Serves ax router (endpointService lib config authState limited) := by
  unfold buildMcpRouter at built
  obtain ⟨nested, hnested, hlayered⟩ := Option.map_eq_some_iff.mp built
  unfold layerMcpRouter at hlayered
  obtain ⟨limitedRouter, hlimited, hlayered⟩ := bind_eq_ok hlayered
  obtain ⟨hbucket, limited, hcounts, hserves⟩ := serves_inboundLimit nesting active
    (serves_nestService nesting hnested) hlimited
  refine ⟨hbucket, limited, hcounts, ?_⟩
  have hsession : Serves ax (applySessionCreationRateLimitLayer ax lib.serverLayers limitedRouter
      config.server.transport.streamableHttp.effectiveHardening)
      (match buildSessionCreationRateLimiter
          config.server.transport.streamableHttp.effectiveHardening with
        | none => limited
        | some limiter => lib.sessionCreationLayer limiter limited) := by
    unfold applySessionCreationRateLimitLayer
    cases buildSessionCreationRateLimiter
        config.server.transport.streamableHttp.effectiveHardening with
    | none => exact hserves
    | some limiter => exact serves_layer nesting hserves _
  have hbody := serves_layer nesting hsession (lib.serverLayers.requestBodyLimit
    config.server.transport.streamableHttp.effectiveHardening.maxRequestBytes.toNat)
  have hnegotiation := serves_layer nesting hbody (lib.serverLayers.protocolVersionNegotiation
    config.server.transport.streamableHttp.protocolVersionNegotiation)
  have hguard := serves_layer nesting hnegotiation
    (lib.serverLayers.routeGuard (.fromConfig config))
  rw [← Except.ok.inj hlayered]
  unfold endpointService
  split
  · exact serves_layer nesting hguard (lib.serverLayers.authMiddleware authState)
  · exact hguard

end Serves

/-! ## What gets through the layers -/

theorem lookup_remove {headers : HeaderMap} {name other : String} (h : other ≠ name) :
    (HeaderMap.remove headers name).lookup other = headers.lookup other := by
  unfold HeaderMap.remove
  induction headers with
  | nil => rfl
  | cons header headers ih =>
    obtain ⟨own, value⟩ := header
    by_cases hown : own = name
    · rw [List.filter_cons_of_neg (by simpa using hown), ih, List.lookup_cons,
        beq_eq_false_iff_ne.mpr (by rwa [hown])]
    · rw [List.filter_cons_of_pos (by simpa using hown), List.lookup_cons, List.lookup_cons, ih]

theorem lookup_normalize {knownVersions : List String} {mode : ProtocolVersionNegotiationMode}
    {headers : HeaderMap} {name : String} (h : name ≠ MCP_PROTOCOL_VERSION_HEADER) :
    (normalizeProtocolVersionHeader knownVersions mode headers).lookup name =
      headers.lookup name := by
  unfold normalizeProtocolVersionHeader
  split
  · rfl
  · split
    · rfl
    · split
      · exact lookup_remove h
      · split
        · rfl
        · exact lookup_remove h

/-- The request as the layers behind the negotiation see it. -/
def HttpRequest.negotiated (config : McpConfig) (request : HttpRequest) : HttpRequest :=
  { request with
    headers := normalizeProtocolVersionHeader lib.knownVersions
      config.server.transport.streamableHttp.protocolVersionNegotiation request.headers }

section Negotiated
variable {config : McpConfig} {request : HttpRequest}

theorem isSessionCreationRequest_negotiated :
    isSessionCreationRequest (request.negotiated lib config) = isSessionCreationRequest request := by
  unfold isSessionCreationRequest HttpRequest.negotiated
  rw [lookup_normalize (by decide)]

theorem extractRateLimitKey_negotiated {keySource : StreamableHttpRateLimitKeySource} :
    extractRateLimitKey (request.negotiated lib config) keySource =
      extractRateLimitKey request keySource := by
  unfold extractRateLimitKey HttpRequest.negotiated
  cases keySource with
  | peerAddr => rfl
  | xForwardedFor =>
    simp only
    rw [lookup_normalize (by decide)]
    rfl

theorem extractKey_negotiated {limiter : SessionCreationRateLimiter} :
    limiter.extractKey (request.negotiated lib config) = limiter.extractKey request := by
  unfold SessionCreationRateLimiter.extractKey
  rw [extractRateLimitKey_negotiated]

theorem bucketKeys_negotiated {rateLimit : StreamableHttpRateLimitConfig} :
    bucketKeys rateLimit (request.negotiated lib config) = bucketKeys rateLimit request := by
  unfold bucketKeys
  simp only [extractRateLimitKey_negotiated]

end Negotiated

/-- The world that is left when the request has been authorized. -/
def worldAfterAuth (config : McpConfig) (authState : AuthState) (request : HttpRequest)
    (s : InboundState W G) : W :=
  if config.server.authActive then
    (authState.authorize lib.jwt lib.net request.headers s.world).2.2
  else s.world

/-- No layer in front of the limit answers the request itself. -/
structure Admitted (config : McpConfig) (authState : AuthState) (request : HttpRequest)
    (s : InboundState W G) : Prop where
  authorized : config.server.authActive = true →
    (authState.authorize lib.jwt lib.net request.headers s.world).1 = .allow
  allowed : (StreamableHttpRoutePolicy.fromConfig config).refusal request = none
  small : lib.bodyLimit
    config.server.transport.streamableHttp.effectiveHardening.maxRequestBytes.toNat
    (request.negotiated lib config) = none
  created : ∀ limiter, buildSessionCreationRateLimiter
      config.server.transport.streamableHttp.effectiveHardening = some limiter →
    isSessionCreationRequest request = true →
    (limiter.allowWithKey s.sessions (limiter.extractKey request)
      (lib.readings (worldAfterAuth lib config authState request s)).1).1 = true

section Logs
variable {config : McpConfig} {authState : AuthState} {request : HttpRequest}
  {s : InboundState W G} {inner : HttpService W G}

theorem refuse_ne_next {status : ℕ} {challenge : Option String} :
    refuse status challenge ≠ .next := by
  unfold refuse
  split
  · exact nofun
  · split
    · exact nofun
    · exact nofun

theorem authMiddleware_next {headers : HeaderMap} {w : W} :
    (authMiddleware lib.jwt lib.net authState headers w).1 = .next ↔
      (authState.authorize lib.jwt lib.net headers w).1 = .allow := by
  unfold authMiddleware
  rcases authState.authorize lib.jwt lib.net headers w with ⟨decision, _, _⟩
  cases decision with
  | allow => exact iff_of_true rfl rfl
  | unauthorized scope => exact iff_of_false refuse_ne_next nofun
  | forbidden scope => exact iff_of_false refuse_ne_next nofun

theorem authMiddleware_world {headers : HeaderMap} {w : W} :
    (authMiddleware lib.jwt lib.net authState headers w).2 =
      (authState.authorize lib.jwt lib.net headers w).2.2 := by
  unfold authMiddleware
  rcases authState.authorize lib.jwt lib.net headers w with ⟨decision, _, _⟩
  cases decision <;> rfl

theorem authLayer_log : (lib.authLayer authState inner request s).2.2 =
    if (authState.authorize lib.jwt lib.net request.headers s.world).1 = .allow then
      (inner request { s with
        world := (authState.authorize lib.jwt lib.net request.headers s.world).2.2 }).2.2
    else [] := by
  rw [← authMiddleware_world]
  simp only [← authMiddleware_next]
  unfold HttpLibraries.authLayer
  rcases authMiddleware lib.jwt lib.net authState request.headers s.world with ⟨outcome, world⟩
  cases outcome <;> rfl

theorem routeGuardLayer_log {policy : StreamableHttpRoutePolicy} :
    (HttpLibraries.routeGuardLayer policy inner request s).2.2 =
      if policy.refusal request = none then (inner request s).2.2 else [] := by
  unfold HttpLibraries.routeGuardLayer
  cases policy.refusal request <;> rfl

theorem bodyLimitLayer_log {limit : ℕ} : (lib.bodyLimitLayer limit inner request s).2.2 =
    if lib.bodyLimit limit request = none then (inner request s).2.2 else [] := by
  unfold HttpLibraries.bodyLimitLayer
  cases lib.bodyLimit limit request <;> rfl

theorem sessionCreationLayer_log {limiter : SessionCreationRateLimiter} :
    ∃ next, (lib.sessionCreationLayer limiter inner request s).2.2 =
      if isSessionCreationRequest request = true → (limiter.allowWithKey s.sessions
          (limiter.extractKey request) (lib.readings s.world).1).1 = true
        then (inner request next).2.2 else [] := by
  unfold HttpLibraries.sessionCreationLayer
  by_cases hcreation : isSessionCreationRequest request = true
  · simp only [hcreation, if_true, forall_const]
    cases (limiter.allowWithKey s.sessions (limiter.extractKey request) (lib.readings s.world).1).1 with
    | false => exact ⟨s, rfl⟩
    | true => exact ⟨_, rfl⟩
  · refine ⟨s, ?_⟩
    rw [if_neg hcreation, if_pos fun h => absurd h hcreation]

theorem authorized_log {guarded : HttpService W G} :
    ((if config.server.authActive then lib.authLayer authState guarded else guarded)
      request s).2.2 =
    if config.server.authActive = true →
        (authState.authorize lib.jwt lib.net request.headers s.world).1 = .allow then
      (guarded request { s with world := worldAfterAuth lib config authState request s }).2.2
    else [] := by
  unfold worldAfterAuth
  by_cases hactive : config.server.authActive = true
  · simp only [hactive, if_true, forall_const]
    exact authLayer_log lib
  · rw [if_neg hactive, if_pos fun h => absurd h hactive, if_neg hactive]

theorem limited_log {limiter : Option SessionCreationRateLimiter} {limited : HttpService W G} :
    ∃ next, ((match limiter with
      | none => limited
      | some limiter => lib.sessionCreationLayer limiter limited) request s).2.2 =
    if ∀ only, limiter = some only → isSessionCreationRequest request = true →
        (only.allowWithKey s.sessions (only.extractKey request) (lib.readings s.world).1).1 = true
      then (limited request next).2.2 else [] := by
  cases limiter with
  | none =>
    refine ⟨s, ?_⟩
    rw [if_pos nofun]
  | some limiter =>
    obtain ⟨next, hnext⟩ : ∃ next,
        (lib.sessionCreationLayer limiter limited request s).2.2 = _ := sessionCreationLayer_log lib
    refine ⟨next, hnext.trans (if_congr ?_ rfl rfl)⟩
    refine ⟨fun h only honly => ?_, fun h => h limiter rfl⟩
    cases honly
    exact h

/-- What is admitted comes to the service itself, and nothing else does. -/
theorem endpointService_log {limited : HttpService W G} :
    (Admitted lib config authState request s ∧ ∃ next,
      (endpointService lib config authState limited request s).2.2 =
        (limited (request.negotiated lib config) next).2.2) ∨
    (¬ Admitted lib config authState request s ∧
      (endpointService lib config authState limited request s).2.2 = []) := by
  unfold endpointService
  rw [authorized_log, routeGuardLayer_log]
  split
  · rename_i hauthorized
    split
    · rename_i hallowed
      change (_ ∧ ∃ next, (lib.bodyLimitLayer _ _ (request.negotiated lib config) _).2.2 = _) ∨
        (_ ∧ (lib.bodyLimitLayer _ _ (request.negotiated lib config) _).2.2 = _)
      rw [bodyLimitLayer_log]
      split
      · rename_i hsmall
        obtain ⟨next, hnext⟩ := @limited_log _ _ _ _ _ lib (request.negotiated lib config)
          { s with world := worldAfterAuth lib config authState request s }
          (buildSessionCreationRateLimiter
            config.server.transport.streamableHttp.effectiveHardening) limited
        rw [hnext, isSessionCreationRequest_negotiated]
        split
        · rename_i hcreated
          refine .inl ⟨⟨hauthorized, hallowed, hsmall, fun limiter hlimiter hcreation => ?_⟩,
            next, rfl⟩
          have hallow := hcreated limiter hlimiter hcreation
          rwa [extractKey_negotiated] at hallow
        · rename_i hrefused
          refine .inr ⟨fun h => hrefused fun limiter hlimiter hcreation => ?_, rfl⟩
          rw [extractKey_negotiated]
          exact h.created limiter hlimiter hcreation
      · rename_i hlarge
        exact .inr ⟨fun h => hlarge h.small, rfl⟩
    · rename_i hrefused
      exact .inr ⟨fun h => hrefused h.allowed, rfl⟩
  · rename_i hunauthorized
    exact .inr ⟨fun h => hunauthorized h.authorized, rfl⟩

end Logs

/-! ## Sequences of requests -/

/-- A request, the state it met and the buckets it asked. -/
structure Passage (W G : Type) where
  request : HttpRequest
  before : InboundState W G
  log : BucketLog

def passages (service : HttpService W G) : List HttpRequest → InboundState W G → List (Passage W G)
  | [], _ => []
  | request :: requests, s =>
    let (_, next, log) := service request s
    ⟨request, s, log⟩ :: passages service requests next

theorem log_of_mem_passages {service : HttpService W G} {requests : List HttpRequest}
    {s : InboundState W G} {passage : Passage W G} (h : passage ∈ passages service requests s) :
    passage.log = (service passage.request passage.before).2.2 := by
  induction requests generalizing s with
  | nil => cases h
  | cons request requests ih =>
    rcases List.mem_cons.mp h with rfl | h
    · rfl
    · exact ih h

/-- The inbound limit counts every request of a sequence exactly when no layer in front of it
answers one itself. -/
theorem inboundLimit_covers {ax : Axum Router (HttpService W G)} (nesting : ax.Nesting)
    {config : McpConfig} {authState : AuthState} {rateLimit : StreamableHttpRateLimitConfig}
    {router : Router} {route : String × HttpService W G}
    (active : config.server.transport.streamableHttp.effectiveHardening.rateLimit.filter
      (·.isActive) = some rateLimit)
    (built : buildMcpRouter ax lib.serverLayers config authState = some (.ok router))
    (served : route ∈ ax.routes router) (requests : List HttpRequest) (s : InboundState W G) :
    (∀ passage ∈ passages route.2 requests s,
      Charged (bucketKeys rateLimit passage.request) passage.log) ↔
    ∀ passage ∈ passages route.2 requests s,
      Admitted lib config authState passage.request passage.before := by
  obtain ⟨hbucket, limited, hcounts, hserves⟩ := serves_endpointService nesting active built
  refine forall₂_congr fun passage hpassage => ?_
  rw [log_of_mem_passages hpassage, hserves route served]
  rcases @endpointService_log _ _ _ _ _ lib config authState passage.request passage.before limited
    with ⟨hadmitted, next, hlog⟩ | ⟨hrefused, hlog⟩
  · refine iff_of_true ?_ hadmitted
    rw [hlog, ← bucketKeys_negotiated lib]
    exact hcounts _ _
  · refine iff_of_false ?_ hrefused
    rw [hlog]
    exact not_charged_nil (bucketKeys_ne_nil hbucket)

/-- A governor with a bucket of a fixed size, and a server that answers everything. -/
def sampleLibraries : HttpLibraries Bool Unit Unit Unit ℕ where
  jwt := signedToken .null
  net := honestNetwork .null
  readings w := (⟨0, 0, 0⟩, w)
  governor _ _ left := if 0 < left then (none, left - 1) else (some (.text 429 ""), left)
  bodyLimit _ _ := none
  streamableHttpService _ _ w := (.text 200 "", w)
  oauthResourceMetadata _ := .text 200 ""
  panicked := .text 500 ""
  knownVersions := []

/-- A limit of one request. -/
def oneRequest : StreamableHttpRateLimitConfig := ⟨none, some ⟨1, 1⟩, none⟩

def withRateLimit (config : McpConfig) (rateLimit : StreamableHttpRateLimitConfig) : McpConfig :=
  { config with server := { config.server with transport := { TransportConfig.default with
      streamableHttp := { TransportConfig.default.streamableHttp with
        hardening := some { StreamableHttpHardeningConfig.default with
          rateLimit := some rateLimit } } } } }

def plainRequest : HttpRequest := ⟨"POST", [], ⟨none, none⟩⟩

def protectedConfig : McpConfig :=
  withRateLimit (.withProviders [.jwks (jwksProvider [] [])]) oneRequest

/-- A request without a token is answered, and no bucket was asked. -/
theorem inboundLimit_misses : ∃ authState router path service,
    validateTransport .full protectedConfig = .ok .streamableHttp ∧
    buildAuthStateWithPlugins protectedConfig none = .ok authState ∧
    buildMcpRouter (.table _) sampleLibraries.serverLayers protectedConfig authState =
      some (.ok router) ∧
    (path, service) ∈ (Axum.table _).routes router ∧
    (service plainRequest ⟨(), 1, ⟨.new ⟨0, 0⟩ 0, ∅⟩⟩).1.map Response.status = some 401 ∧
    ∃ passage ∈ passages service [plainRequest] ⟨(), 1, ⟨.new ⟨0, 0⟩ 0, ∅⟩⟩,
      ¬ Charged (bucketKeys oneRequest passage.request) passage.log := by
  refine ⟨_, _, _, _, rfl, rfl, rfl, List.mem_cons_self, by decide +kernel, _,
    List.mem_cons_self, ?_⟩
  exact not_charged_nil (bucketKeys_ne_nil rfl)

/-- Without authentication both requests are counted, the second in vain. -/
theorem inboundLimit_covers_open : ∃ router path service,
    buildMcpRouter (.table _) sampleLibraries.serverLayers (withRateLimit .empty oneRequest)
      (buildAuthState .empty true) = some (.ok router) ∧
    (path, service) ∈ (Axum.table _).routes router ∧
    ∀ passage ∈ passages service [plainRequest, plainRequest] ⟨(), 1, ⟨.new ⟨0, 0⟩ 0, ∅⟩⟩,
      Charged (bucketKeys oneRequest passage.request) passage.log := by
  refine ⟨_, _, _, rfl, List.mem_cons_self, ?_⟩
  refine (@inboundLimit_covers _ _ _ _ _ _ sampleLibraries _ Axum.table_documented.toNesting
    (withRateLimit .empty oneRequest) (buildAuthState .empty true) _ _ _ rfl rfl
    List.mem_cons_self [plainRequest, plainRequest] ⟨(), 1, ⟨.new ⟨0, 0⟩ 0, ∅⟩⟩).mpr ?_
  have hadmitted : ∀ s, Admitted sampleLibraries (withRateLimit .empty oneRequest)
      (buildAuthState .empty true) plainRequest s := by
    intro s
    refine ⟨fun hactive => absurd hactive (by decide), by decide +kernel, rfl, ?_⟩
    intro limiter hlimiter
    cases hlimiter
  intro passage hpassage
  rcases List.mem_cons.mp hpassage with rfl | hpassage
  · exact hadmitted _
  · rcases List.mem_cons.mp hpassage with rfl | hpassage
    · exact hadmitted _
    · cases hpassage

end RustMcpCore
