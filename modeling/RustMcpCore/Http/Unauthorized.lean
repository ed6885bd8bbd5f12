import RustMcpCore.Http.Coverage
import RustMcpCore.Http.Mounting

/-! # What unauthorized requests can do

With authentication on, its middleware is in front of all other layers of the endpoint: what
it refuses asks no limit and comes to no session. A request without a token is refused
before anything is looked up, so that it could as well not have been sent.
-/
namespace RustMcpCore
open Library
variable {Alg Jwk Key W G Router : Type}

/-! ## Sequences of requests -/

/-- A request, its response and the states around it. -/
structure RoundTrip (W G : Type) where
  request : HttpRequest
  before : InboundState W G
  response : Option Response
  after : InboundState W G

def roundTrips (service : HttpService W G) :
    List HttpRequest → InboundState W G → List (RoundTrip W G)
  | [], _ => []
  | request :: requests, s =>
    let (response, next, _) := service request s
    ⟨request, s, response, next⟩ :: roundTrips service requests next

/-- The state that a sequence of requests leaves. -/
def stateAfter (service : HttpService W G) (requests : List HttpRequest) (s : InboundState W G) :
    InboundState W G :=
  requests.foldl (fun s request => (service request s).2.1) s

section RoundTrips
variable {service : HttpService W G} {requests : List HttpRequest} {s : InboundState W G}

theorem of_mem_roundTrips {trip : RoundTrip W G} (h : trip ∈ roundTrips service requests s) :
    trip.response = (service trip.request trip.before).1 ∧
      trip.after = (service trip.request trip.before).2.1 := by
  induction requests generalizing s with
  | nil => cases h
  | cons request requests ih =>
    rcases List.mem_cons.mp h with rfl | h
    · exact ⟨rfl, rfl⟩
    · exact ih h

variable {unheard : HttpRequest → Bool}
  (untouched : ∀ request s, unheard request = true → (service request s).2.1 = s)
include untouched

/-- Requests that leave the state alone can be left out: the others are answered as before. -/
theorem roundTrips_filter :
    roundTrips service (requests.filter (!unheard ·)) s =
      (roundTrips service requests s).filter (!unheard ·.request) := by
  induction requests generalizing s with
  | nil => rfl
  | cons request requests ih =>
    have hcons : roundTrips service (request :: requests) s =
        ⟨request, s, (service request s).1, (service request s).2.1⟩ ::
          roundTrips service requests (service request s).2.1 := rfl
    cases hunheard : unheard request with
    | true =>
      rw [List.filter_cons_of_neg (by simp [hunheard]), hcons,
        List.filter_cons_of_neg (by simp [hunheard]), untouched request s hunheard, ih]
    | false =>
      rw [List.filter_cons_of_pos (by simp [hunheard]), hcons,
        List.filter_cons_of_pos (by simp [hunheard]), ← ih]
      rfl

theorem stateAfter_filter :
    stateAfter service (requests.filter (!unheard ·)) s = stateAfter service requests s := by
  induction requests generalizing s with
  | nil => rfl
  | cons request requests ih =>
    have hcons : stateAfter service (request :: requests) s =
        stateAfter service requests (service request s).2.1 := rfl
    cases hunheard : unheard request with
    | true =>
      rw [List.filter_cons_of_neg (by simp [hunheard]), hcons, untouched request s hunheard, ih]
    | false =>
      rw [List.filter_cons_of_pos (by simp [hunheard]), hcons, ← ih]
      rfl

end RoundTrips

/-! ## What stands at the paths of the endpoint -/

/-- A router with one service, at the places. -/
def ServesAt {Service : Type} (ax : Axum Router Service) (router : Router) (places : List Place)
    (service : Service) : Prop := ax.entries router = places.map (·, service)

section ServesAt
variable {Service : Type} {ax : Axum Router Service} {layers : ServerLayers Service}
  {router limited : Router} {places : List Place} {service : Service}

theorem ServesAt.places_eq (h : ServesAt ax router places service) : ax.places router = places := by
  unfold Axum.places
  rw [h, List.map_map]
  exact List.map_id _

variable (nesting : ax.Nesting)
include nesting

theorem ServesAt.layer (h : ServesAt ax router places service) (wrap : Service → Service) :
    ServesAt ax (ax.layer router wrap) places (wrap service) := by
  unfold ServesAt at *
  rw [nesting.entries_layer, h, List.map_map]
  rfl

theorem servesAt_nestService {lead : String} (h : ax.nestService ax.new lead service = some router) :
    ServesAt ax router (Axum.servicePlaces lead) service := by
  unfold ServesAt
  rw [nesting.entries_nestService _ _ _ _ h, nesting.entries_new, List.nil_append]

theorem ServesAt.inboundLimit {hardening : StreamableHttpHardeningConfig}
    (h : ServesAt ax router places service)
    (hlimited : applyInboundRateLimitLayer ax layers router hardening = .ok limited) :
    ∃ inner, ServesAt ax limited places inner := by
  unfold applyInboundRateLimitLayer at hlimited
  cases hactive : hardening.rateLimit.filter (·.isActive) with
  | none =>
    rw [hactive] at hlimited
    exact ⟨service, Except.ok.inj hlimited ▸ h⟩
  | some rateLimit =>
    rw [hactive] at hlimited
    simp only at hlimited
    split at hlimited
    · cases hlimited
    · obtain ⟨enabled, globalBucket, perIpBucket⟩ := rateLimit
      have hfirst : ∃ global inner, ServesAt ax global places inner ∧
          (perIpBucket = none → global = limited) ∧
          ∀ bucket, perIpBucket = some bucket → ((buildPerIpRateLimit bucket).map fun config =>
            ax.layer global (layers.governor config)) = Except.ok limited := by
        cases globalBucket with
        | none =>
          refine ⟨router, service, h, ?_, ?_⟩
          · rintro rfl
            exact Except.ok.inj hlimited
          · rintro bucket rfl
            exact hlimited
        | some bucket =>
          obtain ⟨global, hglobal, hlimited⟩ := bind_eq_ok hlimited
          obtain ⟨config, _, rfl⟩ := except_map_eq_ok hglobal
          refine ⟨_, _, h.layer nesting (layers.governor config), ?_, ?_⟩
          · rintro rfl
            exact Except.ok.inj hlimited
          · rintro bucket rfl
            exact hlimited
      obtain ⟨global, inner, hinner, hlast, hlimited⟩ := hfirst
      cases perIpBucket with
      | none =>
        obtain rfl := hlast rfl
        exact ⟨inner, hinner⟩
      | some bucket =>
        obtain ⟨config, _, rfl⟩ := except_map_eq_ok (hlimited bucket rfl)
        exact ⟨_, hinner.layer nesting _⟩

theorem ServesAt.sessionCreation {hardening : StreamableHttpHardeningConfig}
    (h : ServesAt ax router places service) :
    ∃ inner, ServesAt ax (applySessionCreationRateLimitLayer ax layers router hardening) places
      inner := by
  unfold applySessionCreationRateLimitLayer
  split
  · exact ⟨service, h⟩
  · exact ⟨_, h.layer nesting _⟩

/-- With authentication on, the middleware is the outermost layer. -/
theorem buildMcpRouter_servesAt {config : McpConfig} {authState : AuthState}
    (active : config.server.authActive = true)
    (built : buildMcpRouter ax layers config authState = some (.ok router)) :
    ∃ guarded, ServesAt ax router
      (Axum.servicePlaces (normalizeEndpointPath config.server.endpointPath))
      (layers.authMiddleware authState guarded) := by
  unfold buildMcpRouter at built
  obtain ⟨nested, hnested, hlayered⟩ := Option.map_eq_some_iff.mp built
  have hservice := servesAt_nestService nesting hnested
  unfold layerMcpRouter at hlayered
  obtain ⟨limited, hlimited, hlayered⟩ := bind_eq_ok hlayered
  obtain ⟨_, hcounted⟩ := hservice.inboundLimit nesting hlimited
  obtain ⟨inner, hcreation⟩ : ∃ inner, ServesAt ax
      (applySessionCreationRateLimitLayer ax layers limited
        config.server.transport.streamableHttp.effectiveHardening) _ inner :=
    hcounted.sessionCreation nesting
  have hbody := hcreation.layer nesting (layers.requestBodyLimit
    config.server.transport.streamableHttp.effectiveHardening.maxRequestBytes.toNat)
  have hnegotiation := hbody.layer nesting (layers.protocolVersionNegotiation
    config.server.transport.streamableHttp.protocolVersionNegotiation)
  have hguard := hnegotiation.layer nesting (layers.routeGuard (.fromConfig config))
  have hauth := hguard.layer nesting (layers.authMiddleware authState)
  rw [active] at hlayered
  cases hlayered
  exact ⟨_, hauth⟩

end ServesAt

section Assembled
variable {Service : Type} {ax : Axum Router Service} (documented : ax.Documented)
  {router : Router} {place : Place} {service : Service}
include documented

/-- What is nested later does not conflict with what is there. -/
theorem entries_nest {mounts : List (String × Router)} {app : Router}
    (h : mounts.foldlM (fun app mount => ax.nest app mount.1 mount.2) app = some router) :
    ∃ added, ax.entries router = ax.entries app ++ added ∧
      ∀ place ∈ ax.places app, ∀ entry ∈ added, ax.conflicts place entry.1 = false := by
  induction mounts generalizing app with
  | nil =>
    refine ⟨[], ?_, fun _ _ => List.forall_mem_nil _⟩
    rw [Option.some.inj h, List.append_nil]
  | cons mount rest ih =>
    obtain ⟨next, hnext, hrest⟩ := Option.bind_eq_some_iff.mp h
    obtain ⟨_, hfree, _, hplaces, _⟩ := of_nest documented hnext
    obtain ⟨later, hlater, hapart⟩ := ih hrest
    have hentries := ((documented.nest_eq app mount.1 mount.2).2 next hnext).1
    rw [hentries, List.append_assoc] at hlater
    refine ⟨_, hlater, fun place hplace => List.forall_mem_append.mpr ⟨?_, ?_⟩⟩
    · refine List.forall_mem_map.mpr fun entry hentry => ?_
      refine (hfree _ ?_).2.2 place hplace
      exact List.mem_map_of_mem (List.mem_map_of_mem hentry)
    · refine hapart place ?_
      rw [hplaces]
      exact List.mem_append_left _ hplace

/-- The entries of the router that is put together, none of which conflict. -/
theorem entries_assembled {mounts : List (String × Router)} {app mcp merged : Router}
    (hmerged : ax.merge app mcp = some merged)
    (hnested : mounts.foldlM (fun app mount => ax.nest app mount.1 mount.2) merged = some router) :
    ∃ added, ax.entries router = ax.entries app ++ ax.entries mcp ++ added ∧
      (∀ place ∈ ax.places app, ∀ other ∈ ax.places mcp, ax.conflicts place other = false) ∧
      ∀ place ∈ ax.places app ++ ax.places mcp, ∀ entry ∈ added,
        ax.conflicts place entry.1 = false := by
  obtain ⟨hnone, hsome⟩ := documented.merge_eq app mcp
  obtain ⟨_, hfree, _⟩ :=
    not_not.mp (mt hnone.mpr (by rw [hmerged]; exact Option.some_ne_none merged))
  obtain ⟨added, hentries, hapart⟩ := entries_nest documented hnested
  have hplaces : ax.places merged = ax.places app ++ ax.places mcp := by
    unfold Axum.places
    rw [(hsome merged hmerged).1, List.map_append]
  rw [(hsome merged hmerged).1] at hentries
  rw [hplaces] at hapart
  exact ⟨added, hentries, fun place hplace other hother => (hfree other hother).2.2 place hplace,
    hapart⟩

/-- A nested service has its path for itself. -/
theorem path_ne_of_nested {other : Place} (h : ax.conflicts place other = false)
    (hnested : place.methods = none ∨ other.methods = none) : place.path ≠ other.path := by
  intro hpath
  have hjoins := documented.joins_of_free h hpath
  rcases hnested with hnested | hnested
  · simp [Place.joins, hnested] at hjoins
  · simp [Place.joins, hnested] at hjoins

end Assembled

/-- The service with the hardening layers around it. -/
def HttpLibraries.hardenedService (lib : HttpLibraries Alg Jwk Key W G)
    (hardening : StreamableHttpHardeningConfig) (service : HttpService W G) : HttpService W G :=
  if hardening.catchPanics then lib.catchPanicLayer service else service

/-- Plugins none of which puts a layer around the covered paths put none there together. -/
theorem wrapsOn_flatten_eq_nil {plugins : String → Option (HttpRouterPlugin Router)}
    {ctx : RuntimeContext} {covered : List String} {pluginCfgs : List PluginConfig}
    {parts : List (List (Applied Router))}
    (unwrapped : ∀ pluginCfg ∈ pluginCfgs, ∀ part, Answered plugins ctx pluginCfg part →
      wrapsOn covered part = [])
    (h : List.Forall₂ (Answered plugins ctx) pluginCfgs parts) :
    wrapsOn covered parts.flatten = [] := by
  induction h with
  | nil => rfl
  | @cons pluginCfg part pluginCfgs parts hpart _ ih =>
    have hfirst : wrapsOn covered part = [] := unwrapped pluginCfg List.mem_cons_self part hpart
    have hrest : wrapsOn covered parts.flatten = [] :=
      ih fun other hother => unwrapped other (List.mem_cons_of_mem _ hother)
    unfold wrapsOn at *
    rw [List.flatten_cons, List.filterMap_append, hfirst, hrest, List.append_nil]

/-- What the router is put together from. -/
theorem buildStreamableHttpRouter_eq_ok {Service : Type} {ax : Axum Router Service}
    (layers : ServerLayers Service) {config : McpConfig} {authState : AuthState}
    {plugins : String → Option (HttpRouterPlugin Router)} {router : Router}
    (built : buildStreamableHttpRouter ax layers config authState plugins = some (.ok router)) :
    ∃ mcpRouter appRouter parts merged,
      buildMcpRouter ax layers config authState = some (.ok mcpRouter) ∧
      initialAppRouter ax layers authState = some appRouter ∧
      List.Forall₂ (Answered plugins (buildRuntimeContext config authState))
        (config.plugins.filter fun plugin => plugin.pluginType = .httpRouter) parts ∧
      ax.merge (wrapAround (wrapsOn [] parts.flatten) appRouter)
        (wrapAround (hardeningLayers ax layers
            config.server.transport.streamableHttp.effectiveHardening ++
          wrapsOn [normalizeEndpointPath config.server.endpointPath] parts.flatten) mcpRouter) =
            some merged ∧
      (mounts parts.flatten).foldlM (fun app mount => ax.nest app mount.1 mount.2) merged =
        some router := by
  unfold buildStreamableHttpRouter at built
  obtain ⟨result, hmcp, built⟩ := Option.bind_eq_some_iff.mp built
  cases result with
  | error e => cases built
  | ok mcpRouter =>
    obtain ⟨appRouter, happ, built⟩ := Option.bind_eq_some_iff.mp built
    have hlayers : applyStreamableHttpHardeningLayers ax layers (PluginRouteState.new
        mcpRouter appRouter (normalizeEndpointPath config.server.endpointPath)
          authState).mcpSegment config.server.transport.streamableHttp.effectiveHardening =
            .ok ⟨mcpRouter, hardeningLayers ax layers
              config.server.transport.streamableHttp.effectiveHardening⟩ :=
      hardeningLayers_eq ax layers mcpRouter _
    simp only [hlayers] at built
    split at built
    · cases built
    · rename_i state hstate
      obtain ⟨app, hassembled, hrouter⟩ := Option.map_eq_some_iff.mp built
      cases hrouter
      have hstart : Composed (initialRouteState ax layers config authState mcpRouter appRouter) []
          (initialRouteState ax layers config authState mcpRouter appRouter) :=
        composed_start rfl rfl rfl
      obtain ⟨parts, hparts, hcomposed⟩ := processPlugins_composed
        (mem_reservedPaths.mpr (.inl rfl)) hstart hstate
      have happSegment : state.appSegment = ⟨appRouter, [] ++ wrapsOn [] parts.flatten⟩ :=
        hcomposed.app
      have hmcpSegment : state.mcpSegment = ⟨mcpRouter, hardeningLayers ax layers
          config.server.transport.streamableHttp.effectiveHardening ++
            wrapsOn [normalizeEndpointPath config.server.endpointPath] parts.flatten⟩ :=
        hcomposed.mcp
      rw [hcomposed.assemble_eq, RouterSegment.build, RouterSegment.build, applyLayers_eq,
        applyLayers_eq, happSegment, hmcpSegment] at hassembled
      obtain ⟨merged, hmerged, hnested⟩ := Option.bind_eq_some_iff.mp hassembled
      exact ⟨mcpRouter, appRouter, parts, merged, hmcp, happ, hparts, hmerged, hnested⟩

section Endpoint
variable (lib : HttpLibraries Alg Jwk Key W G) {ax : Axum Router (HttpService W G)}

theorem ServesAt.hardening (nesting : ax.Nesting) {router : Router} {places : List Place}
    {service : HttpService W G} (h : ServesAt ax router places service)
    (hardening : StreamableHttpHardeningConfig) :
    ServesAt ax (wrapAround (hardeningLayers ax lib.serverLayers hardening) router) places
      (lib.hardenedService hardening service) := by
  have hsanitized : ServesAt ax (wrapAround (if hardening.sanitizeSensitiveHeaders then
      [fun router => ax.layer router
          (lib.serverLayers.setSensitiveRequestHeaders SENSITIVE_REQUEST_HEADERS),
        fun router => ax.layer router
          (lib.serverLayers.setSensitiveResponseHeaders SENSITIVE_RESPONSE_HEADERS)]
      else []) router) places service := by
    split
    · exact (h.layer nesting _).layer nesting _
    · exact h
  unfold hardeningLayers HttpLibraries.hardenedService
  rw [wrapAround_append]
  split
  · exact hsanitized.layer nesting _
  · exact hsanitized

/-- Where no plugin puts a layer around the endpoint, its paths lead to the middleware alone. -/
theorem endpoint_guarded (documented : ax.Documented) {config : McpConfig} {authState : AuthState}
    {plugins : String → Option (HttpRouterPlugin Router)} {router : Router}
    (active : config.server.authActive = true)
    (unwrapped : ∀ pluginCfg ∈ config.plugins, ∀ part,
      Answered plugins (buildRuntimeContext config authState) pluginCfg part →
        wrapsOn [normalizeEndpointPath config.server.endpointPath] part = [])
    (built : buildStreamableHttpRouter ax lib.serverLayers config authState plugins =
      some (.ok router)) :
    ∃ guarded : HttpService W G,
      ∀ path ∈ Axum.servicePaths (normalizeEndpointPath config.server.endpointPath),
      ∀ service, (path, service) ∈ ax.routes router ↔ service = lib.hardenedService
        config.server.transport.streamableHttp.effectiveHardening
        (lib.authLayer authState guarded) := by
  obtain ⟨mcpRouter, appRouter, parts, merged, hmcp, _, hparts, hmerged, hnested⟩ :=
    buildStreamableHttpRouter_eq_ok lib.serverLayers built
  obtain ⟨guarded, hguarded⟩ := buildMcpRouter_servesAt documented.toNesting active hmcp
  have hnone : wrapsOn [normalizeEndpointPath config.server.endpointPath] parts.flatten = [] :=
    wrapsOn_flatten_eq_nil (fun pluginCfg hpluginCfg =>
      unwrapped pluginCfg (List.mem_of_mem_filter hpluginCfg)) hparts
  rw [hnone, List.append_nil] at hmerged
  have hserved := hguarded.hardening lib documented.toNesting
    config.server.transport.streamableHttp.effectiveHardening
  obtain ⟨added, hentries, hbefore, hafter⟩ := entries_assembled documented hmerged hnested
  rw [hserved.places_eq] at hbefore hafter
  refine ⟨guarded, fun path hpath service => ?_⟩
  have hplace : (⟨path, none⟩ : Place) ∈
      Axum.servicePlaces (normalizeEndpointPath config.server.endpointPath) :=
    List.mem_map_of_mem hpath
  rw [ax.mem_routes, hentries, hserved]
  constructor
  · rintro ⟨place, hentry, rfl⟩
    rcases List.mem_append.mp hentry with hentry | hadded
    · rcases List.mem_append.mp hentry with happ | hmcp
      · have hconflict := hbefore place (List.mem_map_of_mem happ) _ hplace
        exact (path_ne_of_nested documented hconflict (.inr rfl) rfl).elim
      · obtain ⟨_, _, heq⟩ := List.mem_map.mp hmcp
        exact (congrArg Prod.snd heq).symm
    · have hconflict := hafter _ (List.mem_append_right _ hplace) _ hadded
      exact (path_ne_of_nested documented hconflict (.inl rfl) rfl).elim
  · rintro rfl
    exact ⟨_, List.mem_append_left _ (List.mem_append_right _ (List.mem_map_of_mem hplace)), rfl⟩

end Endpoint

/-! ## What the middleware makes of a request -/

/-- A response of the status, with the challenge. A challenge that is no header is a panic. -/
def challengeResponse (status : ℕ) : Option String → Option Response
  | none => some ⟨status, [], []⟩
  | some header => (HeaderValue.fromStr header).map fun value =>
      ⟨status, [("www-authenticate", value)], []⟩

/-- The status of a refusal and its challenge. -/
def AuthState.refusedWith (state : AuthState) : AuthDecision → Option (ℕ × Option String)
  | .allow => none
  | .unauthorized scope => some (401, state.wwwAuthenticate scope false)
  | .forbidden scope => some (403, state.wwwAuthenticate scope true)

namespace HttpLibraries
variable (lib : HttpLibraries Alg Jwk Key W G)

/-- What is answered in place of the service behind the middleware. -/
def refusal (hardening : StreamableHttpHardeningConfig) (state : AuthState)
    (decision : AuthDecision) : Option Response :=
  let refused := (state.refusedWith decision).bind fun refused =>
    challengeResponse refused.1 refused.2
  if hardening.catchPanics then some (refused.getD lib.panicked) else refused

/-- The response is a 401 or 403 with the challenge. Where the challenge is no header value,
it is what is made of the panic. -/
def Refuses (hardening : StreamableHttpHardeningConfig) (state : AuthState)
    (decision : AuthDecision) (response : Option Response) : Prop :=
  ∃ status challenge, state.refusedWith decision = some (status, challenge) ∧
    (status = 401 ∨ status = 403) ∧
    ((∀ header ∈ challenge, HeaderValue.fromStr header = some header) → response =
      some ⟨status, challenge.toList.map fun header => ("www-authenticate", header), []⟩) ∧
    ((∃ header ∈ challenge, HeaderValue.fromStr header = none) → response =
      if hardening.catchPanics then some lib.panicked else none)

end HttpLibraries

/-- The request is refused with nothing looked up: it has no token, or not the only one. -/
def AuthState.unheard (state : AuthState) (request : HttpRequest) : Bool :=
  (extractBearerToken request.headers).isNone ||
    state.activation = .bearerOnly && !state.checkBearer request.headers

section Middleware
variable {lib : HttpLibraries Alg Jwk Key W G} {authState : AuthState} {request : HttpRequest}
  {s : InboundState W G} {inner : HttpService W G} {hardening : StreamableHttpHardeningConfig}

theorem refuse_cases {status : ℕ} {challenge : Option String} :
    (∃ value, refuse status challenge = .response status value ∧
      challengeResponse status challenge =
        some ⟨status, value.toList.map fun value => ("www-authenticate", value), []⟩) ∨
    refuse status challenge = .panicked ∧ challengeResponse status challenge = none := by
  cases challenge with
  | none => exact .inl ⟨none, rfl, rfl⟩
  | some header =>
    cases hvalue : HeaderValue.fromStr header with
    | none =>
      right
      simp [refuse, challengeResponse, hvalue]
    | some value =>
      left
      refine ⟨some value, ?_⟩
      simp [refuse, challengeResponse, hvalue]

/-- A refused request is answered by the middleware, whatever is behind it. -/
theorem hardenedService_refused
    (h : (authState.authorize lib.jwt lib.net request.headers s.world).1 ≠ .allow) :
    lib.hardenedService hardening (lib.authLayer authState inner) request s =
      (lib.refusal hardening authState
          (authState.authorize lib.jwt lib.net request.headers s.world).1,
        { s with world := (authState.authorize lib.jwt lib.net request.headers s.world).2.2 },
        []) := by
  have hlayer : lib.authLayer authState inner request s =
      (lib.refusal { hardening with catchPanics := false } authState
          (authState.authorize lib.jwt lib.net request.headers s.world).1,
        { s with world := (authState.authorize lib.jwt lib.net request.headers s.world).2.2 },
        []) := by
    unfold HttpLibraries.authLayer authMiddleware HttpLibraries.refusal
    rcases hauthorized : authState.authorize lib.jwt lib.net request.headers s.world with
      ⟨decision, consulted, world⟩
    cases decision with
    | allow => exact absurd (congrArg Prod.fst hauthorized) h
    | unauthorized scope =>
      rcases @refuse_cases 401 (authState.wwwAuthenticate scope false) with
        ⟨value, hrefuse, hresponse⟩ | ⟨hrefuse, hresponse⟩
      · simp [hrefuse, hresponse, AuthState.refusedWith]
      · simp [hrefuse, hresponse, AuthState.refusedWith]
    | forbidden scope =>
      rcases @refuse_cases 403 (authState.wwwAuthenticate scope true) with
        ⟨value, hrefuse, hresponse⟩ | ⟨hrefuse, hresponse⟩
      · simp [hrefuse, hresponse, AuthState.refusedWith]
      · simp [hrefuse, hresponse, AuthState.refusedWith]
  unfold HttpLibraries.hardenedService
  split
  · rename_i hcatch
    unfold HttpLibraries.catchPanicLayer
    rw [hlayer]
    simp [HttpLibraries.refusal, hcatch]
  · rename_i hcatch
    rw [hlayer]
    simp [HttpLibraries.refusal, hcatch]

theorem refusal_refuses {decision : AuthDecision} (h : decision ≠ .allow) :
    lib.Refuses hardening authState decision (lib.refusal hardening authState decision) := by
  have hrefused : ∃ status challenge, authState.refusedWith decision = some (status, challenge) ∧
      (status = 401 ∨ status = 403) := by
    cases decision with
    | allow => exact absurd rfl h
    | unauthorized scope => exact ⟨401, _, rfl, .inl rfl⟩
    | forbidden scope => exact ⟨403, _, rfl, .inr rfl⟩
  obtain ⟨status, challenge, hwith, hstatus⟩ := hrefused
  refine ⟨status, challenge, hwith, hstatus, fun hvalid => ?_, ?_⟩
  · have hresponse : challengeResponse status challenge = some
        ⟨status, challenge.toList.map fun header => ("www-authenticate", header), []⟩ := by
      cases challenge with
      | none => rfl
      | some header => simp [challengeResponse, hvalid header rfl]
    simp [HttpLibraries.refusal, hwith, hresponse]
  · rintro ⟨header, rfl, hinvalid⟩
    have hresponse : challengeResponse status (some header) = none := by
      simp [challengeResponse, hinvalid]
    simp [HttpLibraries.refusal, hwith, hresponse]

theorem checkBearer_none (h : extractBearerToken request.headers = none) :
    authState.checkBearer request.headers = false := by
  unfold AuthState.checkBearer
  rw [h]
  cases authState.bearerToken <;> rfl

/-- Nothing is asked of the network for an unheard request. -/
theorem authorize_unheard (active : authState.activation ≠ .none)
    (h : authState.unheard request = true) {w : W} :
    (authState.authorize lib.jwt lib.net request.headers w).1 ≠ .allow ∧
      (authState.authorize lib.jwt lib.net request.headers w).2.2 = w := by
  simp only [AuthState.unheard, Bool.or_eq_true, Option.isNone_iff_eq_none, Bool.and_eq_true,
    decide_eq_true_eq, Bool.not_eq_true'] at h
  have hbearer : authState.checkBearer request.headers = false :=
    h.elim checkBearer_none And.right
  unfold AuthState.authorize
  cases hactivation : authState.activation with
  | none => exact absurd hactivation active
  | bearerOnly => simp [hbearer]
  | oauthOnly =>
    have htoken := h.resolve_right fun hbearerOnly => by simp [hactivation] at hbearerOnly
    simp [AuthState.checkOauth, htoken, AuthState.defaultUnauthorized]
  | bearerAndOauth =>
    have htoken := h.resolve_right fun hbearerOnly => by simp [hactivation] at hbearerOnly
    simp [AuthState.checkOauth, htoken, AuthState.defaultUnauthorized, hbearer]

end Middleware

theorem activation_ne_none {config : McpConfig} {registry : Option (List (String × PluginType))}
    {authState : AuthState} (active : config.server.authActive = true)
    (authenticated : buildAuthStateWithPlugins config registry = .ok authState) :
    authState.activation ≠ .none := by
  have hstate : authState = buildAuthState config registry.isSome := by
    unfold buildAuthStateWithPlugins at authenticated
    split at authenticated
    · cases authenticated
    · split at authenticated
      · cases authenticated
      · exact (Except.ok.inj authenticated).symm
  have henabled : config.server.auth.any AuthConfig.isEnabled = true := by
    unfold ServerSection.authActive at active
    cases hauth : config.server.auth with
    | none => simp [hauth] at active
    | some auth =>
      simp only [hauth, Option.any_some, AuthConfig.isActive, Bool.and_eq_true] at active
      exact active.1
  rw [hstate]
  unfold buildAuthState
  simp only [henabled, Bool.not_true, Bool.false_eq_true, if_false]
  split
  · exact nofun
  · split
    · exact nofun
    · exact nofun

/-- Requests that are not authorized get a 401 or 403, or what is made of the panic of a
challenge that is no header value, and change nothing but what the authorization itself
looks up; and those that it looks nothing up for can be left out of any sequence of
requests. -/
theorem unauthorized_leave_no_trace {lib : HttpLibraries Alg Jwk Key W G}
    {ax : Axum Router (HttpService W G)} (documented : ax.Documented) {config : McpConfig}
    {registry : Option (List (String × PluginType))} {authState : AuthState}
    {plugins : String → Option (HttpRouterPlugin Router)} {router : Router}
    (active : config.server.authActive = true)
    (authenticated : buildAuthStateWithPlugins config registry = .ok authState)
    (unwrapped : ∀ pluginCfg ∈ config.plugins, ∀ part,
      Answered plugins (buildRuntimeContext config authState) pluginCfg part →
        wrapsOn [normalizeEndpointPath config.server.endpointPath] part = [])
    (built : buildStreamableHttpRouter ax lib.serverLayers config authState plugins =
      some (.ok router)) :
    ∃ served : HttpService W G,
      (∀ path ∈ Axum.servicePaths (normalizeEndpointPath config.server.endpointPath),
        ∀ service, (path, service) ∈ ax.routes router ↔ service = served) ∧
      ∀ requests s,
        (∀ trip ∈ roundTrips served requests s,
          let (decision, _, world) := authState.authorize lib.jwt lib.net
            trip.request.headers trip.before.world
          decision ≠ .allow →
            lib.Refuses config.server.transport.streamableHttp.effectiveHardening authState
              decision trip.response ∧
            trip.after = { trip.before with world }) ∧
        roundTrips served (requests.filter (!authState.unheard ·)) s =
          (roundTrips served requests s).filter (!authState.unheard ·.request) ∧
        stateAfter served (requests.filter (!authState.unheard ·)) s =
          stateAfter served requests s := by
  obtain ⟨guarded, hroutes⟩ := endpoint_guarded lib documented active unwrapped built
  have huntouched : ∀ request s, authState.unheard request = true →
      (lib.hardenedService config.server.transport.streamableHttp.effectiveHardening
        (lib.authLayer authState guarded) request s).2.1 = s := by
    intro request s hunheard
    obtain ⟨hrefused, hworld⟩ : _ ∧ (authState.authorize lib.jwt lib.net request.headers
        s.world).2.2 = s.world :=
      authorize_unheard (activation_ne_none active authenticated) hunheard
    rw [hardenedService_refused hrefused, hworld]
  refine ⟨_, hroutes, fun requests s => ⟨fun trip htrip hrefused => ?_,
    roundTrips_filter huntouched, stateAfter_filter huntouched⟩⟩
  obtain ⟨hresponse, hafter⟩ := of_mem_roundTrips htrip
  rw [hresponse, hafter, hardenedService_refused hrefused]
  exact ⟨refusal_refuses hrefused, rfl⟩

/-- A server that wants a token, and a request without one among others. -/
theorem unauthorized_leave_no_trace_sample : ∃ authState router,
    buildAuthStateWithPlugins protectedConfig none = .ok authState ∧
    buildStreamableHttpRouter (.table _) sampleLibraries.serverLayers protectedConfig authState
      (fun _ => none) = some (.ok router) ∧
    ∃ served : HttpService Unit ℕ, ("/mcp", served) ∈ (Axum.table _).routes router ∧
      ∀ requests s, stateAfter served (requests.filter (!authState.unheard ·)) s =
        stateAfter served requests s := by
  refine ⟨_, _, rfl, rfl, ?_⟩
  obtain ⟨served, hroutes, hall⟩ := @unauthorized_leave_no_trace _ _ _ _ _ _ sampleLibraries _
    Axum.table_documented protectedConfig none _ (fun _ => none) _ rfl rfl nofun rfl
  exact ⟨served, (hroutes "/mcp" (by decide) served).mpr rfl, fun requests s =>
    (hall requests s).2.2⟩

end RustMcpCore
