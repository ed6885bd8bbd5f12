import RustMcpCore.Http.Unauthorized
import RustMcpCore.Maps

/-! # The metadata of the resource

A client that is refused is told where the metadata of the resource are. They are served to
anyone, and they name the issuers whose tokens are accepted.
-/
namespace RustMcpCore
open Library

variable {Alg Jwk Key W G Router : Type}

/-! ## The document -/

section Document
variable (net : Network W Jwk)

/-- The issuers of the providers that have one. -/
def collectIssuers : List AuthProvider → W → List String × W
  | [], w => ([], w)
  | provider :: providers, w =>
    let (issuer, w) := provider.issuer net w
    let (issuers, w) := collectIssuers providers w
    (issuer.toList ++ issuers, w)

def resourceMetadata (resource : String) (issuers : List String) (documentUrl : Option String) :
    Map :=
  let payload := Map.insert [] "resource" (.string resource)
  let payload := if issuers.isEmpty then payload
    else payload.insert "authorization_servers" (.array (issuers.map .string))
  match documentUrl with
  | none => payload
  | some documentUrl =>
    payload.insert "oauth_client_metadata_document_url" (.string documentUrl)

/-- A response of `axum::Json`. -/
def Response.json (body : List UInt8) : Response :=
  ⟨200, [("content-type", "application/json")], body⟩

/-- `toVec` is `serde_json::to_vec`. -/
def AuthState.oauthResourceMetadata (state : AuthState) (toVec : Value → List UInt8)
    (documentUrl : Option String) (w : W) : Response × W :=
  match state.resource with
  | none => (⟨501, [], []⟩, w)
  | some resource =>
    let (issuers, w) := collectIssuers net state.providers w
    (.json (toVec (.object (resourceMetadata resource issuers documentUrl))), w)

end Document

/-- `axum::routing::get`. -/
def getRoute (handler : W → Response × W) : HttpService W G := fun request s =>
  if request.method = "GET" then
    let (response, world) := handler s.world
    (some response, { s with world }, [])
  else if request.method = "HEAD" then
    let (response, world) := handler s.world
    (some { response with body := [] }, { s with world }, [])
  else (some ⟨405, [("allow", "GET,HEAD")], []⟩, s, [])

def HttpLibraries.metadataService (lib : HttpLibraries Alg Jwk Key W G)
    (toVec : Value → List UInt8) (config : McpConfig) (state : AuthState) : HttpService W G :=
  getRoute (state.oauthResourceMetadata lib.net toVec
    (config.server.auth.bind AuthConfig.oauthClientMetadataDocumentUrl))

/-- The layers with the document behind the metadata routes. -/
def HttpLibraries.metadataLayers (lib : HttpLibraries Alg Jwk Key W G)
    (toVec : Value → List UInt8) (config : McpConfig) : ServerLayers (HttpService W G) :=
  { lib.serverLayers with oauthResourceMetadata := lib.metadataService toVec config }

/-! ## The routes -/

section Routes
variable {Service : Type} {ax : Axum Router Service} (layers : ServerLayers Service)
  (documented : ax.Documented) {router : Router} {path : String} {service : Service}

/-- The service for `GET` at the path. -/
def Axum.Gets (ax : Axum Router Service) (router : Router) (path : String) (service : Service) :
    Prop :=
  ∃ place, (place, service) ∈ ax.entries router ∧ place.path = path ∧ place.takes "GET" = true

/-- The paths of the metadata. -/
def metadataPaths (state : AuthState) : List String :=
  OAUTH_METADATA_PATH :: if oauthResourceMetadataEndpointPath state.endpointPath ≠
    OAUTH_METADATA_PATH then [oauthResourceMetadataEndpointPath state.endpointPath] else []

theorem mem_metadataPaths (state : AuthState) :
    oauthResourceMetadataEndpointPath state.endpointPath ∈ metadataPaths state := by
  unfold metadataPaths
  split
  · exact List.mem_cons_of_mem _ List.mem_cons_self
  · rename_i hsame
    rw [not_ne_iff.mp hsame]
    exact List.mem_cons_self

include documented

/-- Beside a route for `GET` no other one stands at its path. -/
theorem not_takes_of_getPlace {place : Place}
    (h : ax.conflicts (Axum.getPlace place.path) place = false) : place.takes "GET" = false := by
  have hjoins := documented.joins_of_free h rfl
  simp only [Place.joins, Axum.getPlace, Bool.and_eq_true, Methods.disjoint] at hjoins
  unfold Place.takes
  cases hmethods : place.methods with
  | none => simp [hmethods] at hjoins
  | some methods => simpa [hmethods] using hjoins.2

theorem oauthRouter_servesAt {state : AuthState} (h : oauthRouter ax layers state = some router) :
    ServesAt ax router ((metadataPaths state).map Axum.getPlace)
      (layers.oauthResourceMetadata state) := by
  unfold oauthRouter at h
  obtain ⟨first, hfirst, hsecond⟩ := Option.bind_eq_some_iff.mp h
  have hentries := ((documented.route_eq _ _ _).2 first hfirst).1
  rw [documented.entries_new, List.nil_append] at hentries
  unfold ServesAt metadataPaths
  split
  · rename_i hother
    rw [if_pos hother] at hsecond
    rw [((documented.route_eq _ _ _).2 router hsecond).1, hentries]
    rfl
  · rename_i hsame
    rw [if_neg hsame] at hsecond
    cases hsecond
    exact hentries

theorem initialAppRouter_servesAt {state : AuthState} (henabled : state.oauthEnabled = true)
    (h : initialAppRouter ax layers state = some router) :
    ServesAt ax router ((metadataPaths state).map Axum.getPlace)
      (layers.oauthResourceMetadata state) := by
  unfold initialAppRouter at h
  rw [if_pos henabled] at h
  obtain ⟨metadata, hmetadata, hmerged⟩ := Option.bind_eq_some_iff.mp h
  have hentries := ((documented.merge_eq _ _).2 router hmerged).1
  rw [documented.entries_new, List.nil_append] at hentries
  unfold ServesAt
  rw [hentries]
  exact oauthRouter_servesAt layers documented hmetadata

/-- Where no plugin puts a layer around everything, the metadata routes lead to the document
alone. -/
theorem metadata_served {config : McpConfig} {authState : AuthState}
    {plugins : String → Option (HttpRouterPlugin Router)} (henabled : authState.oauthEnabled = true)
    (unwrapped : ∀ pluginCfg ∈ config.plugins, ∀ part,
      Answered plugins (buildRuntimeContext config authState) pluginCfg part →
        wrapsOn [] part = [])
    (built : buildStreamableHttpRouter ax layers config authState plugins = some (.ok router))
    (hpath : path ∈ metadataPaths authState) :
    ax.Gets router path service ↔ service = layers.oauthResourceMetadata authState := by
  obtain ⟨mcpRouter, appRouter, parts, merged, _, happ, hparts, hmerged, hnested⟩ :=
    buildStreamableHttpRouter_eq_ok layers built
  have hnone : wrapsOn [] parts.flatten = [] :=
    wrapsOn_flatten_eq_nil (fun pluginCfg hpluginCfg =>
      unwrapped pluginCfg (List.mem_of_mem_filter hpluginCfg)) hparts
  rw [hnone] at hmerged
  have hserved : ServesAt ax appRouter _ _ :=
    initialAppRouter_servesAt layers documented henabled happ
  obtain ⟨added, hentries, hbefore, hafter⟩ := entries_assembled documented hmerged hnested
  have hplace : Axum.getPlace path ∈ ax.places (wrapAround [] appRouter) := by
    change _ ∈ ax.places appRouter
    rw [hserved.places_eq]
    exact List.mem_map_of_mem hpath
  unfold Axum.Gets
  rw [hentries]
  constructor
  · rintro ⟨place, hentry, rfl, htakes⟩
    have hnot : ax.conflicts (Axum.getPlace place.path) place ≠ false := by
      intro hconflict
      rw [not_takes_of_getPlace documented hconflict] at htakes
      cases htakes
    rcases List.mem_append.mp hentry with hentry | hadded
    · rcases List.mem_append.mp hentry with happ | hmcp
      · change _ ∈ ax.entries appRouter at happ
        rw [hserved] at happ
        obtain ⟨_, _, heq⟩ := List.mem_map.mp happ
        exact (congrArg Prod.snd heq).symm
      · exact absurd (hbefore _ hplace place (List.mem_map_of_mem hmcp)) hnot
    · exact absurd (hafter _ (List.mem_append_left _ hplace) _ hadded) hnot
  · rintro rfl
    refine ⟨Axum.getPlace path, List.mem_append_left _ (List.mem_append_left _ ?_), rfl, rfl⟩
    change _ ∈ ax.entries appRouter
    rw [hserved]
    exact List.mem_map_of_mem (List.mem_map_of_mem hpath)

end Routes

/-! ## What the document says -/

section Document
variable {net : Network W Jwk} {issuerOf : AuthProvider → Option String}

theorem collectIssuers_eq {providers : List AuthProvider}
    (known : ∀ provider ∈ providers, ∀ w, (provider.issuer net w).1 = issuerOf provider) (w : W) :
    (collectIssuers net providers w).1 = providers.filterMap issuerOf := by
  induction providers generalizing w with
  | nil => rfl
  | cons provider providers ih =>
    have hrest := ih (fun other hother => known other (List.mem_cons_of_mem _ hother))
      (provider.issuer net w).2
    change (provider.issuer net w).1.toList ++
      (collectIssuers net providers (provider.issuer net w).2).1 = _
    rw [known provider List.mem_cons_self, hrest, List.filterMap_cons]
    cases issuerOf provider with
    | none => rfl
    | some issuer => rfl

/-- The document lists the issuer. -/
def Lists (payload : Map) (issuer : String) : Prop :=
  ∃ servers, payload.lookup "authorization_servers" = some (.array servers) ∧
    Value.string issuer ∈ servers

theorem resourceMetadata_resource (resource : String) (issuers : List String)
    (documentUrl : Option String) :
    (resourceMetadata resource issuers documentUrl).lookup "resource" =
      some (.string resource) := by
  unfold resourceMetadata
  cases documentUrl with
  | none =>
    dsimp only
    split
    · rfl
    · rw [Map.lookup_insert, if_neg (by decide), Map.lookup_insert, if_pos rfl]
  | some url =>
    dsimp only
    rw [Map.lookup_insert, if_neg (by decide)]
    split
    · rfl
    · rw [Map.lookup_insert, if_neg (by decide), Map.lookup_insert, if_pos rfl]

theorem resourceMetadata_servers (resource : String) (issuers : List String)
    (documentUrl : Option String) :
    (resourceMetadata resource issuers documentUrl).lookup "authorization_servers" =
      if issuers.isEmpty then none else some (.array (issuers.map .string)) := by
  have hbase : ∀ payload : Map, payload.lookup "authorization_servers" = none →
      (if issuers.isEmpty then payload
        else payload.insert "authorization_servers" (.array (issuers.map .string))).lookup
          "authorization_servers" =
        if issuers.isEmpty then none else some (.array (issuers.map .string)) := by
    intro payload hnone
    split
    · exact hnone
    · rw [Map.lookup_insert, if_pos rfl]
  unfold resourceMetadata
  cases documentUrl with
  | none => exact hbase _ rfl
  | some url =>
    dsimp only
    rw [Map.lookup_insert, if_neg (by decide)]
    exact hbase _ rfl

theorem lists_resourceMetadata {resource issuer : String} {issuers : List String}
    {documentUrl : Option String} :
    Lists (resourceMetadata resource issuers documentUrl) issuer ↔ issuer ∈ issuers := by
  unfold Lists
  rw [resourceMetadata_servers]
  cases issuers with
  | nil => simp
  | cons first rest => simp

end Document

/-! ## Whose tokens are accepted -/

section Accepted
variable {lib : JwtLibrary Alg Jwk Key} {net : Network W Jwk} {state : AuthState}
  {provider : AuthProvider} {token : String} {headers : HeaderMap} {w : W}

/-- Providers of keys and of introspection look at the issuer before they look at the token. -/
theorem issuer_of_allowed (hcapable : provider.config.oauthCapable = true) {iss : String}
    (hissuer : (tokenProfile lib token).tokenIss = some iss)
    (hallow : (state.evaluateProvider lib net (tokenProfile lib token) headers provider w).1 =
      some .allow) : (provider.issuer net w).1 = some iss := by
  have hjwt : (tokenProfile lib token).isJwt = true := by
    by_contra hopaque
    have hclaims : (tokenProfile lib token).claims = none := if_neg hopaque
    have hnone : (tokenProfile lib token).tokenIss = none := by
      change ((tokenProfile lib token).claims.bind _).bind _ = none
      rw [hclaims]
      rfl
    rw [hnone] at hissuer
    cases hissuer
  unfold AuthState.evaluateProvider at hallow
  cases hconfig : provider.config with
  | bearer | plugin =>
    rw [hconfig] at hcapable
    cases hcapable
  | jwks =>
    rw [hconfig] at hallow
    obtain ⟨iss', _, _, _, _, _, _, hiss', hown, _⟩ := accepts_iff.mp hallow
    rw [hown, ← hiss', hissuer]
  | introspection =>
    rw [hconfig] at hallow
    by_contra hother
    have happlies : (AuthState.introspectionApplies net provider (tokenProfile lib token) w).1 = false := by
      unfold AuthState.introspectionApplies
      rw [hjwt, hissuer]
      exact decide_eq_false hother
    simp only [AuthState.introspectionDecision] at hallow
    split at hallow
    · cases hallow
    · rename_i happlied
      rw [happlied] at happlies
      cases happlies

theorem checkOauth_allowed (htoken : extractBearerToken headers = some token)
    (hallow : (state.checkOauth lib net headers w).1 = .allow) :
    ∃ before last w', (state.checkOauth lib net headers w).2.1 = before ++ [last] ∧
      last ∈ state.providers ∧
      (state.evaluateProvider lib net (tokenProfile lib token) headers last w').1 =
        some .allow := by
  unfold AuthState.checkOauth at hallow ⊢
  rw [htoken] at hallow ⊢
  change ((scan _ state.providers w).1).getD _ = _ at hallow
  cases hscan : (scan (state.evaluateProvider lib net (tokenProfile lib token) headers)
      state.providers w).1 with
  | none =>
    rw [hscan] at hallow
    cases hallow
  | some decision =>
    rw [hscan] at hallow
    cases hallow
    exact scan_last hscan

theorem not_capable_of_bearer (h : provider ∈ state.bearerProvider) :
    provider.config.oauthCapable = false := by
  have hfound := List.find?_some (Option.mem_toList.mp h)
  cases hconfig : provider.config with
  | bearer | plugin => rfl
  | jwks | introspection =>
    rw [hconfig] at hfound
    cases hfound

/-- What the provider that was consulted last has decided, unless it is there for the bearer
token. -/
theorem allowed_by_last {consulted : List AuthProvider} {after : W}
    (hallow : state.authorize lib net headers w = (.allow, consulted ++ [provider], after))
    (hcapable : provider.config.oauthCapable = true)
    (htoken : extractBearerToken headers = some token) :
    provider ∈ state.providers ∧ ∃ w',
      (state.evaluateProvider lib net (tokenProfile lib token) headers provider w').1 =
        some .allow := by
  have hlast : provider ∈ consulted ++ [provider] :=
    List.mem_append_right _ List.mem_cons_self
  have hbearer : consulted ++ [provider] ≠ state.bearerProvider := by
    intro heq
    rw [heq] at hlast
    rw [not_capable_of_bearer hlast] at hcapable
    cases hcapable
  unfold AuthState.authorize at hallow
  split at hallow
  · exact absurd (congrArg (·.2.1) hallow) (by simp)
  · split at hallow
    · exact absurd (congrArg (·.2.1) hallow).symm hbearer
    · cases hallow
  · obtain ⟨before, last, w', hasked, hmem, heval⟩ :=
      checkOauth_allowed htoken (congrArg Prod.fst hallow)
    have hsame := hasked.symm.trans (congrArg (·.2.1) hallow)
    obtain ⟨_, heq⟩ := List.append_inj' hsame rfl
    cases heq
    exact ⟨hmem, w', heval⟩
  · split at hallow
    · exact absurd (congrArg (·.2.1) hallow).symm hbearer
    · obtain ⟨before, last, w', hasked, hmem, heval⟩ :=
        checkOauth_allowed htoken (congrArg Prod.fst hallow)
      have hsame : state.bearerProvider ++ (state.checkOauth lib net headers w).2.1 =
          consulted ++ [provider] := congrArg (·.2.1) hallow
      rw [hasked, ← List.append_assoc] at hsame
      obtain ⟨_, heq⟩ := List.append_inj' hsame rfl
      cases heq
      exact ⟨hmem, w', heval⟩

end Accepted

/-! ## From the challenge to the document -/

theorem buildAuthState_of_ok {config : McpConfig} {registry : Option (List (String × PluginType))}
    {authState : AuthState} (h : buildAuthStateWithPlugins config registry = .ok authState) :
    authState = buildAuthState config registry.isSome := by
  unfold buildAuthStateWithPlugins at h
  split at h
  · cases h
  · split at h
    · cases h
    · exact (Except.ok.inj h).symm

/-- The place that a challenge names. -/
theorem resourceMetadataUrl_of_announced {state : AuthState} {decision : AuthDecision}
    {url : String} (h : ("resource_metadata", url) ∈ state.announced decision) :
    state.oauthEnabled = true ∧ state.resourceMetadataUrl = some url := by
  have hparams : ∀ scope insufficientScope,
      ("resource_metadata", url) ∈ state.challengeParams scope insufficientScope →
        state.resourceMetadataUrl = some url := by
    intro scope insufficientScope hmem
    rcases List.mem_append.mp hmem with hmem | hmem
    · exfalso
      rcases List.mem_append.mp hmem with hmem | hmem
      · split at hmem
        · have hname : "resource_metadata" = "error" :=
            congrArg Prod.fst (List.mem_singleton.mp hmem)
          exact absurd hname (by decide)
        · cases hmem
      · split at hmem
        · obtain ⟨_, _, heq⟩ := List.mem_map.mp hmem
          have hname : "scope" = "resource_metadata" := congrArg Prod.fst heq
          exact absurd hname (by decide)
        · cases hmem
    · obtain ⟨_, hown, heq⟩ := List.mem_map.mp hmem
      cases heq
      exact Option.mem_toList.mp hown
  unfold AuthState.announced at h
  split at h
  · cases h
  · rename_i henabled
    refine ⟨by simpa using henabled, ?_⟩
    cases decision with
    | allow => cases h
    | unauthorized scope => exact hparams _ _ h
    | forbidden scope => exact hparams _ _ h

/-- Where clients find the server. -/
def publicBase (config : McpConfig) (oauth : AuthOauthConfig) : String :=
  oauth.publicUrl.getD s!"http://{config.server.host}:{config.server.port.toNat}"

theorem oauth_of_metadataUrl {config : McpConfig} {plugins : Bool} {url : String}
    (h : (buildAuthState config plugins).resourceMetadataUrl = some url) :
    ∃ oauth, config.server.auth.bind (·.oauth) = some oauth ∧
      url = publicBase config oauth ++
        oauthResourceMetadataEndpointPath (buildAuthState config plugins).endpointPath ∧
      (buildAuthState config plugins).resource = some oauth.resource := by
  have hresource : (buildAuthState config plugins).resource =
      (config.server.auth.bind (·.oauth)).map (·.resource) := rfl
  have hurl : (buildAuthState config plugins).resourceMetadataUrl =
      (config.server.auth.bind (·.oauth)).map fun _ =>
        ((config.server.auth.bind (·.oauth)).bind (·.publicUrl)).getD
            s!"http://{config.server.host}:{config.server.port.toNat}" ++
          oauthResourceMetadataEndpointPath (buildAuthState config plugins).endpointPath := rfl
  rw [hurl] at h
  rw [hresource]
  cases hoauth : config.server.auth.bind (·.oauth) with
  | none =>
    rw [hoauth] at h
    cases h
  | some oauth =>
    rw [hoauth] at h
    exact ⟨oauth, rfl, (Option.some.inj h).symm, rfl⟩

/-- Every challenge leads to a path at which anyone gets the document; it names the resource, and
it lists an issuer exactly if a provider has it. A token that a provider of keys or of
introspection accepts is of a listed issuer. -/
theorem challenge_leads_to_issuers {lib : HttpLibraries Alg Jwk Key W G}
    {ax : Axum Router (HttpService W G)} (documented : ax.Documented) {config : McpConfig}
    {registry : Option (List (String × PluginType))} {authState : AuthState}
    {plugins : String → Option (HttpRouterPlugin Router)} {router : Router}
    {toVec : Value → List UInt8} {issuerOf : AuthProvider → Option String}
    (authenticated : buildAuthStateWithPlugins config registry = .ok authState)
    (unwrapped : ∀ pluginCfg ∈ config.plugins, ∀ part,
      Answered plugins (buildRuntimeContext config authState) pluginCfg part →
        wrapsOn [] part = [])
    (built : buildStreamableHttpRouter ax (lib.metadataLayers toVec config) config authState
      plugins = some (.ok router))
    (known : ∀ provider ∈ authState.providers, ∀ w,
      (provider.issuer lib.net w).1 = issuerOf provider)
    {decision : AuthDecision} {url : String}
    (announced : ("resource_metadata", url) ∈ authState.announced decision) :
    ∃ oauth path service payload,
      config.server.auth.bind (·.oauth) = some oauth ∧ url = publicBase config oauth ++ path ∧
      (∀ other, ax.Gets router path other ↔ other = service) ∧
      (∀ request s, request.method = "GET" → ∃ world,
        service request s = (some (.json (toVec (.object payload))), { s with world }, [])) ∧
      payload.lookup "resource" = some (.string oauth.resource) ∧
      (∀ issuer, Lists payload issuer ↔
        ∃ provider ∈ authState.providers, issuerOf provider = some issuer) ∧
      ∀ headers token w consulted provider after issuer,
        extractBearerToken headers = some token →
        authState.authorize lib.jwt lib.net headers w =
          (.allow, consulted ++ [provider], after) →
        provider.config.oauthCapable = true →
        (tokenProfile lib.jwt token).tokenIss = some issuer → Lists payload issuer := by
  obtain ⟨henabled, hurl⟩ := resourceMetadataUrl_of_announced announced
  obtain ⟨oauth, hoauth, hpath, hresource⟩ :=
    oauth_of_metadataUrl (buildAuthState_of_ok authenticated ▸ hurl)
  rw [← buildAuthState_of_ok authenticated] at hpath hresource
  have hlists : ∀ issuer, Lists (resourceMetadata oauth.resource
      (authState.providers.filterMap issuerOf)
      (config.server.auth.bind AuthConfig.oauthClientMetadataDocumentUrl)) issuer ↔
        ∃ provider ∈ authState.providers, issuerOf provider = some issuer := fun issuer =>
    lists_resourceMetadata.trans List.mem_filterMap
  refine ⟨oauth, _, lib.metadataService toVec config authState, _, hoauth, hpath,
    fun other => metadata_served _ documented henabled unwrapped built
      (mem_metadataPaths authState), ?_, resourceMetadata_resource _ _ _, hlists, ?_⟩
  · intro request s hget
    refine ⟨(collectIssuers lib.net authState.providers s.world).2, ?_⟩
    unfold HttpLibraries.metadataService getRoute
    simp only [if_pos hget, AuthState.oauthResourceMetadata, hresource]
    rw [← collectIssuers_eq known s.world]
  · intro headers token w consulted provider after issuer htoken hallow hcapable hissuer
    obtain ⟨hprovider, w', hown⟩ := allowed_by_last hallow hcapable htoken
    refine (hlists issuer).mpr ⟨provider, hprovider, ?_⟩
    rw [← known provider hprovider w']
    exact issuer_of_allowed hcapable hissuer hown

/-- A server with one provider. -/
def singleIssuer : McpConfig := .withProviders [.jwks (jwksProvider [] [])]

/-- What `serde_json::to_vec` makes of its document. -/
def singleIssuerBytes : List UInt8 :=
  ("\x7b\"authorization_servers\":[\"https://idp\"]," ++
    "\"resource\":\"http://127.0.0.1:3000/mcp\"\x7d").toUTF8.toList

theorem challenge_leads_to_issuers_sample : ∃ authState router path service payload,
    buildAuthStateWithPlugins singleIssuer none = .ok authState ∧
    buildStreamableHttpRouter (.table _)
      (sampleLibraries.metadataLayers (fun _ => singleIssuerBytes) singleIssuer) singleIssuer
        authState (fun _ => none) = some (.ok router) ∧
    ("resource_metadata", "http://127.0.0.1:3000" ++ path) ∈
      authState.announced (.unauthorized none) ∧
    (Axum.table _).Gets router path service ∧ Lists payload "https://idp" ∧
    ∀ request s, request.method = "GET" → ∃ world,
      service request s = (some (.json singleIssuerBytes), { s with world }, []) := by
  obtain ⟨oauth, path, service, payload, hoauth, hurl, hroutes, hget, _, hlists, _⟩ :=
    @challenge_leads_to_issuers _ _ _ _ _ _ sampleLibraries _ Axum.table_documented
      singleIssuer none _ (fun _ => none) _ (fun _ => singleIssuerBytes)
      (fun provider => provider.config.issuer) rfl (fun _ h => by cases h) rfl
      (by
        intro provider hprovider _
        obtain rfl := List.mem_singleton.mp hprovider
        rfl)
      (.unauthorized none) _ List.mem_cons_self
  cases hoauth
  refine ⟨_, _, path, service, payload, rfl, rfl, ?_, (hroutes service).mpr rfl,
    (hlists "https://idp").mpr ⟨_, List.mem_cons_self, rfl⟩, hget⟩
  exact hurl ▸ List.mem_cons_self

end RustMcpCore
