import Mathlib.Data.List.Dedup
import Mathlib.Data.List.Sort
import Mathlib.Data.String.Basic
import RustMcpCore.Config.Upstream
import RustMcpCore.Errors

/-! # Resolved settings of an OAuth 2 upstream -/
namespace RustMcpCore.Outbound
open Library

def DEFAULT_REFRESH_SKEW_SEC : UInt64 := 60
def DEFAULT_RETRY_ON_401_ONCE : Bool := true

/-- A sorted set, as `BTreeSet` iterates over it. -/
def normalizeScopes (scopes : List String) : List String :=
  (((scopes.map Text.trim).filter fun scope => !scope.isEmpty).dedup).insertionSort (· ≤ ·)

def normalizedTokenParamsMap (auth : UpstreamOauth2AuthConfig) : HashMap String String :=
  match auth.audience with
  | none => auth.extraTokenParams
  | some audience =>
    match auth.extraTokenParams.lookup "audience" with
    | none => auth.extraTokenParams.insert "audience" audience
    | some _ => auth.extraTokenParams

/-- The entries in the order of their keys, as `BTreeMap` iterates over them. -/
def normalizeExtraParams (auth : UpstreamOauth2AuthConfig) : List (String × String) :=
  ((normalizedTokenParamsMap auth).entries.map fun entry => (entry.1, entry.2)).insertionSort
    fun p q => p.1 ≤ q.1

structure OutboundOauth2CacheKey where
  upstreamName : String
  grant : UpstreamOauth2GrantType
  scopes : List String
  audience : Option String
  resource : Option String
  extraTokenParams : List (String × String)
  deriving DecidableEq

def OutboundOauth2CacheKey.fromAuth (upstreamName : String) (auth : UpstreamOauth2AuthConfig) :
    OutboundOauth2CacheKey :=
  let extraTokenParams := normalizeExtraParams auth
  { upstreamName
    grant := auth.grant
    scopes := normalizeScopes auth.scopes
    audience := auth.audience
    resource := (extraTokenParams.find? fun param => param.1 = "resource").map Prod.snd
    extraTokenParams }

structure OutboundOauth2RefreshPolicy where
  skewSec : UInt64
  retryOn401Once : Bool

def OutboundOauth2RefreshPolicy.fromAuth (auth : UpstreamOauth2AuthConfig) :
    OutboundOauth2RefreshPolicy where
  skewSec := (auth.refresh.bind (·.skewSec)).getD DEFAULT_REFRESH_SKEW_SEC
  retryOn401Once := (auth.refresh.bind (·.retryOn401Once)).getD DEFAULT_RETRY_ON_401_ONCE

structure OutboundOauth2MtlsResolvedConfig where
  caCert : Option String
  clientCert : String
  clientKey : String

structure OutboundOauth2ResolvedConfig where
  cacheKey : OutboundOauth2CacheKey
  grant : UpstreamOauth2GrantType
  tokenUrl : String
  clientId : String
  clientSecret : String
  authMethod : UpstreamOauth2ClientAuthMethod
  scopes : List String
  extraTokenParams : HashMap String String
  bootstrapRefreshToken : Option String
  mtls : Option OutboundOauth2MtlsResolvedConfig
  refreshPolicy : OutboundOauth2RefreshPolicy

/-- A secret of the upstream, whose error names it by its place in the settings. -/
def resolveField (surroundings : Surroundings) (field : String) (config : SecretValueConfig) :
    Except McpError String :=
  (config.resolveSecret surroundings).mapError fun error =>
    McpError.invalidRequest s!"failed to resolve oauth2 {field}: {error}" none

def resolveMtls (surroundings : Surroundings) (mtls : UpstreamOauth2MtlsConfig) :
    Except McpError OutboundOauth2MtlsResolvedConfig := do
  let caCert ← mtls.caCert.mapM (resolveField surroundings "mTLS ca_cert")
  let clientCert ← resolveField surroundings "mTLS client_cert" mtls.clientCert
  let clientKey ← resolveField surroundings "mTLS client_key" mtls.clientKey
  return { caCert, clientCert, clientKey }

def OutboundOauth2ResolvedConfig.fromAuth (surroundings : Surroundings) (upstreamName : String)
    (auth : UpstreamOauth2AuthConfig) : Except McpError OutboundOauth2ResolvedConfig := do
  let clientSecret ← resolveField surroundings "client_secret" auth.clientSecret
  let bootstrapRefreshToken ← auth.refreshToken.mapM (resolveField surroundings "refresh_token")
  if auth.grant = .refreshToken ∧ bootstrapRefreshToken.isNone then
    throw (McpError.invalidRequest "oauth2 refresh_token grant requires refresh_token" none)
  let mtls ← auth.mtls.mapM (resolveMtls surroundings)
  return {
    cacheKey := .fromAuth upstreamName auth
    grant := auth.grant
    tokenUrl := auth.tokenUrl
    clientId := auth.clientId
    clientSecret
    authMethod := auth.authMethod.getD .basic
    scopes := normalizeScopes auth.scopes
    extraTokenParams := normalizedTokenParamsMap auth
    bootstrapRefreshToken
    mtls
    refreshPolicy := .fromAuth auth }

/-- Settings that resolve have a cache key for their grant, and the refresh grant has
a token to start from. -/
theorem OutboundOauth2ResolvedConfig.fromAuth_grant {surroundings : Surroundings}
    {upstreamName : String} {auth : UpstreamOauth2AuthConfig}
    {resolved : OutboundOauth2ResolvedConfig}
    (h : fromAuth surroundings upstreamName auth = .ok resolved) :
    resolved.cacheKey.grant = resolved.grant ∧
      (resolved.grant = .refreshToken → resolved.bootstrapRefreshToken.isSome = true) := by
  unfold fromAuth at h
  obtain ⟨clientSecret, _, h⟩ := bind_eq_ok h
  obtain ⟨bootstrap, _, h⟩ := bind_eq_ok h
  split at h
  · cases h
  · rename_i hgrant
    obtain ⟨mtls, _, h⟩ := bind_eq_ok h
    cases h
    refine ⟨rfl, fun hrefresh => ?_⟩
    cases bootstrap with
    | none => exact absurd ⟨hrefresh, rfl⟩ hgrant
    | some => rfl

theorem OutboundOauth2ResolvedConfig.fromAuth_cacheKey {surroundings : Surroundings}
    {upstreamName : String} {auth : UpstreamOauth2AuthConfig}
    {resolved : OutboundOauth2ResolvedConfig}
    (h : fromAuth surroundings upstreamName auth = .ok resolved) :
    resolved.cacheKey = .fromAuth upstreamName auth := by
  unfold fromAuth at h
  obtain ⟨clientSecret, _, h⟩ := bind_eq_ok h
  obtain ⟨bootstrap, _, h⟩ := bind_eq_ok h
  split at h
  · cases h
  · obtain ⟨mtls, _, h⟩ := bind_eq_ok h
    cases h
    rfl

/-! ## Which settings share a key -/

/-- Lists without duplicates are sorted into one list exactly if they have the same members. -/
theorem insertionSort_eq_iff {A : Type} {r : A → A → Prop} [DecidableRel r] [Std.Total r] [IsTrans A r]
    {given given' : List A} (hgiven : given.Nodup) (hgiven' : given'.Nodup)
    (hanti : ∀ a ∈ given, ∀ b ∈ given, r a b → r b a → a = b) :
    given.insertionSort r = given'.insertionSort r ↔ ∀ a, a ∈ given ↔ a ∈ given' := by
  constructor
  · intro heq a
    rw [← (List.perm_insertionSort r given).mem_iff, heq, (List.perm_insertionSort r given').mem_iff]
  · intro hmem
    have hperm : given.Perm given' := (List.perm_ext_iff_of_nodup hgiven hgiven').mpr hmem
    have hsorted := (List.perm_insertionSort r given).trans
      (hperm.trans (List.perm_insertionSort r given').symm)
    refine hsorted.eq_of_pairwise (fun a b ha hb => ?_) (List.pairwise_insertionSort r given)
      (List.pairwise_insertionSort r given')
    refine hanti a ((List.perm_insertionSort r given).mem_iff.mp ha) b ?_
    exact (hmem b).mpr ((List.perm_insertionSort r given').mem_iff.mp hb)

/-- The scopes that are asked for, as a set. -/
def Requests (auth : UpstreamOauth2AuthConfig) (scope : String) : Prop :=
  scope ∈ auth.scopes.map Text.trim ∧ scope.isEmpty = false

theorem normalizeScopes_eq_iff {auth auth' : UpstreamOauth2AuthConfig} :
    normalizeScopes auth.scopes = normalizeScopes auth'.scopes ↔
      ∀ scope, Requests auth scope ↔ Requests auth' scope := by
  have hmem : ∀ (scopes : List String) scope,
      scope ∈ ((scopes.map Text.trim).filter fun scope => !scope.isEmpty).dedup ↔
        scope ∈ scopes.map Text.trim ∧ scope.isEmpty = false := by
    intro scopes scope
    rw [List.mem_dedup, List.mem_filter, Bool.not_eq_true']
  unfold normalizeScopes
  rw [insertionSort_eq_iff (List.nodup_dedup _) (List.nodup_dedup _)
    fun _ _ _ _ hle hge => le_antisymm hle hge]
  simp only [hmem]
  rfl

theorem mem_pairs {params : HashMap String String} {param : String × String} :
    (param ∈ params.entries.map fun entry => (entry.1, entry.2)) ↔
      params.lookup param.1 = some param.2 := by
  rw [HashMap.lookup_eq_some_iff, List.mem_map]
  constructor
  · rintro ⟨entry, hentry, rfl⟩
    exact hentry
  · exact fun hentry => ⟨_, hentry, rfl⟩

theorem nodup_pairs (params : HashMap String String) :
    (params.entries.map fun entry => (entry.1, entry.2)).Nodup := by
  refine List.Nodup.of_map Prod.fst ?_
  rw [List.map_map]
  exact params.nodupKeys

theorem normalizeExtraParams_eq_iff {auth auth' : UpstreamOauth2AuthConfig} :
    normalizeExtraParams auth = normalizeExtraParams auth' ↔ ∀ name,
      (normalizedTokenParamsMap auth).lookup name = (normalizedTokenParamsMap auth').lookup name := by
  have htotal : Std.Total fun p q : String × String => p.1 ≤ q.1 := ⟨fun p q => le_total p.1 q.1⟩
  have htrans : IsTrans (String × String) fun p q => p.1 ≤ q.1 := ⟨fun _ _ _ => le_trans⟩
  unfold normalizeExtraParams
  rw [insertionSort_eq_iff (nodup_pairs _) (nodup_pairs _)]
  · simp only [mem_pairs, Prod.forall]
    constructor
    · exact fun h name => Option.ext fun value => h name value
    · exact fun h name value => by rw [h name]
  · intro p hp q hq hle hge
    have hname : p.1 = q.1 := le_antisymm hle hge
    rw [mem_pairs] at hp hq
    rw [← hname, hp] at hq
    exact Prod.ext hname (Option.some.inj hq)

/-- Two upstreams' settings that say the same of everything that a token is issued for. -/
structure SameTarget (upstreamName : String) (auth : UpstreamOauth2AuthConfig)
    (upstreamName' : String) (auth' : UpstreamOauth2AuthConfig) : Prop where
  upstream : upstreamName = upstreamName'
  grant : auth.grant = auth'.grant
  scopes : ∀ scope, Requests auth scope ↔ Requests auth' scope
  audience : auth.audience = auth'.audience
  params : ∀ name,
    (normalizedTokenParamsMap auth).lookup name = (normalizedTokenParamsMap auth').lookup name

theorem OutboundOauth2CacheKey.fromAuth_eq_iff {upstreamName upstreamName' : String}
    {auth auth' : UpstreamOauth2AuthConfig} :
    fromAuth upstreamName auth = fromAuth upstreamName' auth' ↔
      SameTarget upstreamName auth upstreamName' auth' := by
  constructor
  · intro heq
    obtain ⟨hupstream, hgrant, hscopes, haudience, -, hparams⟩ :=
      OutboundOauth2CacheKey.mk.inj heq
    exact ⟨hupstream, hgrant, normalizeScopes_eq_iff.mp hscopes, haudience,
      normalizeExtraParams_eq_iff.mp hparams⟩
  · rintro ⟨rfl, hgrant, hscopes, haudience, hparams⟩
    unfold fromAuth
    rw [hgrant, haudience, normalizeScopes_eq_iff.mpr hscopes, normalizeExtraParams_eq_iff.mpr hparams]

end RustMcpCore.Outbound
