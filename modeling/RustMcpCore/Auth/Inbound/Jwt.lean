import RustMcpCore.Auth.Inbound.Authorization

/-! # What a JWKS provider accepts

Acceptance is spelled out once, as the conjunction of all its checks. Leaving out
one check is a change of the token library, which is how the conditions below say
that some other check refuses the token.
-/
namespace RustMcpCore
open Library
variable {Alg Jwk Key W : Type} (lib : JwtLibrary Alg Jwk Key) (net : Network W Jwk)

theorem decisionFromValidation_allow {state : AuthState} {outcome : ValidationOutcome}
    {provider : AuthProvider} :
    state.decisionFromValidation outcome provider = .allow ↔ outcome = .valid := by
  cases outcome <;> simp [AuthState.decisionFromValidation]

def Accepts (state : AuthState) (provider : AuthProvider) (token : String) (w : W) : Prop :=
  (state.jwksDecision lib net provider (tokenProfile lib token) w).1 = some .allow

variable {lib net} {state : AuthState} {provider : AuthProvider} {token : String} {w : W}

theorem validateJwt_valid : (validateJwt lib net token provider w).1 = .valid ↔
    ∃ jwks w' header key claims, net.jwks provider w = (some jwks, w') ∧
      signingKey lib jwks token = some (header, key) ∧
      lib.decode token key
        (jwtValidation lib provider.config (provider.issuer net w').1 header) = some claims ∧
      checkClaims provider.config claims = .valid := by
  unfold validateJwt
  rcases hj : net.jwks provider w with ⟨_ | jwks, w'⟩
  · simp
  · rcases hk : signingKey lib jwks token with _ | ⟨header, key⟩
    · simp [hk]
    · rcases hd : lib.decode token key
        (jwtValidation lib provider.config (provider.issuer net w').1 header) with _ | claims
      · simp [hk, hd]
      · simp [hk, hd]

/-- The token passes every check of the provider, when the library decodes it by
an adjusted validation. -/
def PassesWith (lib : JwtLibrary Alg Jwk Key) (net : Network W Jwk) (provider : AuthProvider)
    (token : String) (w : W) (adjust : Header Alg → Validation Alg → Validation Alg) : Prop :=
  ∃ iss jwks w' header key claims, (tokenProfile lib token).isJwt = true ∧
    (tokenProfile lib token).tokenIss = some iss ∧ (provider.issuer net w).1 = some iss ∧
    net.jwks provider (provider.issuer net w).2 = (some jwks, w') ∧
    signingKey lib jwks token = some (header, key) ∧
    lib.decode token key
      (adjust header (jwtValidation lib provider.config (provider.issuer net w').1 header)) =
        some claims ∧
    checkClaims provider.config claims = .valid

theorem accepts_iff : Accepts lib net state provider token w ↔
    PassesWith lib net provider token w fun _ v => v := by
  unfold Accepts AuthState.jwksDecision PassesWith
  have htoken : (tokenProfile lib token).token = token := rfl
  cases (tokenProfile lib token).isJwt with
  | false => simp
  | true =>
    cases (tokenProfile lib token).tokenIss with
    | none => simp
    | some iss =>
      by_cases hi : (provider.issuer net w).1 = some iss
      · simp [hi, htoken, decisionFromValidation_allow, validateJwt_valid]
      · simp [hi]

theorem signingKey_header {jwks : JwkSet Jwk} {header : Header Alg} {key : Key}
    (h : signingKey lib jwks token = some (header, key)) :
    lib.decodeHeader token = some header := by
  obtain ⟨header', hh, hk⟩ := Option.bind_eq_some_iff.mp h
  obtain ⟨key', _, heq⟩ := Option.map_eq_some_iff.mp hk
  cases heq
  exact hh

variable {adjust other : Header Alg → Validation Alg → Validation Alg}

theorem PassesWith.decoded (h : PassesWith lib net provider token w adjust) :
    ∃ header key issuer claims, lib.decodeHeader token = some header ∧
      lib.decode token key (adjust header (jwtValidation lib provider.config issuer header)) =
        some claims := by
  obtain ⟨iss, jwks, w', header, key, claims, _, _, _, _, hk, hd, _⟩ := h
  exact ⟨header, key, _, claims, signingKey_header hk, hd⟩

theorem PassesWith.mono (h : PassesWith lib net provider token w adjust)
    (hdecode : ∀ key issuer header claims,
      lib.decode token key (adjust header (jwtValidation lib provider.config issuer header)) =
          some claims →
        lib.decode token key (other header (jwtValidation lib provider.config issuer header)) =
          some claims) :
    PassesWith lib net provider token w other := by
  obtain ⟨iss, jwks, w', header, key, claims, hjwt, hiss, hissuer, hj, hk, hd, hc⟩ := h
  exact ⟨iss, jwks, w', header, key, claims, hjwt, hiss, hissuer, hj, hk,
    hdecode key _ header claims hd, hc⟩

/-! ## The audience -/

/-- The token passes every check but the one on its audience. -/
def PassesButAudience (lib : JwtLibrary Alg Jwk Key) (net : Network W Jwk)
    (provider : AuthProvider) (token : String) (w : W) : Prop :=
  PassesWith lib net provider token w fun _ v => { v with validateAud := false }

/-- If the token is accepted, its `aud` names a configured audience. -/
def AudienceConfined (lib : JwtLibrary Alg Jwk Key) (net : Network W Jwk) (state : AuthState)
    (provider : AuthProvider) (token : String) (w : W) : Prop :=
  Accepts lib net state provider token w → ∃ claims value, decodeJwtClaims lib token = some claims ∧
    claims.get "aud" = some value ∧ ∃ audience ∈ provider.config.audiences, audience ∈ value.names

/-- Accepted tokens carry one of the configured audiences exactly when the token has
an `aud` claim that the crate can read or that names one of them all the same, or some
check other than the audience refuses it. -/
theorem audienceConfined_iff (hlib : lib.Documented) {config : AuthJwksProviderConfig}
    (hconfig : provider.config = .jwks config) (haud : config.audiences ≠ []) :
    AudienceConfined lib net state provider token w ↔
      (∀ claims, decodeJwtClaims lib token = some claims → ∃ value,
        claims.get "aud" = some value ∧
          (value.asTexts.isSome = true ∨
            ∃ audience ∈ config.audiences, audience ∈ value.names)) ∨
        ¬ PassesButAudience lib net provider token w := by
  have hnames : provider.config.audiences = config.audiences := by rw [hconfig]; rfl
  have hset : ∀ issuer header, (jwtValidation lib provider.config issuer header).aud =
      some config.audiences := by
    intro issuer header
    simp [jwtValidation, hconfig, AuthProviderConfig.audiences, haud]
  constructor
  · intro hconf
    by_contra hcond
    simp only [not_or, not_forall, not_not] at hcond
    obtain ⟨⟨claims, hclaims, hmissing⟩, hother⟩ := hcond
    have hunread : (claims.get "aud").bind Value.asTexts = none := by
      rw [Option.bind_eq_none_iff]
      intro value hvalue
      exact Option.not_isSome_iff_eq_none.mp fun hread => hmissing ⟨value, hvalue, .inl hread⟩
    have hacc : Accepts lib net state provider token w := by
      refine accepts_iff.mpr (PassesWith.mono hother ?_)
      intro key issuer header claims' hd
      have hclaims' := hlib.decode_claims _ _ _ _ hd
      rw [hclaims] at hclaims'
      cases hclaims'
      refine (hlib.decode_aud _ _ _ _ rfl).mpr ⟨hd, ?_⟩
      rw [hset, audAccepted, sharesElement, hunread]
    obtain ⟨claims', value, hclaims', hvalue, hnamed⟩ := hconf hacc
    rw [hclaims] at hclaims'
    cases hclaims'
    rw [hnames] at hnamed
    exact hmissing ⟨value, hvalue, .inr hnamed⟩
  · intro hcond hacc
    have hpass := accepts_iff.mp hacc
    have hother : PassesButAudience lib net provider token w :=
      hpass.mono fun key issuer header claims hd => ((hlib.decode_aud _ _ _ _ rfl).mp hd).1
    obtain ⟨header, key, issuer, claims, _, hd⟩ := hpass.decoded
    have hclaims := hlib.decode_claims _ _ _ _ hd
    have haccepted := ((hlib.decode_aud _ _ _ _ rfl).mp hd).2
    have hpresent := hcond.resolve_right (not_not_intro hother)
    obtain ⟨value, hvalue, hread | hnamed⟩ := hpresent claims hclaims
    · obtain ⟨texts, htexts⟩ := Option.isSome_iff_exists.mp hread
      rw [hset, hvalue, audAccepted, sharesElement, Option.bind_some, htexts] at haccepted
      obtain ⟨audience, hmem, hin⟩ := List.any_eq_true.mp haccepted
      rw [← Value.names_of_asTexts htexts] at hmem
      refine ⟨claims, value, hclaims, hvalue, audience, ?_, hmem⟩
      rw [hnames]
      exact List.contains_iff_mem.mp hin
    · rw [← hnames] at hnamed
      exact ⟨claims, value, hclaims, hvalue, hnamed⟩

/-! ## The algorithm -/

/-- The token passes every check when its own algorithm is allowed, as it is by an
empty list. -/
def PassesButAlgorithm (lib : JwtLibrary Alg Jwk Key) (net : Network W Jwk)
    (provider : AuthProvider) (token : String) (w : W) : Prop :=
  PassesWith lib net provider token w fun header v => { v with algorithms := [header.alg] }

/-- If the token is accepted, the list names the algorithm of its header. -/
def AlgorithmListed (lib : JwtLibrary Alg Jwk Key) (net : Network W Jwk) (state : AuthState)
    (provider : AuthProvider) (token : String) (w : W) : Prop :=
  Accepts lib net state provider token w → ∃ header, lib.decodeHeader token = some header ∧
    lib.algName header.alg ∈ provider.config.algorithms

theorem jwtValidation_algorithms {config : AuthProviderConfig} {issuer : Option String}
    {header : Header Alg} : (jwtValidation lib config issuer header).algorithms =
      if (parseAlgorithms lib config).isEmpty then [header.alg] else parseAlgorithms lib config := by
  unfold jwtValidation
  split <;> rfl

/-- A list without a known name does not restrict anything. -/
theorem jwtValidation_unlisted {config : AuthProviderConfig} {issuer : Option String}
    {header : Header Alg} (h : ∀ name ∈ config.algorithms, lib.parseAlgorithm name = none) :
    { jwtValidation lib config issuer header with algorithms := [header.alg] } =
      jwtValidation lib config issuer header := by
  have hempty : parseAlgorithms lib config = [] := by
    unfold parseAlgorithms
    split
    · rfl
    · exact List.filterMap_eq_nil_iff.mpr h
  have halg : (jwtValidation lib config issuer header).algorithms = [header.alg] := by
    rw [jwtValidation_algorithms, hempty]
    rfl
  rw [← halg]

/-- Accepted tokens use a listed algorithm exactly when the list names at least
one known algorithm, or some check other than the algorithm refuses the token. -/
theorem algorithmListed_iff (hlib : lib.NamesAlgorithms) {config : AuthJwksProviderConfig}
    (hconfig : provider.config = .jwks config) (hne : config.algorithms ≠ []) :
    AlgorithmListed lib net state provider token w ↔
      (∃ name ∈ config.algorithms, (lib.parseAlgorithm name).isSome = true) ∨
        ¬ PassesButAlgorithm lib net provider token w := by
  have hlist : provider.config.algorithms = config.algorithms := by rw [hconfig]; rfl
  have hparse : parseAlgorithms lib provider.config =
      config.algorithms.filterMap lib.parseAlgorithm := by
    simp [parseAlgorithms, hlist, hne]
  by_cases hknown : ∃ name ∈ config.algorithms, (lib.parseAlgorithm name).isSome = true
  · refine ⟨fun _ => .inl hknown, fun _ hacc => ?_⟩
    obtain ⟨name, hname, hsome⟩ := hknown
    obtain ⟨header, key, issuer, claims, hheader, hd⟩ := (accepts_iff.mp hacc).decoded
    refine ⟨header, hheader, ?_⟩
    have hmem := hlib.decode_alg _ _ _ _ _ hd hheader
    have hparsed : parseAlgorithms lib provider.config ≠ [] := by
      obtain ⟨alg, halg⟩ := Option.isSome_iff_exists.mp hsome
      rw [hparse]
      exact List.ne_nil_of_mem (List.mem_filterMap.mpr ⟨name, hname, halg⟩)
    simp only [jwtValidation_algorithms, List.isEmpty_iff, if_neg hparsed] at hmem
    rw [hparse] at hmem
    obtain ⟨name', hname', halg⟩ := List.mem_filterMap.mp hmem
    rw [hlist, (hlib.parse_iff name' header.alg).mp halg]
    exact hname'
  · have hnone : ∀ name ∈ provider.config.algorithms, lib.parseAlgorithm name = none := by
      intro name hname
      rw [hlist] at hname
      by_contra hsome
      exact hknown ⟨name, hname, Option.isSome_iff_ne_none.mpr hsome⟩
    have hsame : Accepts lib net state provider token w ↔
        PassesButAlgorithm lib net provider token w := by
      rw [accepts_iff]
      constructor
      · refine fun h => h.mono fun key issuer header claims hd => ?_
        rw [jwtValidation_unlisted hnone]
        exact hd
      · refine fun h => PassesWith.mono h fun key issuer header claims hd => ?_
        rw [jwtValidation_unlisted hnone] at hd
        exact hd
    constructor
    · intro hconf
      refine .inr fun hother => ?_
      obtain ⟨header, _, hmem⟩ := hconf (hsame.mpr hother)
      have hparsed := (hlib.parse_iff _ header.alg).mpr rfl
      rw [hnone _ hmem] at hparsed
      cases hparsed
    · intro hcond hacc
      exact absurd (hsame.mp hacc) (hcond.resolve_left hknown)

/-! ## One signed token -/

/-- A library with one key and two algorithms, in a world with one signed token
that has not expired: `header.payload.signature`, by HS256. -/
def signedToken (payload : Value) : JwtLibrary Bool Unit Unit where
  algName alg := if alg then "RS256" else "HS256"
  parseAlgorithm name :=
    if name = "RS256" then some true else if name = "HS256" then some false else none
  keyId _ := none
  decodeHeader token := if token = "header.payload.signature" then some ⟨false, none⟩ else none
  fromJwk _ := some ()
  decode token _ v :=
    if token = "header.payload.signature" && v.algorithms.contains false &&
        issAccepted (payload.get "iss") v.iss &&
        (!v.validateAud || audAccepted (payload.get "aud") v.aud) then some payload
    else none
  decodeSegment segment := if segment = "payload" then some payload else none

theorem signedToken_decode {payload claims : Value} {token : String} {key : Unit}
    {v : Validation Bool} : (signedToken payload).decode token key v = some claims ↔
      claims = payload ∧ token = "header.payload.signature" ∧ false ∈ v.algorithms ∧
        issAccepted (payload.get "iss") v.iss = true ∧
        (v.validateAud = true → audAccepted (payload.get "aud") v.aud = true) := by
  simp only [signedToken, Option.ite_none_right_eq_some, Bool.and_eq_true, decide_eq_true_eq,
    Bool.or_eq_true, Bool.not_eq_true', List.contains_iff_mem, Option.some.injEq]
  cases v.validateAud <;> simp only [and_assoc, eq_comm] <;> tauto

theorem signedToken_namesAlgorithms (payload : Value) : (signedToken payload).NamesAlgorithms where
  parse_iff name alg := by
    cases alg <;> simp only [signedToken] <;> split <;> (try split) <;> simp_all [eq_comm]
  decode_alg token key v claims header h hh := by
    obtain ⟨_, rfl, hmem, _⟩ := signedToken_decode.mp h
    cases hh
    exact hmem

theorem signedToken_documented (payload : Value) : (signedToken payload).Documented where
  decode_claims token key v claims h := by
    obtain ⟨rfl, rfl, _⟩ := signedToken_decode.mp h
    rfl
  decode_aud token key v claims hv := by
    rw [signedToken_decode, signedToken_decode]
    constructor
    · rintro ⟨rfl, ht, ha, hi, haud⟩
      exact ⟨⟨rfl, ht, ha, hi, nofun⟩, haud hv⟩
    · rintro ⟨⟨rfl, ht, ha, hi, _⟩, haud⟩
      exact ⟨rfl, ht, ha, hi, fun _ => haud⟩
  decode_iss token key v claims := by
    rw [signedToken_decode, signedToken_decode]
    constructor
    · rintro ⟨rfl, ht, ha, hi, haud⟩
      exact ⟨⟨rfl, ht, ha, rfl, haud⟩, hi⟩
    · rintro ⟨⟨rfl, ht, ha, _, haud⟩, hi⟩
      exact ⟨rfl, ht, ha, hi, haud⟩

/-- One key is published, and introspection answers with the given claims. -/
def honestNetwork (payload : Value) : Network Unit Unit where
  discovery _ w := (none, w)
  jwks _ w := (some [()], w)
  introspect _ w := (some payload, w)
  getPlugin _ w := (false, w)
  validate _ _ w := (.abstain, w)

def jwksProvider (audiences algorithms : List String) : AuthJwksProviderConfig where
  name := "idp"
  issuer := some "https://idp"
  discoveryUrl := none
  jwksUrl := none
  audiences := audiences
  requiredScopes := []
  requiredClaims := ∅
  algorithms := algorithms
  clockSkewSec := none

def oauthState (provider : AuthProviderConfig) : AuthState where
  activation := .oauthOnly
  endpointPath := "/mcp"
  bearerToken := none
  resource := some "http://127.0.0.1:3000/mcp"
  resourceMetadataUrl := none
  providers := [⟨provider, none, none⟩]
  plugins := true
  authPluginConfigs := ∅
  scopeChallengesEnabled := true
  outboundTimeoutMs := none
  outboundMaxResponseBytes := none

theorem audienceConfined_named :
    AudienceConfined (signedToken (.object [("iss", .string "https://idp"), ("aud", .string "mcp")]))
      (honestNetwork .null) (oauthState (.jwks (jwksProvider ["mcp"] [])))
      ⟨.jwks (jwksProvider ["mcp"] []), none, none⟩ "header.payload.signature" () := by
  refine (audienceConfined_iff (signedToken_documented _) rfl (by decide)).mpr (.inl ?_)
  intro claims hclaims
  cases hclaims
  exact ⟨.string "mcp", rfl, .inl rfl⟩

/-- A token without `aud` is accepted by a provider with an audience. -/
theorem audience_missing_accepted :
    ¬ AudienceConfined (signedToken (.object [("iss", .string "https://idp")]))
      (honestNetwork .null) (oauthState (.jwks (jwksProvider ["mcp"] [])))
      ⟨.jwks (jwksProvider ["mcp"] []), none, none⟩ "header.payload.signature" () := by
  intro h
  obtain ⟨claims, value, hclaims, hvalue, _⟩ := h rfl
  cases hclaims
  cases hvalue

theorem algorithmListed_named :
    AlgorithmListed (signedToken (.object [("iss", .string "https://idp")]))
      (honestNetwork .null) (oauthState (.jwks (jwksProvider [] ["bad", "HS256"])))
      ⟨.jwks (jwksProvider [] ["bad", "HS256"]), none, none⟩ "header.payload.signature" () :=
  (algorithmListed_iff (signedToken_namesAlgorithms _) rfl (by decide)).mpr
    (.inl ⟨"HS256", by simp [jwksProvider], by decide⟩)

/-- A misspelt list lets every algorithm pass. -/
theorem algorithm_misspelt_accepted :
    ¬ AlgorithmListed (signedToken (.object [("iss", .string "https://idp")]))
      (honestNetwork .null) (oauthState (.jwks (jwksProvider [] ["RS-256"])))
      ⟨.jwks (jwksProvider [] ["RS-256"]), none, none⟩ "header.payload.signature" () := by
  intro h
  obtain ⟨header, hheader, hmem⟩ := h rfl
  cases hheader
  revert hmem
  decide

end RustMcpCore
