import RustMcpCore.Auth.Inbound.Jwt
import RustMcpCore.Auth.Inbound.Factory
import RustMcpCore.Library.Challenge

/-! # The challenge of a refused request

A refusal announces its error, the scopes that were asked for and where the metadata
of the resource is. The texts come from the configuration as they are.
-/
namespace RustMcpCore
open Library

/-- `HeaderValue::from_str`: only control characters are refused, and a tab is none. -/
def HeaderValue.fromStr (header : String) : Option String :=
  if header.toList.all Challenge.isHeaderChar then some header else none

namespace AuthState
variable (state : AuthState)

def oauthEnabled : Bool :=
  match state.activation with
  | .oauthOnly | .bearerAndOauth => true
  | .none | .bearerOnly => false

def wwwAuthenticate (scope : Option String) (insufficientScope : Bool) : Option String :=
  if !state.oauthEnabled then none
  else
    let parts :=
      (if insufficientScope then ["error=\"insufficient_scope\""] else []) ++
      (if state.scopeChallengesEnabled then
        scope.toList.map fun scope => "scope=\"" ++ scope ++ "\"" else []) ++
      state.resourceMetadataUrl.toList.map fun resourceMetadata =>
        "resource_metadata=\"" ++ resourceMetadata ++ "\""
    if parts.isEmpty then some "Bearer" else some ("Bearer " ++ ", ".intercalate parts)

end AuthState

/-- What the middleware does with a request. -/
inductive AuthOutcome
  | next
  | response (status : ℕ) (wwwAuthenticate : Option String)
  | panicked
  deriving DecidableEq

/-- A response of the status, with the challenge if there is one. -/
def refuse (status : ℕ) (challenge : Option String) : AuthOutcome :=
  match challenge with
  | none => .response status none
  | some header =>
    match HeaderValue.fromStr header with
    | some value => .response status (some value)
    | none => .panicked

variable {Alg Jwk Key W : Type} (lib : JwtLibrary Alg Jwk Key) (net : Network W Jwk)

def authMiddleware (state : AuthState) (headers : HeaderMap) (w : W) : AuthOutcome × W :=
  match state.authorize lib net headers w with
  | (.allow, _, w) => (.next, w)
  | (.unauthorized scope, _, w) => (refuse 401 (state.wwwAuthenticate scope false), w)
  | (.forbidden scope, _, w) => (refuse 403 (state.wwwAuthenticate scope true), w)

/-! ## What the challenge is to say -/

namespace AuthState
variable (state : AuthState)

/-- The parameters that `www_authenticate` is given. -/
def challengeParams (scope : Option String) (insufficientScope : Bool) :
    List (String × String) :=
  (if insufficientScope then [("error", "insufficient_scope")] else []) ++
  (if state.scopeChallengesEnabled then scope.toList.map fun scope => ("scope", scope) else []) ++
  state.resourceMetadataUrl.toList.map fun resourceMetadata =>
    ("resource_metadata", resourceMetadata)

/-- The parameters of the challenge that goes with a decision. -/
def announced (decision : AuthDecision) : List (String × String) :=
  if !state.oauthEnabled then []
  else
    match decision with
    | .allow => []
    | .unauthorized scope => state.challengeParams scope false
    | .forbidden scope => state.challengeParams scope true

/-- The middleware does not panic, and a challenge reads back as the parameters. -/
def WellFormed (outcome : AuthOutcome) (params : List (String × String)) : Prop :=
  outcome ≠ .panicked ∧ ∀ status header, outcome = .response status (some header) →
    Challenge.parse header = some ("Bearer", params)

end AuthState

section Challenge
variable {state : AuthState} {scope : Option String} {insufficientScope : Bool}

theorem challengeParams_token {param : String × String}
    (h : param ∈ state.challengeParams scope insufficientScope) :
    Challenge.Token param.1.toList := by
  have herror : Challenge.Token "error".toList := by decide
  have hscope : Challenge.Token "scope".toList := by decide
  have hmetadata : Challenge.Token "resource_metadata".toList := by decide
  simp only [AuthState.challengeParams, List.mem_append, List.mem_map] at h
  rcases h with (h | h) | ⟨_, _, rfl⟩
  · split at h
    · rw [List.mem_singleton.mp h]
      exact herror
    · cases h
  · split at h
    · obtain ⟨_, _, rfl⟩ := List.mem_map.mp h
      exact hscope
    · cases h
  · exact hmetadata

theorem wwwAuthenticate_eq (h : state.oauthEnabled = true) :
    state.wwwAuthenticate scope insufficientScope =
      if state.challengeParams scope insufficientScope = [] then some "Bearer"
      else some ("Bearer" ++ " " ++ ", ".intercalate
        ((state.challengeParams scope insufficientScope).map fun param =>
          Challenge.quote param.1 param.2)) := by
  have hparts : (state.challengeParams scope insufficientScope).map
      (fun param => Challenge.quote param.1 param.2) =
      (if insufficientScope then ["error=\"insufficient_scope\""] else []) ++
      (if state.scopeChallengesEnabled then
        scope.toList.map fun scope => "scope=\"" ++ scope ++ "\"" else []) ++
      state.resourceMetadataUrl.toList.map fun resourceMetadata =>
        "resource_metadata=\"" ++ resourceMetadata ++ "\"" := by
    cases insufficientScope <;> cases hc : state.scopeChallengesEnabled <;>
      simp [AuthState.challengeParams, Challenge.quote, Function.comp_def, hc]
  unfold AuthState.wwwAuthenticate
  rw [h, ← hparts]
  simp only [Bool.not_true, Bool.false_eq_true, if_false, List.isEmpty_iff, List.map_eq_nil_iff]
  rfl

theorem refuse_some {status : ℕ} {header : String}
    (h : header.toList.all Challenge.isHeaderChar = true) :
    refuse status (some header) = .response status (some header) := by
  simp only [refuse, HeaderValue.fromStr, h, if_true]

theorem refuse_panicked {status : ℕ} {header : String}
    (h : ¬ header.toList.all Challenge.isHeaderChar = true) :
    refuse status (some header) = .panicked := by
  simp only [refuse, HeaderValue.fromStr, h, if_false, Bool.false_eq_true]

theorem wellFormed_response {status : ℕ} {header : String} {params : List (String × String)} :
    AuthState.WellFormed (.response status (some header)) params ↔
      Challenge.parse header = some ("Bearer", params) := by
  constructor
  · rintro ⟨_, h⟩
    exact h status header rfl
  · intro h
    refine ⟨nofun, ?_⟩
    rintro _ _ ⟨⟩
    exact h

/-- A refusal is well formed if and only if in each value of its challenge every
character stands for itself. -/
theorem refuse_wellFormed (h : state.oauthEnabled = true) (status : ℕ) :
    AuthState.WellFormed (refuse status (state.wwwAuthenticate scope insufficientScope))
        (state.challengeParams scope insufficientScope) ↔
      ∀ param ∈ state.challengeParams scope insufficientScope,
        Challenge.Plain param.2.toList := by
  have hbearer : Challenge.Token "Bearer".toList := by decide
  have htoken := fun param => @challengeParams_token state scope insufficientScope param
  rw [wwwAuthenticate_eq h]
  split
  · rename_i hempty
    rw [hempty, refuse_some (by decide), wellFormed_response]
    exact iff_of_true (by decide) nofun
  · rename_i hne
    by_cases hheader : ("Bearer" ++ " " ++ ", ".intercalate
        ((state.challengeParams scope insufficientScope).map fun param =>
          Challenge.quote param.1 param.2)).toList.all Challenge.isHeaderChar = true
    · rw [refuse_some hheader, wellFormed_response]
      exact Challenge.parse_quoted hbearer htoken hne
    · rw [refuse_panicked hheader]
      refine iff_of_false (fun hwell => hwell.1 rfl) fun hplain => hheader ?_
      exact Challenge.isHeaderChar_challenge hbearer htoken hplain

/-- Without OAuth a refusal has no challenge. -/
theorem refuse_unchallenged (h : state.oauthEnabled = false) (status : ℕ)
    (params : List (String × String)) :
    AuthState.WellFormed (refuse status (state.wwwAuthenticate scope insufficientScope)) params := by
  have hnone : state.wwwAuthenticate scope insufficientScope = none := by
    unfold AuthState.wwwAuthenticate
    rw [h]
    rfl
  rw [hnone]
  exact ⟨nofun, nofun⟩

end Challenge

section Middleware
variable {lib net} {state : AuthState} {headers : HeaderMap} {w : W}

/-- For every state and every request: the middleware does not panic and its challenge
reads back as what it was given, if and only if every character of every value stands
for itself between quotes. -/
theorem authMiddleware_wellFormed :
    AuthState.WellFormed (authMiddleware lib net state headers w).1
        (state.announced (state.authorize lib net headers w).1) ↔
      ∀ param ∈ state.announced (state.authorize lib net headers w).1,
        Challenge.Plain param.2.toList := by
  unfold authMiddleware
  rcases state.authorize lib net headers w with ⟨decision, _, w'⟩
  cases hoauth : state.oauthEnabled with
  | false =>
    have hnothing : state.announced decision = [] := by
      unfold AuthState.announced
      rw [hoauth]
      rfl
    rw [hnothing]
    cases decision with
    | allow => exact iff_of_true ⟨nofun, nofun⟩ nofun
    | unauthorized scope => exact iff_of_true (refuse_unchallenged hoauth 401 []) nofun
    | forbidden scope => exact iff_of_true (refuse_unchallenged hoauth 403 []) nofun
  | true =>
    unfold AuthState.announced
    rw [hoauth]
    cases decision with
    | allow => exact iff_of_true ⟨nofun, nofun⟩ nofun
    | unauthorized scope => exact refuse_wellFormed hoauth 401
    | forbidden scope => exact refuse_wellFormed hoauth 403

/-! ## Where the scopes come from -/

def AuthDecision.scope : AuthDecision → Option String
  | .allow => none
  | .unauthorized scope | .forbidden scope => scope

/-- The scopes of a decision, if any, are the required ones of a provider. -/
def Scoped (providers : List AuthProvider) (decision : AuthDecision) : Prop :=
  ∀ scope ∈ decision.scope, ∃ provider ∈ providers,
    scope = " ".intercalate provider.config.requiredScopes

theorem scopeChallenge_mem {scopes : List String} {scope : String}
    (h : scope ∈ state.scopeChallenge scopes) : scope = " ".intercalate scopes := by
  unfold AuthState.scopeChallenge at h
  split at h
  · exact (Option.mem_some_iff.mp h).symm
  · cases h

theorem defaultUnauthorized_scoped : Scoped state.providers state.defaultUnauthorized := by
  intro scope hscope
  obtain ⟨provider, hfind, hchallenge⟩ := Option.bind_eq_some_iff.mp hscope
  exact ⟨provider, List.mem_of_find?_eq_some hfind, scopeChallenge_mem hchallenge⟩

theorem checkClaims_scopes {config : AuthProviderConfig} {claims : Value} {scopes : List String}
    (h : checkClaims config claims = .insufficientScope scopes) : scopes = config.requiredScopes := by
  unfold checkClaims at h
  split at h
  · cases h
  · split at h
    · cases h
      rfl
    · cases h

theorem validateJwt_scopes {token : String} {provider : AuthProvider} {scopes : List String}
    (h : (validateJwt lib net token provider w).1 = .insufficientScope scopes) :
    scopes = provider.config.requiredScopes := by
  unfold validateJwt at h
  split at h
  · cases h
  · split at h
    · cases h
    · simp only at h
      split at h
      · cases h
      · exact checkClaims_scopes h

theorem validateOpaque_scopes {token : String} {provider : AuthProvider} {scopes : List String}
    (h : (validateOpaque net state token provider w).1 = .insufficientScope scopes) :
    scopes = provider.config.requiredScopes := by
  unfold validateOpaque at h
  split at h
  · cases h
  · split at h
    · cases h
    · split at h
      · cases h
      · simp only at h
        split at h
        · cases h
        · split at h
          · cases h
          · exact checkClaims_scopes h

theorem decisionFromValidation_scoped {outcome : ValidationOutcome} {provider : AuthProvider}
    (houtcome : ∀ scopes, outcome = .insufficientScope scopes →
      scopes = provider.config.requiredScopes) :
    Scoped [provider] (state.decisionFromValidation outcome provider) := by
  intro scope hscope
  refine ⟨provider, List.mem_singleton_self provider, ?_⟩
  cases outcome with
  | valid => cases hscope
  | invalid => exact scopeChallenge_mem hscope
  | insufficientScope scopes =>
    rw [← houtcome scopes rfl]
    exact scopeChallenge_mem hscope

theorem evaluateProvider_scoped {profile : TokenProfile} {provider : AuthProvider}
    {decision : AuthDecision}
    (h : (state.evaluateProvider lib net profile headers provider w).1 = some decision) :
    Scoped [provider] decision := by
  unfold AuthState.evaluateProvider at h
  split at h
  · unfold AuthState.bearerDecision at h
    split at h
    · cases h
      exact nofun
    · cases h
  · unfold AuthState.jwksDecision at h
    split at h
    · cases h
    · split at h
      · cases h
      · simp only at h
        split at h
        · cases h
        · cases h
          exact decisionFromValidation_scoped fun _ => validateJwt_scopes
  · unfold AuthState.introspectionDecision at h
    split at h
    · cases h
    · cases h
      exact decisionFromValidation_scoped fun _ => validateOpaque_scopes
  · unfold AuthState.pluginDecision at h
    split at h
    · cases h
      exact nofun
    · cases h
      exact @decisionFromValidation_scoped state .invalid provider nofun
    · cases h

theorem scan_scoped {profile : TokenProfile} {providers : List AuthProvider}
    {decision : AuthDecision}
    (h : (scan (state.evaluateProvider lib net profile headers) providers w).1 = some decision) :
    Scoped providers decision := by
  induction providers generalizing w with
  | nil => cases h
  | cons provider providers ih =>
    rcases hconsult : state.evaluateProvider lib net profile headers provider w with ⟨_ | first, w'⟩
    · rw [scan_cons_none hconsult] at h
      intro scope hscope
      obtain ⟨other, hmem, heq⟩ := ih h scope hscope
      exact ⟨other, List.mem_cons_of_mem _ hmem, heq⟩
    · rw [scan_cons_some hconsult] at h
      cases h
      intro scope hscope
      obtain ⟨other, hmem, heq⟩ := evaluateProvider_scoped (congrArg Prod.fst hconsult) scope hscope
      rw [List.mem_singleton.mp hmem] at heq
      exact ⟨provider, List.mem_cons_self, heq⟩

theorem checkOauth_scoped : Scoped state.providers (state.checkOauth lib net headers w).1 := by
  unfold AuthState.checkOauth
  split
  · exact defaultUnauthorized_scoped
  · rename_i token _
    simp only
    cases hscan : (scan (state.evaluateProvider lib net (tokenProfile lib token) headers)
        state.providers w).1 with
    | none => exact defaultUnauthorized_scoped
    | some decision => exact scan_scoped hscan

theorem authorize_scoped : Scoped state.providers (state.authorize lib net headers w).1 := by
  unfold AuthState.authorize
  split
  · exact nofun
  · split
    · exact nofun
    · exact nofun
  · exact checkOauth_scoped
  · split
    · exact nofun
    · exact checkOauth_scoped

/-- Settings whose texts stand for themselves between quotes give well formed challenges. -/
theorem authMiddleware_wellFormed_of_settings
    (hscopes : ∀ provider ∈ state.providers,
      Challenge.Plain (" ".intercalate provider.config.requiredScopes).toList)
    (hmetadata : ∀ url ∈ state.resourceMetadataUrl, Challenge.Plain url.toList) :
    AuthState.WellFormed (authMiddleware lib net state headers w).1
      (state.announced (state.authorize lib net headers w).1) := by
  have hparams : ∀ decision scope insufficientScope, decision.scope = scope →
      Scoped state.providers decision →
      ∀ param ∈ state.challengeParams scope insufficientScope, Challenge.Plain param.2.toList := by
    rintro decision _ insufficientScope rfl hscoped param hparam
    simp only [AuthState.challengeParams, List.mem_append, List.mem_map, Option.mem_toList] at hparam
    rcases hparam with (hparam | hparam) | ⟨url, hurl, rfl⟩
    · split at hparam
      · rw [List.mem_singleton.mp hparam]
        decide
      · cases hparam
    · split at hparam
      · obtain ⟨scope, hscope, rfl⟩ := List.mem_map.mp hparam
        obtain ⟨provider, hprovider, heq⟩ := hscoped scope (Option.mem_toList.mp hscope)
        rw [heq]
        exact hscopes provider hprovider
      · cases hparam
    · exact hmetadata url hurl
  refine authMiddleware_wellFormed.mpr fun param hparam => ?_
  have hscoped := @authorize_scoped _ _ _ _ lib net state headers w
  unfold AuthState.announced at hparam
  split at hparam
  · cases hparam
  · generalize (state.authorize lib net headers w).1 = decision at hparam hscoped
    cases decision with
    | allow => cases hparam
    | unauthorized scope => exact hparams _ scope false rfl hscoped param hparam
    | forbidden scope => exact hparams _ scope true rfl hscoped param hparam

end Middleware

/-- A provider asks for a scope with a line break. -/
def brokenScope : McpConfig :=
  .withProviders [.jwks { jwksProvider [] [] with requiredScopes := ["mcp\nread"] }]

/-- The first request without a token makes the middleware panic. -/
theorem authMiddleware_panics : ∃ state, buildAuthStateWithPlugins brokenScope none = .ok state ∧
    (authMiddleware (signedToken .null) (honestNetwork .null) state [] ()).1 = .panicked ∧
    ¬ AuthState.WellFormed
      (authMiddleware (signedToken .null) (honestNetwork .null) state [] ()).1
      (state.announced (state.authorize (signedToken .null) (honestNetwork .null) [] ()).1) := by
  refine ⟨_, rfl, by decide, ?_⟩
  rintro ⟨hpanic, _⟩
  exact hpanic (by decide)

end RustMcpCore
