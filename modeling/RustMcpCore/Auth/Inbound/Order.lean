import RustMcpCore.Auth.Inbound.Factory

/-! # The order of the providers

The documented meaning of a provider list is its first definitive answer. A list
with a bearer provider and others is not evaluated that way: the bearer token is
compared first, wherever its provider stands.
-/
namespace RustMcpCore
open Library
variable {Alg Jwk Key W : Type} (lib : JwtLibrary Alg Jwk Key) (net : Network W Jwk)

/-! ## Accepted provider lists -/

theorem validateAuthProvider_bearers {seen seen' : AuthSettingsSeen} {p : AuthProviderConfig}
    (h : validateAuthProvider seen p = .ok seen') :
    seen'.bearerProviderCount = seen.bearerProviderCount + if p.isBearer then 1 else 0 := by
  unfold validateAuthProvider at h
  dsimp only at h
  generalize seen.allowMissingIssCount + (if p.allowMissingIss then 1 else 0) = missing at h
  generalize seen.bearerProviderCount + (if p.isBearer then 1 else 0) = bearers at h ⊢
  split at h
  · cases h
  · split at h
    · cases h
    · split at h
      · cases h
      · split at h
        · cases h; rfl
        · split at h
          · cases h
          · split at h
            · cases h
            · cases h; rfl

theorem foldlM_bearers {ps : List AuthProviderConfig} {seen seen' : AuthSettingsSeen}
    (h : ps.foldlM validateAuthProvider seen = .ok seen') :
    seen'.bearerProviderCount = seen.bearerProviderCount + ps.countP (·.isBearer) := by
  induction ps generalizing seen with
  | nil =>
    cases h
    simp
  | cons p ps ih =>
    rw [List.foldlM_cons] at h
    cases hp : validateAuthProvider seen p with
    | error e => rw [hp] at h; cases h
    | ok next =>
      rw [hp] at h
      have hstep := validateAuthProvider_bearers hp
      have hrest := ih h
      rw [List.countP_cons]
      omega

/-- An enabled configuration that is accepted has a provider, and at most one of
them is a bearer provider. -/
theorem validateAuthSettings_ok {config : McpConfig} {auth : AuthConfig}
    (hauth : config.server.auth = some auth) (hen : auth.isEnabled = true)
    (h : validateAuthSettings config = .ok ()) :
    auth.providers ≠ [] ∧ auth.providers.countP (·.isBearer) ≤ 1 := by
  unfold validateAuthSettings at h
  simp only [hauth, hen, Bool.not_true, Bool.false_eq_true, if_false] at h
  split at h
  · cases h
  · rename_i hne
    refine ⟨by simpa using hne, ?_⟩
    split at h
    · cases h
    · rename_i seen hfold
      have hcount := foldlM_bearers hfold
      have hstart : AuthSettingsSeen.start.bearerProviderCount = 0 := rfl
      split at h
      · cases h
      · omega

theorem split_of_countP_le_one {α : Type} {p : α → Bool} {l : List α} (h : l.countP p ≤ 1) :
    (∀ a ∈ l, p a = false) ∨ ∃ before a after, l = before ++ a :: after ∧ p a = true ∧
      (∀ b ∈ before, p b = false) ∧ ∀ b ∈ after, p b = false := by
  cases hf : l.find? p with
  | none =>
    left
    intro a ha
    simpa using List.find?_eq_none.mp hf a ha
  | some a =>
    right
    obtain ⟨ha, before, after, rfl, hbefore⟩ := List.find?_eq_some_iff_append.mp hf
    refine ⟨before, a, after, rfl, ha, fun b hb => by simpa using hbefore b hb, ?_⟩
    intro b hb
    rw [List.countP_append, List.countP_cons_of_pos ha] at h
    have hzero : after.countP p = 0 := by omega
    simpa using List.countP_eq_zero.mp hzero b hb

theorem bearerToken_eq_none {p : AuthProviderConfig} (h : p.isBearer = false) :
    p.bearerToken = none := by
  cases p <;> first | rfl | cases h

/-- The shapes of an accepted state: switched off, without a bearer provider, or
split around the one it has. -/
inductive ProviderShape (state : AuthState) : Prop
  | disabled (activation : state.activation = .none)
  | noBearer (activation : state.activation = .oauthOnly)
      (others : ∀ p ∈ state.providers, p.config.isBearer = false)
  | split (before : List AuthProvider) (bearer : AuthBearerProviderConfig)
      (timeoutMs maxResponseBytes : Option UInt64) (after : List AuthProvider)
      (providers : state.providers =
        before ++ ⟨.bearer bearer, timeoutMs, maxResponseBytes⟩ :: after)
      (token : state.bearerToken = some bearer.token)
      (ahead : ∀ p ∈ before, p.config.isBearer = false)
      (behind : ∀ p ∈ after, p.config.isBearer = false)
      (activation : state.activation = .bearerAndOauth ∨
        state.activation = .bearerOnly ∧ before = [] ∧ after = [])

theorem eq_nil_of_any_false {ps : List AuthProviderConfig}
    (hb : ∀ p ∈ ps, p.isBearer = false) (ha : (ps.any fun p => !p.isBearer) = false) :
    ps = [] := by
  cases ps with
  | nil => rfl
  | cons p ps => simp [hb p List.mem_cons_self] at ha

theorem notBearer_map {ps : List AuthProviderConfig} {t m : Option UInt64}
    (h : ∀ p ∈ ps, p.isBearer = false) :
    ∀ p ∈ ps.map fun q => (⟨q, t, m⟩ : AuthProvider), p.config.isBearer = false := by
  intro p hp
  obtain ⟨q, hq, rfl⟩ := List.mem_map.mp hp
  exact h q hq

theorem buildAuthState_split {config : McpConfig} {auth : AuthConfig} {plugins : Bool}
    (hauth : config.server.auth = some auth) (hen : auth.isEnabled = true)
    {before after : List AuthProviderConfig} {p : AuthProviderConfig}
    (hps : auth.providers = before ++ p :: after) (hp : p.isBearer = true)
    (hb : ∀ q ∈ before, q.isBearer = false) (ha : ∀ q ∈ after, q.isBearer = false) :
    ProviderShape (buildAuthState config plugins) := by
  cases p with
  | jwks | introspection | plugin => cases hp
  | bearer bearer =>
    let t := config.outboundHttp.bind (·.timeoutMs)
    let m := config.outboundHttp.bind (·.maxResponseBytes)
    refine .split (before.map fun q => ⟨q, t, m⟩) bearer t m (after.map fun q => ⟨q, t, m⟩) ?_ ?_
      (notBearer_map hb) (notBearer_map ha) ?_
    · simp [buildAuthState, hauth, hps, t, m]
    · have hnone : before.findSome? (·.bearerToken) = none :=
        List.findSome?_eq_none_iff.mpr fun q hq => bearerToken_eq_none (hb q hq)
      have htoken : (AuthProviderConfig.bearer bearer).bearerToken = some bearer.token := rfl
      simp [buildAuthState, hauth, hps, List.findSome?_append, hnone, htoken]
    · by_cases ho : (auth.providers.any fun q => !q.isBearer) = true
      · left
        have hany : auth.providers.any (·.isBearer) = true := by simp [hps, AuthProviderConfig.isBearer]
        simp [buildAuthState, hauth, hen, hany, ho]
      · right
        have hany : auth.providers.any (·.isBearer) = true := by simp [hps, AuthProviderConfig.isBearer]
        have ho' : (auth.providers.any fun q => !q.isBearer) = false := by simpa using ho
        refine ⟨by simp [buildAuthState, hauth, hen, hany, ho'], ?_⟩
        rw [hps, List.any_append, List.any_cons] at ho'
        simp only [Bool.or_eq_false_iff] at ho'
        rw [eq_nil_of_any_false hb ho'.1, eq_nil_of_any_false ha ho'.2.2]
        simp

theorem accepted_shape {config : McpConfig} {registry : Option (List (String × PluginType))}
    {state : AuthState} (h : buildAuthStateWithPlugins config registry = .ok state) :
    ProviderShape state := by
  unfold buildAuthStateWithPlugins at h
  cases hv : validateAuthSettings config with
  | error e => simp [hv] at h
  | ok u =>
    simp only [hv] at h
    cases hp : validateAuthPlugins config registry with
    | error e => simp [hp] at h
    | ok u' =>
      simp only [hp, Except.ok.injEq] at h
      subst h
      by_cases hen : config.server.auth.any AuthConfig.isEnabled = true
      · obtain ⟨auth, hauth, hen'⟩ := (Option.any_eq_true _ _).mp hen
        obtain ⟨hne, hcount⟩ := validateAuthSettings_ok hauth hen' hv
        rcases split_of_countP_le_one hcount with hnone | ⟨before, p, after, hps, hp, hb, ha⟩
        · refine .noBearer ?_ ?_
          · have hany : auth.providers.any (·.isBearer) = false := by
              simpa [List.any_eq_false] using hnone
            simp [buildAuthState, hauth, hen', hany]
          · intro q hq
            simp only [buildAuthState, hauth, Option.map_some, Option.getD_some,
              List.mem_map] at hq
            obtain ⟨q, hq, rfl⟩ := hq
            exact hnone q hq
        · exact buildAuthState_split hauth hen' hps hp hb ha
      · exact .disabled (by simp [buildAuthState, hen])

/-! ## The order -/

namespace AuthState
variable (state : AuthState)

/-- The documented decision: without authentication every request passes, and
otherwise the first provider with a definitive answer decides. -/
def inOrderDecision (headers : HeaderMap) (token : String) (w : W) : AuthDecision :=
  if state.activation = .none then .allow
  else ((scan (state.evaluateProvider lib net (tokenProfile lib token) headers)
    state.providers w).1).getD state.defaultUnauthorized

/-- No bearer provider is consulted before an OAuth-capable provider in front of it. -/
def BearerInTurn (consulted : List AuthProvider) : Prop :=
  ∀ before oauth between bearer after,
    state.providers = before ++ oauth :: between ++ bearer :: after →
    oauth.config.oauthCapable = true → bearer.config.isBearer = true →
    ∀ asked later, consulted = asked ++ bearer :: later → oauth ∈ asked

/-- The decision is the documented one, and is come by in the documented order. -/
def FollowsOrder (headers : HeaderMap) (token : String) (w : W) : Prop :=
  (state.authorize lib net headers w).1 = state.inOrderDecision lib net headers token w ∧
    state.BearerInTurn (state.authorize lib net headers w).2.1

/-- The providers in front of the bearer provider are no OAuth-capable ones, and
if the token is the bearer token, none of them refuses it. -/
def BearerUnopposed (headers : HeaderMap) (token : String) (w : W) : Prop :=
  ∀ before bearer timeoutMs maxResponseBytes after,
    state.providers = before ++ ⟨.bearer bearer, timeoutMs, maxResponseBytes⟩ :: after →
    (∀ p ∈ before, p.config.oauthCapable = false) ∧
      (token = bearer.token →
        let first := (scan (state.evaluateProvider lib net (tokenProfile lib token) headers)
          before w).1
        first = none ∨ first = some .allow)

end AuthState

variable {lib net} {state : AuthState} {headers : HeaderMap} {token : String} {w : W}

theorem checkOauth_decision (ht : extractBearerToken headers = some token)
    (ha : state.activation ≠ .none) :
    (state.checkOauth lib net headers w).1 = state.inOrderDecision lib net headers token w := by
  simp only [AuthState.checkOauth, ht, AuthState.inOrderDecision, if_neg ha]

theorem checkBearer_iff {expected : String} (ht : extractBearerToken headers = some token)
    (hb : state.bearerToken = some expected) : state.checkBearer headers = true ↔ token = expected := by
  simp only [AuthState.checkBearer, ht, hb, decide_eq_true_eq]
  exact eq_comm

theorem split_unique {ps before after before' after' : List AuthProvider}
    {p q : AuthProvider} (h : ps = before ++ p :: after) (h' : ps = before' ++ q :: after')
    (hq : q.config.isBearer = true) (hb : ∀ r ∈ before, r.config.isBearer = false)
    (ha : ∀ r ∈ after, r.config.isBearer = false) : before' = before ∧ q = p ∧ after' = after := by
  rw [h] at h'
  rcases List.append_eq_append_iff.mp h' with ⟨as, rfl, hr⟩ | ⟨as, rfl, hr⟩
  · cases as with
    | nil =>
      cases hr
      simp
    | cons a as =>
      cases hr
      have := ha q (by simp)
      rw [hq] at this
      cases this
  · cases as with
    | nil =>
      cases hr
      simp
    | cons a as =>
      cases hr
      have := hb q (by simp)
      rw [hq] at this
      cases this

theorem evaluate_bearer {profile : TokenProfile} {bearer : AuthBearerProviderConfig}
    {t m : Option UInt64} :
    state.evaluateProvider lib net profile headers ⟨.bearer bearer, t, m⟩ w =
      (if bearer.token = profile.token then some .allow else none, w) := by
  simp only [AuthState.evaluateProvider, AuthState.bearerDecision, AuthProviderConfig.bearerToken,
    Option.some.injEq]

/-- With the bearer token in hand, the bearer provider accepts what those in
front of it leave open. -/
theorem inOrderDecision_bearer {before after : List AuthProvider}
    {bearer : AuthBearerProviderConfig} {t m : Option UInt64}
    (hps : state.providers = before ++ ⟨.bearer bearer, t, m⟩ :: after)
    (ha : state.activation ≠ .none) (htok : token = bearer.token) :
    state.inOrderDecision lib net headers token w =
      ((scan (state.evaluateProvider lib net (tokenProfile lib token) headers) before w).1).getD
        .allow := by
  rw [AuthState.inOrderDecision, if_neg ha, hps]
  cases hs : (scan (state.evaluateProvider lib net (tokenProfile lib token) headers) before w).1 with
  | some d => rw [scan_append_some hs]; rfl
  | none =>
    rw [scan_append_none hs, scan_cons_some (d := .allow)]
    · rfl
    · rw [evaluate_bearer, if_pos]
      exact htok.symm

theorem bearerProvider_eq {before after : List AuthProvider} {bearer : AuthBearerProviderConfig}
    {t m : Option UInt64} (hps : state.providers = before ++ ⟨.bearer bearer, t, m⟩ :: after)
    (hb : ∀ p ∈ before, p.config.isBearer = false) :
    state.bearerProvider = [⟨.bearer bearer, t, m⟩] := by
  have hnone : (before.find? fun p => p.config.bearerToken.isSome) = none := by
    rw [List.find?_eq_none]
    intro p hp
    rw [bearerToken_eq_none (hb p hp)]
    simp
  have htoken : (AuthProviderConfig.bearer bearer).bearerToken = some bearer.token := rfl
  rw [AuthState.bearerProvider, hps, List.find?_append, hnone]
  simp [htoken]

theorem authorize_bearerAndOauth {expected : String} (ht : extractBearerToken headers = some token)
    (ha : state.activation = .bearerAndOauth) (hb : state.bearerToken = some expected) :
    (state.authorize lib net headers w).1 =
        (if token = expected then .allow else state.inOrderDecision lib net headers token w) ∧
      ∃ later, (state.authorize lib net headers w).2.1 = state.bearerProvider ++ later := by
  have hne : state.activation ≠ .none := by simp [ha]
  by_cases hc : token = expected
  · have hcheck := (checkBearer_iff ht hb).mpr hc
    simp only [AuthState.authorize, ha, hcheck, if_pos hc, if_true]
    exact ⟨trivial, [], (List.append_nil _).symm⟩
  · have hcheck : state.checkBearer headers = false :=
      Bool.eq_false_iff.mpr fun h => hc ((checkBearer_iff ht hb).mp h)
    have hd : (state.checkOauth lib net headers w).1 =
        state.inOrderDecision lib net headers token w := checkOauth_decision ht hne
    simp only [AuthState.authorize, ha, hcheck, if_neg hc, Bool.false_eq_true, if_false]
    exact ⟨hd, _, rfl⟩

theorem authorize_bearerOnly {bearer : AuthBearerProviderConfig} {t m : Option UInt64}
    (ht : extractBearerToken headers = some token) (ha : state.activation = .bearerOnly)
    (hb : state.bearerToken = some bearer.token)
    (hps : state.providers = [⟨.bearer bearer, t, m⟩]) :
    (state.authorize lib net headers w).1 = state.inOrderDecision lib net headers token w := by
  have hne : state.activation ≠ .none := by simp [ha]
  have hscope : state.defaultScopeChallenge = none := by
    simp [AuthState.defaultScopeChallenge, hps, AuthProviderConfig.requiredScopes]
  rw [AuthState.inOrderDecision, if_neg hne, hps]
  by_cases hc : token = bearer.token
  · have hcheck := (checkBearer_iff ht hb).mpr hc
    rw [scan_cons_some (d := .allow)]
    · simp only [AuthState.authorize, ha, hcheck, if_true, Option.getD_some]
    · rw [evaluate_bearer, if_pos]
      exact hc.symm
  · have hcheck : state.checkBearer headers = false :=
      Bool.eq_false_iff.mpr fun h => hc ((checkBearer_iff ht hb).mp h)
    have hask : state.evaluateProvider lib net (tokenProfile lib token) headers
        ⟨.bearer bearer, t, m⟩ w = (none, w) := by
      rw [evaluate_bearer, if_neg]
      exact fun h => hc h.symm
    rw [scan_cons_none hask]
    simp only [AuthState.authorize, ha, hcheck, Bool.false_eq_true, if_false, scan,
      Option.getD_none, AuthState.defaultUnauthorized, hscope]

section Split
variable {before after : List AuthProvider} {bearer : AuthBearerProviderConfig}
  {t m : Option UInt64}

/-- No provider in front of the bearer provider refuses its token. -/
def BearerFirst (lib : JwtLibrary Alg Jwk Key) (net : Network W Jwk) (state : AuthState)
    (headers : HeaderMap) (token : String) (w : W) (before : List AuthProvider)
    (bearer : AuthBearerProviderConfig) : Prop :=
  token = bearer.token →
    let first := (scan (state.evaluateProvider lib net (tokenProfile lib token) headers)
      before w).1
    first = none ∨ first = some .allow

theorem bearerUnopposed_split (hps : state.providers = before ++ ⟨.bearer bearer, t, m⟩ :: after)
    (hahead : ∀ p ∈ before, p.config.isBearer = false)
    (hbehind : ∀ p ∈ after, p.config.isBearer = false) :
    state.BearerUnopposed lib net headers token w ↔
      (∀ p ∈ before, p.config.oauthCapable = false) ∧
        BearerFirst lib net state headers token w before bearer := by
  refine ⟨fun h => h before bearer t m after hps, fun h => ?_⟩
  intro before' bearer' t' m' after' hps'
  obtain ⟨rfl, heq, rfl⟩ := split_unique hps hps' rfl hahead hbehind
  cases heq
  exact h

theorem bearerInTurn_split (ht : extractBearerToken headers = some token)
    (hps : state.providers = before ++ ⟨.bearer bearer, t, m⟩ :: after)
    (htoken : state.bearerToken = some bearer.token)
    (hahead : ∀ p ∈ before, p.config.isBearer = false)
    (hbehind : ∀ p ∈ after, p.config.isBearer = false)
    (hact : state.activation = .bearerAndOauth ∨ before = []) :
    state.BearerInTurn (state.authorize lib net headers w).2.1 ↔
      ∀ p ∈ before, p.config.oauthCapable = false := by
  refine ⟨fun h p hp => ?_, fun h => ?_⟩
  · rcases hact with hact | rfl
    · obtain ⟨x, y, rfl⟩ := List.append_of_mem hp
      obtain ⟨_, later, hasked⟩ : _ ∧ ∃ later, (state.authorize lib net headers w).2.1 =
          state.bearerProvider ++ later := authorize_bearerAndOauth ht hact htoken
      rw [bearerProvider_eq hps hahead] at hasked
      by_contra hcap
      have hps' : state.providers = x ++ p :: y ++ ⟨.bearer bearer, t, m⟩ :: after := hps
      have hearlier := h x p y _ after hps' (by simpa using hcap) rfl [] later hasked
      cases hearlier
    · cases hp
  · intro before' oauth between bearer' after' hps' hcap hbearer
    obtain ⟨rfl, _⟩ := split_unique hps hps' hbearer hahead hbehind
    have hnot := h oauth (by simp)
    rw [hcap] at hnot
    cases hnot

theorem authorize_split (ht : extractBearerToken headers = some token)
    (hps : state.providers = before ++ ⟨.bearer bearer, t, m⟩ :: after)
    (htoken : state.bearerToken = some bearer.token)
    (hact : state.activation = .bearerAndOauth ∨
      state.activation = .bearerOnly ∧ before = [] ∧ after = []) :
    (state.authorize lib net headers w).1 = state.inOrderDecision lib net headers token w ↔
      BearerFirst lib net state headers token w before bearer := by
  have hne : state.activation ≠ .none := by
    rcases hact with h | ⟨h, _⟩ <;> simp [h]
  rcases hact with hact | ⟨hact, rfl, rfl⟩
  · rw [(authorize_bearerAndOauth ht hact htoken).1]
    by_cases hc : token = bearer.token
    · rw [if_pos hc, inOrderDecision_bearer hps hne hc]
      simp only [BearerFirst, hc, forall_const]
      cases (scan (state.evaluateProvider lib net (tokenProfile lib bearer.token) headers)
        before w).1 with
      | none => simp
      | some d => simp [eq_comm]
    · simp [BearerFirst, hc]
  · simp only [authorize_bearerOnly ht hact htoken hps, BearerFirst, scan, true_or, implies_true]

end Split

/-- An accepted configuration is evaluated in its order exactly when it is off,
or its bearer provider has no OAuth-capable provider in front of it and, for its
own token, no provider in front of it that refuses. -/
theorem followsOrder_iff {config : McpConfig} {registry : Option (List (String × PluginType))}
    (hbuild : buildAuthStateWithPlugins config registry = .ok state)
    (ht : extractBearerToken headers = some token) :
    state.FollowsOrder lib net headers token w ↔
      state.activation = .none ∨ state.BearerUnopposed lib net headers token w := by
  cases accepted_shape hbuild with
  | disabled hact =>
    refine ⟨fun _ => .inl hact, fun _ => ⟨?_, ?_⟩⟩
    · simp only [AuthState.authorize, AuthState.inOrderDecision, hact, if_true]
    · intro _ _ _ _ _ _ _ _ asked later hc
      simp [AuthState.authorize, hact] at hc
  | noBearer hact hothers =>
    have hne : state.activation ≠ .none := by simp [hact]
    refine ⟨fun _ => .inr ?_, fun _ => ⟨?_, ?_⟩⟩
    · intro before bearer t m after hps
      have hnot := hothers ⟨.bearer bearer, t, m⟩ (by simp [hps])
      cases hnot
    · simp only [AuthState.authorize, hact]
      exact checkOauth_decision ht hne
    · intro before oauth between bearer after hps _ hbearer
      have hnot := hothers bearer (by simp [hps])
      rw [hbearer] at hnot
      cases hnot
  | split before bearer t m after hps htoken hahead hbehind hact =>
    have hne : state.activation ≠ .none := by
      rcases hact with h | ⟨h, _⟩ <;> simp [h]
    have hfirst : state.activation = .bearerAndOauth ∨ before = [] := hact.imp id (·.2.1)
    rw [AuthState.FollowsOrder, bearerUnopposed_split hps hahead hbehind,
      bearerInTurn_split ht hps htoken hahead hbehind hfirst, authorize_split ht hps htoken hact,
      or_iff_right hne, and_comm]

/-! ## Two lists with the same request -/

def sampleLibrary : JwtLibrary Unit Unit Unit where
  algName _ := "HS256"
  parseAlgorithm name := if name = "HS256" then some () else none
  keyId _ := none
  decodeHeader _ := none
  fromJwk _ := none
  decode _ _ _ := none
  decodeSegment _ := none

/-- The introspection endpoint knows no active token. -/
def sampleNetwork : Network Unit Unit where
  discovery _ w := (none, w)
  jwks _ w := (none, w)
  introspect _ w := (some (.object [("active", .bool false)]), w)
  getPlugin _ w := (false, w)
  validate _ _ w := (.abstain, w)

def sampleBearer : AuthProviderConfig := .bearer ⟨"static", "s3cret"⟩

def sampleIntrospection : AuthProviderConfig :=
  .introspection ⟨"idp", none, false, "https://idp/introspect", none, none, .basic, [], [], ∅⟩

def sampleHeaders : HeaderMap :=
  [("authorization", "Bearer s3cret".toList.map fun c => .ofNat c.toNat)]

theorem followsOrder_bearer_first :
    (buildAuthState (.withProviders [sampleBearer, sampleIntrospection]) true).FollowsOrder
      sampleLibrary sampleNetwork sampleHeaders "s3cret" () := by
  have hbuild : buildAuthStateWithPlugins (.withProviders [sampleBearer, sampleIntrospection])
      (some []) = .ok (buildAuthState (.withProviders [sampleBearer, sampleIntrospection]) true) :=
    rfl
  refine (followsOrder_iff hbuild (by decide)).mpr (.inr ?_)
  intro before bearer t m after hps
  rcases before with _ | ⟨x, _ | ⟨y, ys⟩⟩
  · exact ⟨by simp, fun _ => .inl rfl⟩
  · cases hps
  · cases ys <;> cases hps

/-- The introspection provider comes first and refuses the token; the request is
let through all the same. -/
theorem bearer_out_of_turn :
    buildAuthStateWithPlugins (.withProviders [sampleIntrospection, sampleBearer]) (some []) =
      .ok (buildAuthState (.withProviders [sampleIntrospection, sampleBearer]) true) ∧
    extractBearerToken sampleHeaders = some "s3cret" ∧
    ¬ (buildAuthState (.withProviders [sampleIntrospection, sampleBearer]) true).FollowsOrder
      sampleLibrary sampleNetwork sampleHeaders "s3cret" () := by
  refine ⟨rfl, by decide, fun h => ?_⟩
  have hd := h.1
  revert hd
  decide

end RustMcpCore
