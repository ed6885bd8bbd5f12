import RustMcpCore.Auth.Inbound.Jwt

/-! # One token, two validations

The same claims may reach the server inside a signed token or as the answer of
an introspection endpoint. Signed tokens leave `iss` and `aud` to the token
library, which lets absent and unreadable ones pass and asks for one common
audience; introspected ones must show the issuer and every configured audience.
-/
namespace RustMcpCore
open Library
variable {Alg Jwk Key W : Type} (lib : JwtLibrary Alg Jwk Key) (net : Network W Jwk)

/-- A token that is validly signed and not expired, with these claims, at a
provider that resolves its issuer as given. -/
structure Signed (provider : AuthProvider) (token : String) (w : W) (issuer : Option String)
    (claims : Value) : Prop where
  genuine : ∃ jwks w' header key, net.jwks provider w = (some jwks, w') ∧
    signingKey lib jwks token = some (header, key) ∧ (provider.issuer net w').1 = issuer ∧
    lib.decode token key
      { jwtValidation lib provider.config issuer header with iss := none, validateAud := false } =
        some claims

/-- A token that introspection reports as active, with these claims otherwise. -/
structure Introspected (state : AuthState) (provider : AuthProvider) (token : String) (w : W)
    (issuer : Option String) (claims payload : Value) : Prop where
  answered : ∃ url w', provider.config.introspectionUrl = some url ∧
    net.introspect (introspectionParams state token url provider.config) w = (some payload, w') ∧
      (provider.issuer net w').1 = issuer
  active : payload.get "active" = some (.bool true)
  same : ∀ key, key ≠ "active" → payload.get key = claims.get key

/-- When the two validations agree: both refuse, or both accept. -/
inductive Agreement (issuer : Option String) (audiences : List String)
    (required : HashMap String String) (claims payload : Value) : Prop
  /-- A required claim is missing. -/
  | claims (h : claimsMatchRequired claims required = false)
  /-- `iss` can be read and names another issuer. -/
  | issuer (name : String) (texts : List String) (configured : issuer = some name)
      (read : (claims.get "iss").bind Value.asTexts = some texts) (other : name ∉ texts)
  /-- `aud` can be read and names no configured audience. -/
  | audience (texts : List String) (configured : audiences ≠ [])
      (read : (claims.get "aud").bind Value.asTexts = some texts)
      (none : ∀ a ∈ audiences, a ∉ texts)
  /-- No audience is configured, `aud` can be read, and introspection finds another
  fault: `iss` is not literally the issuer, or a required claim is called `active`. -/
  | unnamed (texts : List String) (unconfigured : audiences = [])
      (read : (claims.get "aud").bind Value.asTexts = some texts)
      (fault : claimsMatchRequired payload required = false ∨
        ∃ name, issuer = some name ∧ claims.get "iss" ≠ some (.string name))
  /-- Nothing is wrong for either: `iss` is literally the issuer, and `aud` names all
  configured audiences, or cannot be read and none is configured. -/
  | accepted (matching : claimsMatchRequired payload required = true)
      (own : ∀ name, issuer = some name → claims.get "iss" = some (.string name))
      (unnamed : audiences = [] → (claims.get "aud").bind Value.asTexts = none)
      (all : audiences ≠ [] → ∃ value, claims.get "aud" = some value ∧
        ∀ a ∈ audiences, a ∈ value.names)

variable {lib net} {state : AuthState} {provider other : AuthProvider} {token : String} {w w' : W}
  {issuer : Option String} {claims payload : Value}

def issuerShown (payload : Value) (issuer : Option String) : Bool :=
  !(issuer.isSome && (payload.get "iss").bind Value.asStr ≠ issuer)

theorem validateJwt_signed (hlib : lib.Documented)
    (h : Signed lib net provider token w issuer claims) :
    (validateJwt lib net token provider w).1 =
      if issAccepted (claims.get "iss") (issuer.map fun i => [i]) &&
          audAccepted (claims.get "aud")
            (if provider.config.audiences.isEmpty then none else some provider.config.audiences)
      then checkClaims provider.config claims else .invalid := by
  obtain ⟨jwks, w', header, key, hj, hk, hi, hd⟩ := h.genuine
  let v := jwtValidation lib provider.config issuer header
  have hiff : ∀ c, lib.decode token key v = some c ↔
      (lib.decode token key { v with iss := none, validateAud := false } = some c ∧
        issAccepted (c.get "iss") v.iss = true) ∧ audAccepted (c.get "aud") v.aud = true := by
    intro c
    rw [hlib.decode_aud _ _ v _ rfl, hlib.decode_iss _ _ { v with validateAud := false }]
  have hdec : lib.decode token key v =
      if issAccepted (claims.get "iss") v.iss && audAccepted (claims.get "aud") v.aud
      then some claims else none := by
    apply Option.ext
    intro c
    rw [hiff, hd, Option.ite_none_right_eq_some, Bool.and_eq_true, Option.some.injEq]
    constructor
    · rintro ⟨⟨rfl, h₁⟩, h₂⟩
      exact ⟨⟨h₁, h₂⟩, rfl⟩
    · rintro ⟨⟨h₁, h₂⟩, rfl⟩
      exact ⟨⟨rfl, h₁⟩, h₂⟩
  have hrun : (validateJwt lib net token provider w).1 =
      (lib.decode token key v).elim .invalid (checkClaims provider.config) := by
    unfold validateJwt
    simp only [hj, hk, hi]
    change _ = (lib.decode token key (jwtValidation lib provider.config issuer header)).elim _ _
    cases lib.decode token key (jwtValidation lib provider.config issuer header) <;> rfl
  rw [hrun, hdec]
  change _ = if issAccepted (claims.get "iss") v.iss && audAccepted (claims.get "aud") v.aud
    then _ else _
  cases issAccepted (claims.get "iss") v.iss && audAccepted (claims.get "aud") v.aud <;> rfl

theorem validateOpaque_introspected
    (h : Introspected net state provider token w issuer claims payload) :
    (validateOpaque net state token provider w).1 =
      if issuerShown payload issuer && audiencesMatchRequired payload provider.config.audiences
      then checkClaims provider.config payload else .invalid := by
  obtain ⟨url, w', hu, hp, hi⟩ := h.answered
  unfold validateOpaque
  simp only [hu, hp, h.active, Option.bind_some, Value.asBool, Option.getD_some, Bool.not_true,
    Bool.false_eq_true, if_false, hi]
  by_cases hiss : (issuer.isSome && decide ((payload.get "iss").bind Value.asStr ≠ issuer)) = true
  · have hshown : issuerShown payload issuer = false := by
      rw [issuerShown, hiss]
      rfl
    rw [if_pos hiss, hshown]
    rfl
  · have hshown : issuerShown payload issuer = true := by
      rw [issuerShown, Bool.eq_false_iff.mpr hiss]
      rfl
    rw [if_neg hiss, hshown]
    cases audiencesMatchRequired payload provider.config.audiences <;> rfl

/-- Equal settings and equal scopes leave one question: whether both sides find
the token in order. -/
theorem outcomes_eq_iff {config config' : AuthProviderConfig} {j o : Bool}
    (hscopes : config'.requiredScopes = config.requiredScopes)
    (hscope : payload.get "scope" = claims.get "scope") :
    ((if j then checkClaims config claims else .invalid) =
        if o then checkClaims config' payload else .invalid) ↔
      ((j && claimsMatchRequired claims config.requiredClaims) =
        (o && claimsMatchRequired payload config'.requiredClaims)) := by
  have hmatch : scopesMatchRequired payload config'.requiredScopes =
      scopesMatchRequired claims config.requiredScopes := by
    rw [hscopes]
    exact scopesMatchRequired_congr hscope
  unfold checkClaims
  rw [hmatch, hscopes]
  cases j <;> cases o <;> cases claimsMatchRequired claims config.requiredClaims <;>
    cases claimsMatchRequired payload config'.requiredClaims <;>
    cases scopesMatchRequired claims config.requiredScopes <;> simp

/-- `active` is a Boolean in an introspected token, so that no requirement on it
can be met. -/
theorem claimsMatchRequired_payload {required : HashMap String String}
    (hactive : payload.get "active" = some (.bool true))
    (hsame : ∀ key, key ≠ "active" → payload.get key = claims.get key)
    (h : claimsMatchRequired payload required = true) :
    claimsMatchRequired claims required = true := by
  have hcongr : claimsMatchRequired payload required = claimsMatchRequired claims required := by
    refine claimsMatchRequired_congr fun key hkey => hsame key ?_
    rintro rfl
    obtain ⟨entry, hentry, heq⟩ := List.mem_map.mp (AList.mem_keys.mpr hkey)
    have hmet := List.all_eq_true.mp h entry hentry
    rw [heq, hactive] at hmet
    cases hmet
  exact hcongr.symm.trans h

theorem issuerShown_iff : issuerShown payload issuer = true ↔
    ∀ name, issuer = some name → payload.get "iss" = some (.string name) := by
  cases issuer with
  | none => simp [issuerShown]
  | some name =>
    simp only [issuerShown, Option.isSome_some, Bool.true_and, Bool.not_eq_true',
      decide_eq_false_iff_not, not_not, Option.some.injEq, forall_eq']
    rcases payload.get "iss" with _ | (_ | _ | _ | _ | _ | _) <;> simp [Value.asStr]

theorem issAccepted_eq_false : issAccepted (claims.get "iss") (issuer.map fun i => [i]) = false ↔
    ∃ name texts, issuer = some name ∧ (claims.get "iss").bind Value.asTexts = some texts ∧
      name ∉ texts := by
  cases issuer with
  | none => simp [issAccepted]
  | some name =>
    cases hread : (claims.get "iss").bind Value.asTexts with
    | none => simp [issAccepted, sharesElement, hread]
    | some texts =>
      simp only [issAccepted, Option.map_some, sharesElement, hread, List.any_eq_false,
        Option.some.injEq, List.contains_iff_mem, List.mem_singleton]
      constructor
      · exact fun h => ⟨name, texts, rfl, rfl, fun hm => h name hm rfl⟩
      · rintro ⟨_, _, rfl, rfl, hnot⟩ x hx rfl
        exact hnot hx

theorem audAccepted_eq_false {audiences : List String} :
    audAccepted (claims.get "aud") (if audiences.isEmpty then none else some audiences) = false ↔
      ∃ texts, (claims.get "aud").bind Value.asTexts = some texts ∧
        ∀ a ∈ audiences, a ∉ texts := by
  cases hread : (claims.get "aud").bind Value.asTexts with
  | none => cases audiences <;> simp [audAccepted, sharesElement, hread]
  | some texts =>
    cases audiences with
    | nil => simp [audAccepted, hread]
    | cons a as =>
      simp only [audAccepted, List.isEmpty_cons, Bool.false_eq_true, if_false, sharesElement,
        hread, List.any_eq_false, List.contains_iff_mem, Option.some.injEq, exists_eq_left']
      exact ⟨fun h b hb hm => h b hm hb, fun h b hm hb => h b hb hm⟩

/-- What the crate reads of a claim is what the claim names. -/
theorem names_of_read {key : String} {texts : List String}
    (h : (claims.get key).bind Value.asTexts = some texts) :
    ∃ value, claims.get key = some value ∧ value.names = texts := by
  obtain ⟨value, hvalue, htexts⟩ := Option.bind_eq_some_iff.mp h
  exact ⟨value, hvalue, Value.names_of_asTexts htexts⟩

theorem audiencesMatchRequired_iff {audiences : List String} :
    audiencesMatchRequired payload audiences = true ↔
      ∀ a ∈ audiences, ∃ value, payload.get "aud" = some value ∧ a ∈ value.names := by
  rw [audiencesMatchRequired, providedAudiences_eq, List.all_eq_true]
  cases payload.get "aud" <;> simp

section Cases
variable {audiences : List String} {required : HashMap String String}

/-- The checks on a signed token, apart from its scopes. -/
def signedPasses (issuer : Option String) (audiences : List String)
    (required : HashMap String String) (claims : Value) : Bool :=
  issAccepted (claims.get "iss") (issuer.map fun i => [i]) &&
    audAccepted (claims.get "aud") (if audiences.isEmpty then none else some audiences) &&
    claimsMatchRequired claims required

/-- The checks on an introspected token, apart from its scopes. -/
def introspectedPasses (issuer : Option String) (audiences : List String)
    (required : HashMap String String) (payload : Value) : Bool :=
  issuerShown payload issuer && audiencesMatchRequired payload audiences &&
    claimsMatchRequired payload required

theorem issuerShown_other (hiss : payload.get "iss" = claims.get "iss") {name : String}
    {texts : List String} (configured : issuer = some name)
    (read : (claims.get "iss").bind Value.asTexts = some texts) (other : name ∉ texts) :
    issuerShown payload issuer = false := by
  rw [Bool.eq_false_iff]
  intro hshown
  have hown := issuerShown_iff.mp hshown name configured
  obtain ⟨value, hvalue, rfl⟩ := names_of_read read
  rw [hiss, hvalue] at hown
  cases hown
  exact other List.mem_cons_self

theorem audiencesMatchRequired_other (haud : payload.get "aud" = claims.get "aud")
    {texts : List String} (configured : audiences ≠ [])
    (read : (claims.get "aud").bind Value.asTexts = some texts)
    (other : ∀ a ∈ audiences, a ∉ texts) :
    audiencesMatchRequired payload audiences = false := by
  rw [Bool.eq_false_iff]
  intro hmatch
  obtain ⟨a, hmem⟩ := List.exists_mem_of_ne_nil _ configured
  obtain ⟨value', hvalue', hin⟩ := audiencesMatchRequired_iff.mp hmatch a hmem
  obtain ⟨value, hvalue, rfl⟩ := names_of_read read
  rw [haud, hvalue] at hvalue'
  cases hvalue'
  exact other a hmem hin

theorem issAccepted_own
    (own : ∀ name, issuer = some name → claims.get "iss" = some (.string name)) :
    issAccepted (claims.get "iss") (issuer.map fun i => [i]) = true := by
  rw [← Bool.not_eq_false]
  intro hj
  obtain ⟨name, texts, hname, hread, hnot⟩ := issAccepted_eq_false.mp hj
  rw [own name hname] at hread
  cases hread
  exact hnot List.mem_cons_self

theorem audAccepted_all
    (unnamed : audiences = [] → (claims.get "aud").bind Value.asTexts = none)
    (all : audiences ≠ [] → ∃ value, claims.get "aud" = some value ∧
      ∀ a ∈ audiences, a ∈ value.names) :
    audAccepted (claims.get "aud") (if audiences.isEmpty then none else some audiences) = true := by
  rw [← Bool.not_eq_false]
  intro ha
  obtain ⟨texts, hread, hnot⟩ := audAccepted_eq_false.mp ha
  by_cases hempty : audiences = []
  · rw [unnamed hempty] at hread
    cases hread
  · obtain ⟨value', hvalue', hin⟩ := all hempty
    obtain ⟨a, hmem⟩ := List.exists_mem_of_ne_nil _ hempty
    obtain ⟨value, hvalue, rfl⟩ := names_of_read hread
    rw [hvalue] at hvalue'
    cases hvalue'
    exact hnot a hmem (hin a hmem)

theorem audiencesMatchRequired_all (haud : payload.get "aud" = claims.get "aud")
    (all : audiences ≠ [] → ∃ value, claims.get "aud" = some value ∧
      ∀ a ∈ audiences, a ∈ value.names) :
    audiencesMatchRequired payload audiences = true := by
  refine audiencesMatchRequired_iff.mpr fun a hmem => ?_
  obtain ⟨value, hvalue, hin⟩ := all (List.ne_nil_of_mem hmem)
  exact ⟨value, haud.trans hvalue, hin a hmem⟩

/-- A token that both sides refuse has one of the four faults they share. -/
theorem agreement_of_refused (hiss : payload.get "iss" = claims.get "iss")
    (hs : signedPasses issuer audiences required claims = false)
    (hi : introspectedPasses issuer audiences required payload = false) :
    Agreement issuer audiences required claims payload := by
  cases hrc : claimsMatchRequired claims required with
  | false => exact .claims hrc
  | true =>
    cases hj : issAccepted (claims.get "iss") (issuer.map fun i => [i]) with
    | false =>
      obtain ⟨name, texts, hc, hread, hn⟩ := issAccepted_eq_false.mp hj
      exact .issuer name texts hc hread hn
    | true =>
      have ha : audAccepted (claims.get "aud")
          (if audiences.isEmpty then none else some audiences) = false := by
        simpa only [signedPasses, hj, hrc, Bool.true_and, Bool.and_true] using hs
      obtain ⟨texts, hread, hn⟩ := audAccepted_eq_false.mp ha
      by_cases hempty : audiences = []
      · have hmatch : audiencesMatchRequired payload audiences = true :=
          audiencesMatchRequired_iff.mpr (by simp [hempty])
        refine .unnamed texts hempty hread ?_
        cases hshown : issuerShown payload issuer with
        | true =>
          left
          simpa only [introspectedPasses, hshown, hmatch, Bool.true_and] using hi
        | false =>
          right
          have hnot := (not_congr issuerShown_iff).mp (Bool.eq_false_iff.mp hshown)
          rw [hiss] at hnot
          simp only [not_forall] at hnot
          obtain ⟨name, hname, hne⟩ := hnot
          exact ⟨name, hname, hne⟩
      · exact .audience texts hempty hread hn

theorem agreement_of_passes (hiss : payload.get "iss" = claims.get "iss")
    (haud : payload.get "aud" = claims.get "aud")
    (hs : signedPasses issuer audiences required claims = true)
    (hi : introspectedPasses issuer audiences required payload = true) :
    Agreement issuer audiences required claims payload := by
  simp only [signedPasses, introspectedPasses, Bool.and_eq_true] at hs hi
  obtain ⟨⟨_, ha⟩, _⟩ := hs
  obtain ⟨⟨hshown, hmatch⟩, hrp⟩ := hi
  have hown := issuerShown_iff.mp hshown
  have hevery := audiencesMatchRequired_iff.mp hmatch
  rw [hiss] at hown
  rw [haud] at hevery
  refine .accepted hrp hown ?_ ?_
  · intro hempty
    subst hempty
    simpa [audAccepted] using ha
  · intro hne
    obtain ⟨a, hmem⟩ := List.exists_mem_of_ne_nil _ hne
    obtain ⟨value, hvalue, _⟩ := hevery a hmem
    refine ⟨value, hvalue, fun b hb => ?_⟩
    obtain ⟨value', hvalue', hin⟩ := hevery b hb
    rw [hvalue] at hvalue'
    cases hvalue'
    exact hin

theorem passes_of_agreement (hiss : payload.get "iss" = claims.get "iss")
    (haud : payload.get "aud" = claims.get "aud")
    (hpayload : claimsMatchRequired payload required = true →
      claimsMatchRequired claims required = true)
    (h : Agreement issuer audiences required claims payload) :
    signedPasses issuer audiences required claims =
      introspectedPasses issuer audiences required payload := by
  unfold signedPasses introspectedPasses
  cases h with
  | claims h =>
    have hrp : claimsMatchRequired payload required = false := by
      rw [Bool.eq_false_iff]
      intro hrp
      rw [hpayload hrp] at h
      cases h
    rw [h, hrp, Bool.and_false, Bool.and_false]
  | issuer name texts configured read other =>
    have hj := issAccepted_eq_false.mpr ⟨name, texts, configured, read, other⟩
    rw [hj, issuerShown_other hiss configured read other, Bool.false_and, Bool.false_and,
      Bool.false_and, Bool.false_and]
  | audience texts configured read other =>
    have ha := audAccepted_eq_false.mpr ⟨texts, read, other⟩
    rw [ha, audiencesMatchRequired_other haud configured read other, Bool.and_false,
      Bool.and_false, Bool.false_and, Bool.false_and]
  | unnamed texts unconfigured read fault =>
    have hnone : ∀ a ∈ audiences, a ∉ texts := by simp [unconfigured]
    have ha := audAccepted_eq_false.mpr ⟨texts, read, hnone⟩
    rw [ha, Bool.and_false, Bool.false_and]
    rcases fault with hrp | ⟨name, hname, hne⟩
    · rw [hrp, Bool.and_false]
    · have hshown : issuerShown payload issuer = false := by
        rw [Bool.eq_false_iff]
        intro hshown
        have hown := issuerShown_iff.mp hshown name hname
        rw [hiss] at hown
        exact hne hown
      rw [hshown, Bool.false_and, Bool.false_and]
  | accepted matching own unnamed all =>
    have hshown : issuerShown payload issuer = true := issuerShown_iff.mpr (by rwa [hiss])
    rw [issAccepted_own own, audAccepted_all unnamed all, hpayload matching, hshown,
      audiencesMatchRequired_all haud all, matching]

end Cases

/-- The two validations of one token agree in these cases and no others. -/
theorem outcomes_agree_iff (hlib : lib.Documented)
    (hs : Signed lib net provider token w issuer claims)
    (hi : Introspected net state other token w' issuer claims payload)
    (haudiences : other.config.audiences = provider.config.audiences)
    (hclaims : other.config.requiredClaims = provider.config.requiredClaims)
    (hscopes : other.config.requiredScopes = provider.config.requiredScopes) :
    (validateJwt lib net token provider w).1 = (validateOpaque net state token other w').1 ↔
      Agreement issuer provider.config.audiences provider.config.requiredClaims claims payload := by
  have hscope := hi.same "scope" (by decide)
  have hiss := hi.same "iss" (by decide)
  have haud := hi.same "aud" (by decide)
  have hpayload : claimsMatchRequired payload provider.config.requiredClaims = true →
      claimsMatchRequired claims provider.config.requiredClaims = true :=
    claimsMatchRequired_payload hi.active hi.same
  rw [validateJwt_signed hlib hs, validateOpaque_introspected hi, outcomes_eq_iff hscopes hscope,
    haudiences, hclaims]
  change signedPasses issuer provider.config.audiences provider.config.requiredClaims claims =
    introspectedPasses issuer provider.config.audiences provider.config.requiredClaims payload ↔ _
  refine ⟨fun heq => ?_, passes_of_agreement hiss haud hpayload⟩
  cases hp : signedPasses issuer provider.config.audiences provider.config.requiredClaims claims with
  | true => exact agreement_of_passes hiss haud hp (heq.symm.trans hp)
  | false => exact agreement_of_refused hiss hp (heq.symm.trans hp)

/-! ## The two sides of one provider -/

def signedSide : AuthProvider := ⟨.jwks (jwksProvider ["mcp", "admin"] []), none, none⟩

def opaqueSide : AuthProvider :=
  ⟨.introspection ⟨"idp", some "https://idp", false, "https://idp/introspect", none, none, .basic,
    ["mcp", "admin"], [], ∅⟩, none, none⟩

def sampleClaims (aud : List Value) : List (String × Value) :=
  [("iss", .string "https://idp"), ("aud", .array aud)]

def samplePayload (aud : List Value) : Value := .object (("active", .bool true) :: sampleClaims aud)

theorem sampleClaims_signed (aud : List Value) :
    Signed (signedToken (.object (sampleClaims aud))) (honestNetwork (samplePayload aud)) signedSide
      "header.payload.signature" () (some "https://idp") (.object (sampleClaims aud)) :=
  ⟨[()], (), ⟨false, none⟩, (), rfl, rfl, rfl, rfl⟩

theorem sampleClaims_introspected (aud : List Value) :
    Introspected (honestNetwork (samplePayload aud)) (oauthState opaqueSide.config) opaqueSide
      "header.payload.signature" () (some "https://idp") (.object (sampleClaims aud))
      (samplePayload aud) where
  answered := ⟨_, (), rfl, rfl, rfl⟩
  active := rfl
  same key hkey := by
    have hne : (key == "active") = false := by simpa using hkey
    simp only [samplePayload, Value.get, List.lookup_cons, hne]

theorem outcomes_agree_both :
    (validateJwt (signedToken (.object (sampleClaims [.string "mcp", .string "admin"])))
      (honestNetwork (samplePayload [.string "mcp", .string "admin"])) "header.payload.signature"
      signedSide ()).1 =
    (validateOpaque (honestNetwork (samplePayload [.string "mcp", .string "admin"]))
      (oauthState opaqueSide.config) "header.payload.signature" opaqueSide ()).1 := by
  refine (outcomes_agree_iff (signedToken_documented _) (sampleClaims_signed _)
    (sampleClaims_introspected _) rfl rfl rfl).mpr (.accepted ?_ ?_ ?_ ?_)
  · rfl
  · intro name hname
    cases hname
    rfl
  · intro h
    cases h
  · intro _
    refine ⟨_, rfl, ?_⟩
    decide

/-- One of two configured audiences is enough for a signed token and not for an
introspected one. -/
theorem outcomes_differ :
    Signed (signedToken (.object (sampleClaims [.string "mcp"])))
      (honestNetwork (samplePayload [.string "mcp"])) signedSide "header.payload.signature" ()
      (some "https://idp") (.object (sampleClaims [.string "mcp"])) ∧
    Introspected (honestNetwork (samplePayload [.string "mcp"])) (oauthState opaqueSide.config)
      opaqueSide "header.payload.signature" () (some "https://idp")
      (.object (sampleClaims [.string "mcp"])) (samplePayload [.string "mcp"]) ∧
    (validateJwt (signedToken (.object (sampleClaims [.string "mcp"])))
      (honestNetwork (samplePayload [.string "mcp"])) "header.payload.signature"
      signedSide ()).1 = .valid ∧
    (validateOpaque (honestNetwork (samplePayload [.string "mcp"]))
      (oauthState opaqueSide.config) "header.payload.signature" opaqueSide ()).1 = .invalid :=
  ⟨sampleClaims_signed _, sampleClaims_introspected _, rfl, rfl⟩

end RustMcpCore
