import RustMcpCore.Auth.Inbound.Claims
import RustMcpCore.Library.OrderedChoice

/-! # The decision on a request

Answers that come from other machines or from plugins are functions of a world
that every such call may change; so the same question asked twice may be
answered differently, and other requests may come in between.
-/
namespace RustMcpCore
open Library

inductive AuthDecision
  | allow
  | unauthorized (scope : Option String)
  | forbidden (scope : Option String)
  deriving DecidableEq

inductive ValidationOutcome
  | valid
  | invalid
  | insufficientScope (scopes : List String)
  deriving DecidableEq

inductive AuthActivation
  | none
  | bearerOnly
  | oauthOnly
  | bearerAndOauth
  deriving DecidableEq

inductive AuthPluginDecision
  | accept
  | reject
  | abstain
  deriving DecidableEq

/-- A provider with the limits of its own outbound requests. -/
structure AuthProvider where
  config : AuthProviderConfig
  outboundTimeoutMs : Option UInt64
  outboundMaxResponseBytes : Option UInt64

structure DiscoveryDocument where
  issuer : Option String
  jwksUri : Option String

structure IntrospectionExchangeParams where
  token : String
  url : String
  clientAuthMethod : IntrospectionClientAuthMethod
  clientId : Option String
  clientSecret : Option String
  timeoutMs : Option UInt64
  maxResponseBytes : Option UInt64

structure AuthPluginValidateParams where
  token : String
  claims : Value
  headers : HeaderMap
  config : Value

/-- The answers of the world `W`. A failed exchange gives nothing. -/
structure Network (W Jwk : Type) where
  discovery : AuthProvider → W → Option DiscoveryDocument × W
  jwks : AuthProvider → W → Option (JwkSet Jwk) × W
  introspect : IntrospectionExchangeParams → W → Option Value × W
  /-- Whether an auth plugin of this name is registered now. -/
  getPlugin : String → W → Bool × W
  validate : String → AuthPluginValidateParams → W → AuthPluginDecision × W

structure AuthState where
  activation : AuthActivation
  endpointPath : String
  bearerToken : Option String
  resource : Option String
  resourceMetadataUrl : Option String
  providers : List AuthProvider
  /-- Whether there is a plugin registry. -/
  plugins : Bool
  authPluginConfigs : HashMap String Value
  scopeChallengesEnabled : Bool
  outboundTimeoutMs : Option UInt64
  outboundMaxResponseBytes : Option UInt64

structure TokenProfile where
  token : String
  isJwt : Bool
  claims : Option Value
  tokenIss : Option String

variable {Alg Jwk Key W : Type} (lib : JwtLibrary Alg Jwk Key) (net : Network W Jwk)

def AuthProvider.issuer (provider : AuthProvider) (w : W) : Option String × W :=
  match provider.config.issuer with
  | some issuer => (some issuer, w)
  | none =>
    match net.discovery provider w with
    | (none, w) => (none, w)
    | (some discovery, w) => (discovery.issuer, w)

def tokenProfile (token : String) : TokenProfile :=
  let isJwt := tokenLooksLikeJwt token
  let claims := if isJwt then decodeJwtClaims lib token else none
  { token, isJwt, claims, tokenIss := (claims.bind (·.get "iss")).bind Value.asStr }

/-! ## Validation of a token -/

/-- The key that the header of a token names. -/
def signingKey (jwks : JwkSet Jwk) (token : String) : Option (Header Alg × Key) :=
  (lib.decodeHeader token).bind fun header =>
    ((selectJwk lib jwks header.kid).bind lib.fromJwk).map fun key => (header, key)

/-- The settings for a provider whose issuer is known. -/
def jwtValidation (config : AuthProviderConfig) (issuer : Option String) (header : Header Alg) :
    Validation Alg :=
  let validation : Validation Alg := .new header.alg
  let algs := parseAlgorithms lib config
  { validation with
    algorithms := if algs.isEmpty then validation.algorithms else algs
    iss := issuer.map fun issuer => [issuer]
    aud := if config.audiences.isEmpty then none else some config.audiences
    leeway := config.clockSkewSec.getD validation.leeway }

/-- The checks both validations end with. -/
def checkClaims (config : AuthProviderConfig) (claims : Value) : ValidationOutcome :=
  if !claimsMatchRequired claims config.requiredClaims then .invalid
  else if !scopesMatchRequired claims config.requiredScopes then
    .insufficientScope config.requiredScopes
  else .valid

def validateJwt (token : String) (provider : AuthProvider) (w : W) : ValidationOutcome × W :=
  match net.jwks provider w with
  | (none, w) => (.invalid, w)
  | (some jwks, w) =>
    match signingKey lib jwks token with
    | none => (.invalid, w)
    | some (header, key) =>
      let (issuer, w) := provider.issuer net w
      match lib.decode token key (jwtValidation lib provider.config issuer header) with
      | none => (.invalid, w)
      | some claims => (checkClaims provider.config claims, w)

def introspectionParams (state : AuthState) (token url : String) (config : AuthProviderConfig) :
    IntrospectionExchangeParams where
  token := token
  url := url
  clientAuthMethod := config.introspectionClientAuthMethod
  clientId := config.introspectionClientId
  clientSecret := config.introspectionClientSecret
  timeoutMs := state.outboundTimeoutMs
  maxResponseBytes := state.outboundMaxResponseBytes

def validateOpaque (state : AuthState) (token : String) (provider : AuthProvider) (w : W) :
    ValidationOutcome × W :=
  match provider.config.introspectionUrl with
  | none => (.invalid, w)
  | some url =>
    match net.introspect (introspectionParams state token url provider.config) w with
    | (none, w) => (.invalid, w)
    | (some payload, w) =>
      if !((payload.get "active").bind Value.asBool).getD false then (.invalid, w)
      else
        let (issuer, w) := provider.issuer net w
        if issuer.isSome && (payload.get "iss").bind Value.asStr ≠ issuer then (.invalid, w)
        else if !audiencesMatchRequired payload provider.config.audiences then (.invalid, w)
        else (checkClaims provider.config payload, w)

/-! ## Scopes of a refusal -/

namespace AuthState
variable (state : AuthState)

def scopeChallenge (scopes : List String) : Option String :=
  if state.scopeChallengesEnabled && !scopes.isEmpty then some (" ".intercalate scopes) else none

def defaultScopeChallenge : Option String :=
  (state.providers.find? fun provider => !provider.config.requiredScopes.isEmpty).bind
    fun provider => state.scopeChallenge provider.config.requiredScopes

def defaultUnauthorized : AuthDecision := .unauthorized state.defaultScopeChallenge

def scopeForProvider (provider : AuthProvider) : Option String :=
  state.scopeChallenge provider.config.requiredScopes

def decisionFromValidation (outcome : ValidationOutcome) (provider : AuthProvider) :
    AuthDecision :=
  match outcome with
  | .valid => .allow
  | .invalid => .unauthorized (state.scopeForProvider provider)
  | .insufficientScope scopes => .forbidden (state.scopeChallenge scopes)

/-! ## Providers -/

def bearerDecision (provider : AuthProvider) (token : String) : Option AuthDecision :=
  if provider.config.bearerToken = some token then some .allow else none

def jwksDecision (provider : AuthProvider) (profile : TokenProfile) (w : W) :
    Option AuthDecision × W :=
  if !profile.isJwt then (none, w)
  else
    match profile.tokenIss with
    | none => (none, w)
    | some iss =>
      let (issuer, w) := provider.issuer net w
      if issuer ≠ some iss then (none, w)
      else
        let (outcome, w) := validateJwt lib net profile.token provider w
        (some (state.decisionFromValidation outcome provider), w)

/-- The issuer question of an introspection provider: whether it looks at the token. -/
def introspectionApplies (provider : AuthProvider) (profile : TokenProfile) (w : W) : Bool × W :=
  if !profile.isJwt then (true, w)
  else
    match profile.tokenIss with
    | some iss =>
      let (issuer, w) := provider.issuer net w
      (issuer = some iss, w)
    | none => (provider.config.allowMissingIss, w)

def introspectionDecision (provider : AuthProvider) (profile : TokenProfile) (w : W) :
    Option AuthDecision × W :=
  match introspectionApplies net provider profile w with
  | (false, w) => (none, w)
  | (true, w) =>
    let (outcome, w) := validateOpaque net state profile.token provider w
    (some (state.decisionFromValidation outcome provider), w)

def runPlugin (provider : AuthProvider) (profile : TokenProfile) (headers : HeaderMap) (w : W) :
    AuthPluginDecision × W :=
  match provider.config.pluginName with
  | none => (.abstain, w)
  | some pluginName =>
    if !state.plugins then (.reject, w)
    else
      match net.getPlugin pluginName w with
      | (false, w) => (.reject, w)
      | (true, w) =>
        net.validate pluginName
          { token := profile.token
            claims := profile.claims.getD .null
            headers
            config := (state.authPluginConfigs.lookup pluginName).getD .null } w

def pluginDecision (provider : AuthProvider) (profile : TokenProfile) (headers : HeaderMap)
    (w : W) : Option AuthDecision × W :=
  match state.runPlugin net provider profile headers w with
  | (.accept, w) => (some .allow, w)
  | (.reject, w) => (some (.unauthorized (state.scopeForProvider provider)), w)
  | (.abstain, w) => (none, w)

def evaluateProvider (profile : TokenProfile) (headers : HeaderMap) (provider : AuthProvider)
    (w : W) : Option AuthDecision × W :=
  match provider.config with
  | .bearer _ => (bearerDecision provider profile.token, w)
  | .jwks _ => state.jwksDecision lib net provider profile w
  | .introspection _ => state.introspectionDecision net provider profile w
  | .plugin _ => state.pluginDecision net provider profile headers w

/-! ## Requests -/

def checkBearer (headers : HeaderMap) : Bool :=
  match state.bearerToken, extractBearerToken headers with
  | some expected, some actual => expected = actual
  | _, _ => false

/-- A decision, the providers that were consulted for it, in order, and the world. -/
abbrev Authorized (W : Type) := AuthDecision × List AuthProvider × W

def checkOauth (headers : HeaderMap) (w : W) : Authorized W :=
  match extractBearerToken headers with
  | none => (state.defaultUnauthorized, [], w)
  | some token =>
    let profile := tokenProfile lib token
    let (decision, consulted, w) :=
      scan (state.evaluateProvider lib net profile headers) state.providers w
    (decision.getD state.defaultUnauthorized, consulted, w)

/-- `check_bearer` consults the provider that the token was taken from. -/
def bearerProvider : List AuthProvider :=
  (state.providers.find? fun provider => provider.config.bearerToken.isSome).toList

def authorize (headers : HeaderMap) (w : W) : Authorized W :=
  match state.activation with
  | .none => (.allow, [], w)
  | .bearerOnly =>
    if state.checkBearer headers then (.allow, state.bearerProvider, w)
    else (.unauthorized none, state.bearerProvider, w)
  | .oauthOnly => state.checkOauth lib net headers w
  | .bearerAndOauth =>
    if state.checkBearer headers then (.allow, state.bearerProvider, w)
    else
      let (decision, consulted, w) := state.checkOauth lib net headers w
      (decision, state.bearerProvider ++ consulted, w)

end AuthState
end RustMcpCore
