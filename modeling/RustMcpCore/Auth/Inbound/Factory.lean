import RustMcpCore.Auth.Inbound.Authorization
import RustMcpCore.Config.Root
import RustMcpCore.Errors
import RustMcpCore.Utils

/-! # The state built from a configuration

The validation walks the provider list once and stops at the first offence. What
it has seen so far is explicit, so that each rejected list fails at the provider
that the message names.
-/
namespace RustMcpCore
open Library

def OAUTH_METADATA_PATH : String := "/.well-known/oauth-protected-resource"

def oauthResourceMetadataEndpointPath (endpointPath : String) : String :=
  if endpointPath = "/" then OAUTH_METADATA_PATH else OAUTH_METADATA_PATH ++ endpointPath

/-- What the loop of `validate_auth_settings` carries from provider to provider. -/
structure AuthSettingsSeen where
  seenNames : List String
  seenIssuers : HashMap String String
  allowMissingIssCount : ℕ
  bearerProviderCount : ℕ

def AuthSettingsSeen.start : AuthSettingsSeen := ⟨[], ∅, 0, 0⟩

def validateAuthProvider (seen : AuthSettingsSeen) (provider : AuthProviderConfig) :
    Except McpError AuthSettingsSeen :=
  let name := provider.name
  if name ∈ seen.seenNames then
    .error (.invalidRequest s!"duplicate auth provider name: {name}" none)
  else
    let bearers := seen.bearerProviderCount + if provider.isBearer then 1 else 0
    let missing := seen.allowMissingIssCount + if provider.allowMissingIss then 1 else 0
    if provider.allowMissingIss && 1 < missing then
      .error (.invalidRequest "at most one auth provider may set allow_missing_iss=true" none)
    else if provider.isJwks && provider.issuer.isNone && provider.discoveryUrl.isNone then
      .error (.invalidRequest
        s!"auth jwks provider '{name}' must set issuer or discovery_url" none)
    else
      match provider.issuer with
      | none => .ok ⟨name :: seen.seenNames, seen.seenIssuers, missing, bearers⟩
      | some issuer =>
        let normalizedIssuer := Text.toAsciiLowercase (Text.trim issuer)
        if normalizedIssuer = "" then
          .error (.invalidRequest s!"auth provider '{name}' has an empty issuer" none)
        else
          match seen.seenIssuers.lookup normalizedIssuer with
          | some existing =>
            .error (.invalidRequest
              s!"duplicate auth issuer ownership between providers '{existing}' and '{name}'" none)
          | none =>
            .ok ⟨name :: seen.seenNames, seen.seenIssuers.insert normalizedIssuer name, missing,
              bearers⟩

def validateAuthSettings (config : McpConfig) : Except McpError Unit :=
  match config.server.auth with
  | none => .ok ()
  | some auth =>
    if !auth.isEnabled then .ok ()
    else if auth.providers.isEmpty then
      .error (.invalidRequest "server.auth.providers must be non-empty when auth is enabled" none)
    else
      match auth.providers.foldlM validateAuthProvider .start with
      | .error e => .error e
      | .ok seen =>
        if 1 < seen.bearerProviderCount then
          .error (.invalidRequest "at most one auth bearer provider is allowed" none)
        else if auth.providers.any (·.oauthCapable) && auth.oauthResource.isNone then
          .error (.invalidRequest
            "server.auth.oauth.resource is required when oauth-capable providers are configured"
            none)
        else .ok ()

def authAllowlist (config : McpConfig) : List String :=
  (config.plugins.filter fun plugin => plugin.pluginType = .auth).map (·.name)

/-- The registry is the list of its names and types. An allowlist is a set in the
source; here its names are checked in the order of the configuration. -/
def validateAuthPlugins (config : McpConfig) (registry : Option (List (String × PluginType))) :
    Except McpError Unit :=
  let allowlist := authAllowlist config
  if !allowlist.isEmpty && registry.isNone then
    .error (.invalidRequest "auth plugins configured but no registry provided" none)
  else
    match registry.bind fun names =>
      allowlist.find? fun name => !names.contains (name, PluginType.auth) with
    | some name => .error (.invalidRequest s!"auth plugin not registered: {name}" none)
    | none =>
      let providers := (config.server.auth.map (·.providers)).getD []
      match (providers.filterMap (·.pluginName)).find? fun name => !allowlist.contains name with
      | some name =>
        .error (.invalidRequest s!"auth provider plugin not allowlisted: {name}" none)
      | none => .ok ()

def buildAuthState (config : McpConfig) (plugins : Bool) : AuthState :=
  let auth := config.server.auth
  let endpointPath := normalizeEndpointPath config.server.endpointPath
  let providers := (auth.map (·.providers)).getD []
  let hasBearer := providers.any (·.isBearer)
  let hasOauth := providers.any fun provider => !provider.isBearer
  let oauth := auth.bind (·.oauth)
  let publicBase := (oauth.bind (·.publicUrl)).getD
    s!"http://{config.server.host}:{config.server.port.toNat}"
  let timeoutMs := config.outboundHttp.bind (·.timeoutMs)
  let maxResponseBytes := config.outboundHttp.bind (·.maxResponseBytes)
  { activation :=
      if !auth.any AuthConfig.isEnabled then .none
      else if hasBearer && hasOauth then .bearerAndOauth
      else if hasBearer then .bearerOnly
      else .oauthOnly
    endpointPath
    bearerToken := providers.findSome? (·.bearerToken)
    resource := oauth.map (·.resource)
    resourceMetadataUrl := oauth.map fun _ =>
      publicBase ++ oauthResourceMetadataEndpointPath endpointPath
    providers := providers.map fun provider => ⟨provider, timeoutMs, maxResponseBytes⟩
    plugins
    authPluginConfigs := (config.plugins.filter fun plugin => plugin.pluginType = .auth).foldl
      (fun configs plugin => (plugin.config.map fun value =>
        configs.insert plugin.name value).getD configs) ∅
    scopeChallengesEnabled := auth.all AuthConfig.scopeChallengesEnabled
    outboundTimeoutMs := timeoutMs
    outboundMaxResponseBytes := maxResponseBytes }

def buildAuthStateWithPlugins (config : McpConfig)
    (registry : Option (List (String × PluginType))) : Except McpError AuthState :=
  match validateAuthSettings config with
  | .error e => .error e
  | .ok () =>
    match validateAuthPlugins config registry with
    | .error e => .error e
    | .ok () => .ok (buildAuthState config registry.isSome)

end RustMcpCore
