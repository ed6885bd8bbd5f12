import RustMcpCore.Library.HashMap

/-! # Inbound authentication settings -/
namespace RustMcpCore
open Library

inductive IntrospectionClientAuthMethod
  | basic
  | post
  | none
  deriving DecidableEq

structure AuthOauthConfig where
  publicUrl : Option String
  resource : String
  clientMetadataDocumentUrl : Option String
  scopeInChallenges : Bool

structure AuthBearerProviderConfig where
  name : String
  token : String

structure AuthJwksProviderConfig where
  name : String
  issuer : Option String
  discoveryUrl : Option String
  jwksUrl : Option String
  audiences : List String
  requiredScopes : List String
  requiredClaims : HashMap String String
  algorithms : List String
  clockSkewSec : Option UInt64

structure AuthIntrospectionProviderConfig where
  name : String
  issuer : Option String
  allowMissingIss : Bool
  introspectionUrl : String
  clientId : Option String
  clientSecret : Option String
  authMethod : IntrospectionClientAuthMethod
  audiences : List String
  requiredScopes : List String
  requiredClaims : HashMap String String

structure AuthPluginProviderConfig where
  name : String
  plugin : String
  allowMissingIss : Bool
  requiredScopes : List String

inductive AuthProviderConfig
  | bearer (config : AuthBearerProviderConfig)
  | jwks (config : AuthJwksProviderConfig)
  | introspection (config : AuthIntrospectionProviderConfig)
  | plugin (config : AuthPluginProviderConfig)

namespace AuthProviderConfig

def name : AuthProviderConfig → String
  | .bearer config => config.name
  | .jwks config => config.name
  | .introspection config => config.name
  | .plugin config => config.name

def allowMissingIss : AuthProviderConfig → Bool
  | .bearer _ | .jwks _ => false
  | .introspection config => config.allowMissingIss
  | .plugin config => config.allowMissingIss

def oauthCapable : AuthProviderConfig → Bool
  | .jwks _ | .introspection _ => true
  | .bearer _ | .plugin _ => false

def issuer : AuthProviderConfig → Option String
  | .jwks config => config.issuer
  | .introspection config => config.issuer
  | .bearer _ | .plugin _ => none

def discoveryUrl : AuthProviderConfig → Option String
  | .jwks config => config.discoveryUrl
  | .bearer _ | .introspection _ | .plugin _ => none

def jwksUrl : AuthProviderConfig → Option String
  | .jwks config => config.jwksUrl
  | .bearer _ | .introspection _ | .plugin _ => none

def audiences : AuthProviderConfig → List String
  | .jwks config => config.audiences
  | .introspection config => config.audiences
  | .bearer _ | .plugin _ => []

def requiredScopes : AuthProviderConfig → List String
  | .jwks config => config.requiredScopes
  | .introspection config => config.requiredScopes
  | .plugin config => config.requiredScopes
  | .bearer _ => []

def requiredClaims : AuthProviderConfig → HashMap String String
  | .jwks config => config.requiredClaims
  | .introspection config => config.requiredClaims
  | .bearer _ | .plugin _ => ∅

def algorithms : AuthProviderConfig → List String
  | .jwks config => config.algorithms
  | .bearer _ | .introspection _ | .plugin _ => []

def clockSkewSec : AuthProviderConfig → Option UInt64
  | .jwks config => config.clockSkewSec
  | .bearer _ | .introspection _ | .plugin _ => none

def introspectionUrl : AuthProviderConfig → Option String
  | .introspection config => some config.introspectionUrl
  | .bearer _ | .jwks _ | .plugin _ => none

def introspectionClientId : AuthProviderConfig → Option String
  | .introspection config => config.clientId
  | .bearer _ | .jwks _ | .plugin _ => none

def introspectionClientSecret : AuthProviderConfig → Option String
  | .introspection config => config.clientSecret
  | .bearer _ | .jwks _ | .plugin _ => none

def introspectionClientAuthMethod : AuthProviderConfig → IntrospectionClientAuthMethod
  | .introspection config => config.authMethod
  | .bearer _ | .jwks _ | .plugin _ => .basic

def pluginName : AuthProviderConfig → Option String
  | .plugin config => some config.plugin
  | .bearer _ | .jwks _ | .introspection _ => none

def bearerToken : AuthProviderConfig → Option String
  | .bearer config => some config.token
  | .jwks _ | .introspection _ | .plugin _ => none

def isBearer : AuthProviderConfig → Bool
  | .bearer _ => true
  | _ => false

def isJwks : AuthProviderConfig → Bool
  | .jwks _ => true
  | _ => false

end AuthProviderConfig

structure AuthConfig where
  enabled : Option Bool
  providers : List AuthProviderConfig
  oauth : Option AuthOauthConfig

namespace AuthConfig

def isEnabled (auth : AuthConfig) : Bool := auth.enabled ≠ some false

def isActive (auth : AuthConfig) : Bool := auth.isEnabled && !auth.providers.isEmpty

def oauthResource (auth : AuthConfig) : Option String := auth.oauth.map (·.resource)

def scopeChallengesEnabled (auth : AuthConfig) : Bool :=
  (auth.oauth.map (·.scopeInChallenges)).getD true

def oauthClientMetadataDocumentUrl (auth : AuthConfig) : Option String :=
  auth.oauth.bind (·.clientMetadataDocumentUrl)

end AuthConfig
end RustMcpCore
