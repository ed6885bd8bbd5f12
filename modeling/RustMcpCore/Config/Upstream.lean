import RustMcpCore.Library.HashMap
import RustMcpCore.Library.Text

/-! # Upstreams and outbound settings -/
namespace RustMcpCore
open Library

inductive SecretValueSource
  | inline
  | env
  | path
  deriving DecidableEq

structure SecretValueConfig where
  source : SecretValueSource
  value : String

/-- What `std::env::var` and `fs::read_to_string` give at one moment, with the
text of an error. -/
structure Surroundings where
  envVar : String → Except String String
  readToString : String → Except String String

namespace SecretValueConfig

def resolveSecret (surroundings : Surroundings) (config : SecretValueConfig) :
    Except String String :=
  match config.source with
  | .inline => .ok config.value
  | .env => (surroundings.envVar config.value).mapError fun error =>
      s!"failed to read env var '{config.value}' for secret value: {error}"
  | .path => ((surroundings.readToString config.value).map Text.trimEnd).mapError fun error =>
      s!"failed to read secret file '{config.value}': {error}"

end SecretValueConfig

inductive UpstreamOauth2GrantType
  | clientCredentials
  | refreshToken
  deriving DecidableEq

inductive UpstreamOauth2ClientAuthMethod
  | basic
  | requestBody
  deriving DecidableEq

structure UpstreamOauth2RefreshConfig where
  skewSec : Option UInt64
  retryOn401Once : Option Bool

structure UpstreamOauth2MtlsConfig where
  caCert : Option SecretValueConfig
  clientCert : SecretValueConfig
  clientKey : SecretValueConfig

structure UpstreamOauth2AuthConfig where
  grant : UpstreamOauth2GrantType
  tokenUrl : String
  clientId : String
  clientSecret : SecretValueConfig
  authMethod : Option UpstreamOauth2ClientAuthMethod
  scopes : List String
  audience : Option String
  extraTokenParams : HashMap String String
  refresh : Option UpstreamOauth2RefreshConfig
  refreshToken : Option SecretValueConfig
  mtls : Option UpstreamOauth2MtlsConfig

inductive UpstreamAuth
  | none
  | bearer (token : String)
  | basic (username password : String)
  | oauth2 (auth : UpstreamOauth2AuthConfig)

structure OutboundRetryConfig where
  maxAttempts : UInt32
  delayMs : UInt64
  onNetworkErrors : Bool
  onStatuses : List UInt16

def OutboundRetryConfig.default : OutboundRetryConfig where
  maxAttempts := 3
  delayMs := 200
  onNetworkErrors := true
  onStatuses := [429, 502, 503, 504]

structure UpstreamConfig where
  baseUrl : String
  headers : HashMap String String
  userAgent : Option String
  timeoutMs : Option UInt64
  maxResponseBytes : Option UInt64
  retry : Option OutboundRetryConfig
  auth : Option UpstreamAuth

structure OutboundHttpConfig where
  headers : HashMap String String
  userAgent : Option String
  timeoutMs : Option UInt64
  maxResponseBytes : Option UInt64
  retry : Option OutboundRetryConfig

end RustMcpCore
