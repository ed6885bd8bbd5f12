import RustMcpCore.Config.Upstream
import RustMcpCore.Http.Client

/-! # Settings, retries and headers of outbound calls -/
namespace RustMcpCore.Outbound
open Library

section Settings
variable (upstream : UpstreamConfig) (outboundHttp : Option OutboundHttpConfig)

def resolveTimeoutMs (requestTimeoutMs : Option UInt64) : Option UInt64 :=
  (requestTimeoutMs.or upstream.timeoutMs).or (outboundHttp.bind (·.timeoutMs))

def resolveMaxResponseBytes (requestMaxResponseBytes : Option UInt64) : Option UInt64 :=
  (requestMaxResponseBytes.or upstream.maxResponseBytes).or (outboundHttp.bind (·.maxResponseBytes))

def resolveRetryConfig (requestRetry : Option OutboundRetryConfig) : Option OutboundRetryConfig :=
  (requestRetry.or upstream.retry).or (outboundHttp.bind (·.retry))

end Settings

def resolveUpstreamUrl (baseUrl url : String) : Except McpError String :=
  if (Text.stripPrefix url "/").isSome then .ok (Text.trimEndMatches baseUrl '/' ++ url)
  else if (Text.stripPrefix url "http://").isSome ∨ (Text.stripPrefix url "https://").isSome then
    .ok url
  else
    .error (.invalidRequest "plugin upstream request url must be absolute or begin with '/'" none)

/-! ## Retries -/

def methodIsRetryable (method : String) : Bool :=
  Text.toAsciiUppercase (Text.trim method) ∈ ["GET", "HEAD", "OPTIONS", "DELETE"]

theorem methodIsRetryable_iff {method : String} : methodIsRetryable method = true ↔
    Text.toAsciiUppercase (Text.trim method) ∈ ["GET", "HEAD", "OPTIONS", "DELETE"] :=
  decide_eq_true_iff

structure RetryExecutionParams (E : Type) where
  method : String
  retry : Option OutboundRetryConfig
  cancellation : Option CancellationToken
  cancelledError : E

section Retry
variable {W T E : Type} (outside : Outside W) (params : RetryExecutionParams E)
  (operation : Traffic W → Except E T × Traffic W)
  (shouldRetry : Except E T → OutboundRetryConfig → Bool)

/-- The check before an attempt. -/
def cancelledBefore (traffic : Traffic W) : Bool × Traffic W :=
  match params.cancellation with
  | some token => traffic.step (outside.isCancelled token)
  | none => (false, traffic)

/-- The delay after an attempt, and whether it ended in a cancellation. -/
def delayed (delayMs : UInt64) (traffic : Traffic W) : Bool × Traffic W :=
  match params.cancellation with
  | some token => traffic.step (outside.sleepUnlessCancelled token delayMs)
  | none => traffic.step fun world => (false, outside.sleep delayMs world)

/-- One round of the loop, with the rounds after it if there are attempts left. -/
def retryRound (retry : OutboundRetryConfig)
    (again : Option (Traffic W → Except E T × Traffic W)) (traffic : Traffic W) :
    Except E T × Traffic W :=
  match cancelledBefore outside params traffic with
  | (true, traffic) => (.error params.cancelledError, traffic)
  | (false, traffic) =>
    match operation traffic, again with
    | (result, traffic), none => (result, traffic)
    | (result, traffic), some again =>
      if shouldRetry result retry then
        match delayed outside params retry.delayMs traffic with
        | (true, traffic) => (.error params.cancelledError, traffic)
        | (false, traffic) => again traffic
      else (result, traffic)

/-- The loop, with the number of attempts that are left after the next one. -/
def retryLoop (retry : OutboundRetryConfig) : ℕ → Traffic W → Except E T × Traffic W
  | 0 => retryRound outside params operation shouldRetry retry none
  | left + 1 => retryRound outside params operation shouldRetry retry (some (retryLoop retry left))

def executeWithRetry (traffic : Traffic W) : Except E T × Traffic W :=
  match params.retry with
  | none => operation traffic
  | some retry =>
    if retry.maxAttempts ≤ 1 ∨ !methodIsRetryable params.method then operation traffic
    else retryLoop outside params operation shouldRetry retry (retry.maxAttempts.toNat - 1) traffic

end Retry

/-! ## Headers -/

structure PluginRequestAuth where
  includeUpstreamAuth : Bool
  oauth2Bearer : Option String
  explicitAuthorization : Option String

def PluginRequestAuth.inherit (oauth2Bearer : Option String) : PluginRequestAuth :=
  ⟨true, oauth2Bearer, none⟩

def PluginRequestAuth.none : PluginRequestAuth := ⟨false, .none, .none⟩

def PluginRequestAuth.explicit (authorization : String) : PluginRequestAuth :=
  ⟨false, .none, some authorization⟩

def insertString (headers : Map) (key value : String) : Map :=
  Map.insert headers key (.string value)

def insertEach (headers : Map) (layer : HashMap String String) : Map :=
  layer.entries.foldl (fun headers entry => insertString headers entry.1 entry.2) headers

def insertUserAgent (headers : Map) : Option String → Map
  | some userAgent => insertString headers "User-Agent" userAgent
  | none => headers

/-- The standard encoding of `base64` is a parameter. -/
def insertUpstreamAuth (base64 : String → String) (headers : Map) : Option UpstreamAuth → Map
  | some (.bearer token) => insertString headers "Authorization" s!"Bearer {token}"
  | some (.basic username password) =>
    let encoded := base64 s!"{username}:{password}"
    insertString headers "Authorization" s!"Basic {encoded}"
  | some .none | some (.oauth2 _) | none => headers

def buildBaseHeaderMap (base64 : String → String) (outboundHttp : Option OutboundHttpConfig)
    (upstream : UpstreamConfig) (auth : PluginRequestAuth) : Map :=
  let headers := match outboundHttp with
    | some outboundHttp => insertEach (insertUserAgent [] outboundHttp.userAgent) outboundHttp.headers
    | none => []
  let headers := insertEach (insertUserAgent headers upstream.userAgent) upstream.headers
  let headers :=
    if auth.includeUpstreamAuth then insertUpstreamAuth base64 headers upstream.auth else headers
  let headers := match auth.oauth2Bearer with
    | some token => insertString headers "Authorization" s!"Bearer {token}"
    | none => headers
  match auth.explicitAuthorization with
  | some authorization => insertString headers "Authorization" authorization
  | none => headers

def buildTemplatedHeaders (base64 : String → String) (outboundHttp : Option OutboundHttpConfig)
    (upstream : UpstreamConfig) (oauth2Bearer : Option String) (toolHeaders : Option Value) :
    Option Value :=
  let headers := buildBaseHeaderMap base64 outboundHttp upstream (.inherit oauth2Bearer)
  let headers := match toolHeaders with
    | some (.object map) => map.foldl (fun headers member => Map.insert headers member.1 member.2) headers
    | _ => headers
  if headers.isEmpty then none else some (.object headers)

/-- All values of the map are strings, so `expect` does not panic. -/
def buildRequestHeaders (base64 : String → String) (outboundHttp : Option OutboundHttpConfig)
    (upstream : UpstreamConfig) (auth : PluginRequestAuth)
    (requestHeaders : List (String × String)) : List (String × String) :=
  let headers := requestHeaders.foldl
    (fun headers header => insertString headers header.1 header.2)
    (buildBaseHeaderMap base64 outboundHttp upstream auth)
  headers.map fun (key, value) => (key, value.asStr.getD "")

end RustMcpCore.Outbound
