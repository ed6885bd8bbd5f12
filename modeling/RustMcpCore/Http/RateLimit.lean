import RustMcpCore.Auth.Inbound.Token
import RustMcpCore.Config.Root
import RustMcpCore.Errors
import RustMcpCore.Library.HashMap

/-! # Rate limits

A bucket is found by the key of a request, which is its peer address or what it says
of itself in a header. Session creation has buckets of its own; the buckets of the
inbound limit belong to the governor.
-/
namespace RustMcpCore
open Library

/-! ## Requests -/

/-- An IPv4 address by its octets, an IPv6 address by its segments. -/
inductive IpAddr
  | v4 (octets : Fin 4 → UInt8)
  | v6 (segments : Fin 8 → UInt16)

structure SocketAddr where
  ip : IpAddr
  port : UInt16

/-- The request extensions that are looked at here. -/
structure Extensions where
  socketAddr : Option SocketAddr
  /-- `ConnectInfo<SocketAddr>`. -/
  connectInfo : Option SocketAddr

structure HttpRequest where
  method : String
  headers : HeaderMap
  extensions : Extensions

namespace IpAddr

def octetsToString (octets : List UInt8) : String :=
  ".".intercalate (octets.map fun octet => toString octet.toNat)

def segmentsToString (segments : List UInt16) : String :=
  ":".intercalate (segments.map fun segment => .ofList (Nat.toDigits 16 segment.toNat))

/-- Start and length of the first longest run of zeros, from a position on. -/
def longestZeros : ℕ → List UInt16 → ℕ × ℕ
  | _, [] => (0, 0)
  | start, segment :: segments =>
    let run := ((segment :: segments).takeWhile (· = 0)).length
    let (restStart, rest) := longestZeros (start + 1) segments
    if rest ≤ run then (start, run) else (restStart, rest)

/-- `Display`, which shortens the longest run of at least two zeros. -/
def toString : IpAddr → String
  | v4 octets => octetsToString (List.ofFn octets)
  | v6 segments =>
    let all := List.ofFn segments
    if all.take 6 = [0, 0, 0, 0, 0, 0xFFFF] then
      let high := (segments 6).toNat
      let low := (segments 7).toNat
      "::ffff:" ++ octetsToString
        ([high / 256, high % 256, low / 256, low % 256].map UInt8.ofNat)
    else
      let (start, run) := longestZeros 0 all
      if 1 < run then
        segmentsToString (all.take start) ++ "::" ++ segmentsToString (all.drop (start + run))
      else segmentsToString all

end IpAddr

/-! ## Keys -/

def requestPeerKey (request : HttpRequest) : String :=
  match request.extensions.socketAddr with
  | none => "unknown-peer"
  | some socket => socket.ip.toString

def extractRateLimitKey (request : HttpRequest) : StreamableHttpRateLimitKeySource → String
  | .peerAddr => requestPeerKey request
  | .xForwardedFor =>
    (((((request.headers.lookup "x-forwarded-for").bind headerToStr).bind
      fun value => (Text.split value ',').head?).map Text.trim).filter (· ≠ "")).getD
        (requestPeerKey request)

/-! ## Session creation -/

/-- Nanoseconds of the monotonic clock. -/
abbrev Instant := ℕ

def NANOS_PER_SEC : ℕ := 1000000000

structure RateBucketSpec where
  capacity : UInt64
  refillPerSec : UInt64

structure TokenBucket where
  tokens : UInt64
  lastRefill : Instant
  remNanos : ℕ

namespace TokenBucket

def new (spec : RateBucketSpec) (now : Instant) : TokenBucket := ⟨spec.capacity, now, 0⟩

/-- What has run in since the last refill, in nanoseconds of one token, as a `u128`. -/
def refillNanos (bucket : TokenBucket) (spec : RateBucketSpec) (now : Instant) : ℕ :=
  min (min ((now - bucket.lastRefill) * spec.refillPerSec.toNat) (2 ^ 128 - 1) + bucket.remNanos)
    (2 ^ 128 - 1)

/-- The tokens there are by now, as a `u64`. -/
def refilled (bucket : TokenBucket) (spec : RateBucketSpec) (now : Instant) : UInt64 :=
  let produced := min (bucket.refillNanos spec now / NANOS_PER_SEC) (2 ^ 64 - 1)
  .ofNat (min (min (bucket.tokens.toNat + produced) (2 ^ 64 - 1)) spec.capacity.toNat)

def take (bucket : TokenBucket) (spec : RateBucketSpec) (now : Instant) : Bool × TokenBucket :=
  let tokens := bucket.refilled spec now
  let remNanos := bucket.refillNanos spec now % NANOS_PER_SEC
  if 1 ≤ tokens then (true, ⟨tokens - 1, now, remNanos⟩) else (false, ⟨tokens, now, remNanos⟩)

end TokenBucket

/-- The part of the limiter that never changes. -/
structure SessionCreationRateLimiter where
  globalSpec : Option RateBucketSpec
  perIpSpec : Option RateBucketSpec
  perIpKeySource : StreamableHttpRateLimitKeySource

structure SessionCreationBuckets where
  global : TokenBucket
  perIp : HashMap String TokenBucket

/-- The readings of the clock of one attempt. -/
structure Readings where
  global : Instant
  created : Instant
  perIp : Instant

namespace SessionCreationRateLimiter
variable (limiter : SessionCreationRateLimiter)

def extractKey (request : HttpRequest) : Option String :=
  limiter.perIpSpec.map fun _ => extractRateLimitKey request limiter.perIpKeySource

def allowPerIp (buckets : SessionCreationBuckets) (key : String) (spec : RateBucketSpec)
    (now : Readings) : Bool × SessionCreationBuckets :=
  let bucket := (buckets.perIp.lookup key).getD (.new spec now.created)
  let (taken, bucket) := bucket.take spec now.perIp
  (taken, { buckets with perIp := buckets.perIp.insert key bucket })

def allowWithKey (buckets : SessionCreationBuckets) (perIpKey : Option String) (now : Readings) :
    Bool × SessionCreationBuckets :=
  let (taken, buckets) : Bool × SessionCreationBuckets :=
    match limiter.globalSpec with
    | none => (true, buckets)
    | some spec =>
      let (taken, global) := buckets.global.take spec now.global
      (taken, { buckets with global })
  if !taken then (false, buckets)
  else
    match limiter.perIpSpec with
    | none => (true, buckets)
    | some spec => allowPerIp buckets (perIpKey.getD "unknown-peer") spec now

end SessionCreationRateLimiter

def toSpec (config : StreamableHttpRateBucketConfig) : RateBucketSpec :=
  ⟨config.capacity, config.refillPerSec⟩

def toSpecPerIp (config : StreamableHttpPerIpRateBucketConfig) : RateBucketSpec :=
  ⟨config.capacity, config.refillPerSec⟩

def buildSessionCreationRateLimiter (hardening : StreamableHttpHardeningConfig) :
    Option SessionCreationRateLimiter :=
  ((hardening.session.bind (·.creationRate)).filter
    fun rate => rate.isActive && rate.hasAnyBucket).map fun rate =>
      { globalSpec := rate.global.map toSpec
        perIpSpec := rate.perIp.map toSpecPerIp
        perIpKeySource := (rate.perIp.map (·.keySource)).getD .peerAddr }

def isSessionCreationRequest (request : HttpRequest) : Bool :=
  request.method = "POST" && (request.headers.lookup "mcp-session-id").isNone

/-! ## The inbound limit -/

/-- Which bucket of the governor a request is counted in. -/
inductive GovernorKey
  | global
  | perIp (key : String)
  deriving DecidableEq

/-- `GlobalKeyExtractor` and `PerIpRateLimitKeyExtractor`. -/
inductive KeyExtractor
  | global
  | perIp (keySource : StreamableHttpRateLimitKeySource)

def KeyExtractor.extract (extractor : KeyExtractor) (request : HttpRequest) : GovernorKey :=
  match extractor with
  | .global => .global
  | .perIp keySource => .perIp (extractRateLimitKey request keySource)

structure GovernorConfig where
  keyExtractor : KeyExtractor
  /-- Nanoseconds. -/
  period : ℕ
  burstSize : UInt32

/-- `GovernorConfigBuilder::finish`. -/
def GovernorConfig.finish (config : GovernorConfig) : Option GovernorConfig :=
  if config.period ≠ 0 ∧ config.burstSize ≠ 0 then some config else none

def rateBucketPeriod (refillPerSec : UInt64) (configPath : String) : Except McpError ℕ :=
  if refillPerSec = 0 then
    .error (.invalidRequest s!"{configPath}.refill_per_sec must be greater than 0" none)
  else
    let nanos := max (NANOS_PER_SEC / refillPerSec.toNat) 1
    .ok (if nanos < 2 ^ 64 then nanos else 1)

def rateBucketBurstSize (capacity : UInt64) (configPath : String) : Except McpError UInt32 :=
  if capacity = 0 then
    .error (.invalidRequest s!"{configPath}.capacity must be greater than 0" none)
  else if capacity.toNat < 2 ^ 32 then .ok (.ofNat capacity.toNat)
  else
    .error (.invalidRequest
      s!"{configPath}.capacity exceeds maximum supported value 4294967295" none)

/-- The settings of a layer of the governor, for either bucket. -/
def governorConfig (keyExtractor : KeyExtractor) (capacity refillPerSec : UInt64)
    (configPath : String) : Except McpError GovernorConfig := do
  let period ← rateBucketPeriod refillPerSec configPath
  let burstSize ← rateBucketBurstSize capacity configPath
  match GovernorConfig.finish ⟨keyExtractor, period, burstSize⟩ with
  | some config => pure config
  | none => .error (.invalidRequest s!"{configPath} must define positive rate values" none)

theorem governorConfig_keyExtractor {keyExtractor : KeyExtractor} {capacity refillPerSec : UInt64}
    {configPath : String} {config : GovernorConfig}
    (h : governorConfig keyExtractor capacity refillPerSec configPath = .ok config) :
    config.keyExtractor = keyExtractor := by
  unfold governorConfig at h
  obtain ⟨period, _, h⟩ := bind_eq_ok h
  obtain ⟨burstSize, _, h⟩ := bind_eq_ok h
  split at h
  · rename_i hfinish
    cases h
    unfold GovernorConfig.finish at hfinish
    split at hfinish
    · cases hfinish
      rfl
    · cases hfinish
  · cases h

def buildGlobalRateLimit (bucket : StreamableHttpRateBucketConfig) :
    Except McpError GovernorConfig :=
  governorConfig .global bucket.capacity bucket.refillPerSec
    "transport.streamable_http.hardening.rate_limit.global"

def buildPerIpRateLimit (bucket : StreamableHttpPerIpRateBucketConfig) :
    Except McpError GovernorConfig :=
  governorConfig (.perIp bucket.keySource) bucket.capacity bucket.refillPerSec
    "transport.streamable_http.hardening.rate_limit.per_ip"

end RustMcpCore
