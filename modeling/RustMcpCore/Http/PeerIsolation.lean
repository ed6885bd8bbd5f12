import RustMcpCore.Http.RateLimit

/-! # Peer addresses that nobody sees

A router that is served without connection information gets requests without the
address of their peer. The key of a request is then the same for all peers, and so is
the bucket it is counted in.
-/
namespace RustMcpCore
open Library

/-- How a router is turned into the service of a listener. -/
inductive MakeService
  | plain
  | withConnectInfo

/-- What the server puts into the extensions of a request from a peer. -/
def MakeService.extensions (make : MakeService) (peer : SocketAddr) : Extensions :=
  match make with
  | .plain => ⟨none, none⟩
  | .withConnectInfo => ⟨none, some peer⟩

/-- What a client sends. -/
structure SentRequest where
  method : String
  headers : HeaderMap

/-- A request as it comes in when the router itself is served, as `run_streamable_http`
does with `axum::serve(listener, app)`. -/
def arrive (peer : SocketAddr) (sent : SentRequest) : HttpRequest where
  method := sent.method
  headers := sent.headers
  extensions := MakeService.plain.extensions peer

/-! ## The inbound limit -/

/-- A request from a peer at a time. -/
structure Arrival where
  peer : SocketAddr
  sent : SentRequest
  now : Instant

def Arrival.request (arrival : Arrival) : HttpRequest := arrive arrival.peer arrival.sent

/-- What a governor of any kind answers to requests, one after the other. -/
def inboundDecisions {G : Type} (check : GovernorKey → Instant → G → Bool × G)
    (config : GovernorConfig) : List Arrival → G → List Bool
  | [], _ => []
  | arrival :: arrivals, g =>
    let (allowed, g) := check (config.keyExtractor.extract arrival.request) arrival.now g
    allowed :: inboundDecisions check config arrivals g

theorem extract_arrival {config : GovernorConfig} (h : config.keyExtractor = .perIp .peerAddr)
    (arrival : Arrival) : config.keyExtractor.extract arrival.request = .perIp "unknown-peer" := by
  rw [h]
  rfl

/-- The answers depend on the times of the requests alone. -/
theorem inboundDecisions_eq {G : Type} {check : GovernorKey → Instant → G → Bool × G}
    {config : GovernorConfig} (h : config.keyExtractor = .perIp .peerAddr)
    {arrivals arrivals' : List Arrival} (hnow : arrivals.map Arrival.now = arrivals'.map Arrival.now)
    (g : G) : inboundDecisions check config arrivals g = inboundDecisions check config arrivals' g := by
  induction arrivals generalizing arrivals' g with
  | nil =>
    rw [List.map_eq_nil_iff.mp hnow.symm]
  | cons arrival arrivals ih =>
    cases arrivals' with
    | nil => cases hnow
    | cons arrival' arrivals' =>
      obtain ⟨hfirst, hrest⟩ := List.cons.inj hnow
      simp only [inboundDecisions, extract_arrival h]
      rw [hfirst, ih hrest]

/-! ## The limit on session creation -/

namespace SessionCreationRateLimiter

/-- What the limiter answers to attempts, one after the other, and the buckets it leaves. -/
def attempts (limiter : SessionCreationRateLimiter) :
    List Arrival → SessionCreationBuckets → List Bool × SessionCreationBuckets
  | [], buckets => ([], buckets)
  | arrival :: arrivals, buckets =>
    let (allowed, buckets) := limiter.allowWithKey buckets (limiter.extractKey arrival.request)
      ⟨arrival.now, arrival.now, arrival.now⟩
    let rest := attempts limiter arrivals buckets
    (allowed :: rest.1, rest.2)

end SessionCreationRateLimiter

/-- A bucket with a number of tokens that has been looked at just now. -/
def TokenBucket.left (n : ℕ) (now : Instant) : TokenBucket := ⟨.ofNat n, now, 0⟩

section Bucket
variable {spec : RateBucketSpec} {n : ℕ} {now : Instant}

theorem TokenBucket.refillNanos_left : (TokenBucket.left n now).refillNanos spec now = 0 := by
  simp [refillNanos, left]

theorem TokenBucket.refilled_left (h : n ≤ spec.capacity.toNat) :
    (TokenBucket.left n now).refilled spec now = .ofNat n := by
  have hsize : n < 2 ^ 64 := Nat.lt_of_le_of_lt h spec.capacity.toNat_lt
  have htokens : (UInt64.ofNat n).toNat = n := UInt64.toNat_ofNat_of_lt' hsize
  unfold refilled
  rw [refillNanos_left]
  simp only [left, htokens, Nat.zero_div, Nat.zero_min, Nat.add_zero]
  congr 1
  omega

theorem TokenBucket.take_left (h : n + 1 ≤ spec.capacity.toNat) :
    (TokenBucket.left (n + 1) now).take spec now = (true, .left n now) := by
  have hsize : n + 1 < 2 ^ 64 := Nat.lt_of_le_of_lt h spec.capacity.toNat_lt
  have hpos : 1 ≤ UInt64.ofNat (n + 1) := by
    rw [UInt64.le_iff_toNat_le, UInt64.toNat_ofNat_of_lt' hsize]
    exact Nat.le_add_left 1 n
  have hpred : UInt64.ofNat (n + 1) - 1 = .ofNat n := by
    rw [UInt64.ofNat_add]
    exact UInt64.add_sub_cancel _ _
  unfold take
  rw [refilled_left h, refillNanos_left]
  simp only [hpos, hpred, if_true]
  rfl

theorem TokenBucket.take_empty :
    (TokenBucket.left 0 now).take spec now = (false, .left 0 now) := by
  unfold take
  rw [refilled_left (Nat.zero_le _), refillNanos_left]
  rfl

end Bucket

namespace SessionCreationRateLimiter
variable {limiter : SessionCreationRateLimiter} {spec : RateBucketSpec}
  {buckets : SessionCreationBuckets}

theorem attempts_append (arrivals arrivals' : List Arrival) (buckets : SessionCreationBuckets) :
    (limiter.attempts (arrivals ++ arrivals') buckets).1 =
      (limiter.attempts arrivals buckets).1 ++
        (limiter.attempts arrivals' (limiter.attempts arrivals buckets).2).1 := by
  induction arrivals generalizing buckets with
  | nil => rfl
  | cons arrival arrivals ih =>
    simp only [List.cons_append, attempts, ih]

/-- Every attempt is counted in the one bucket of the unknown peer. -/
theorem allowWithKey_arrival (hglobal : limiter.globalSpec = none)
    (hspec : limiter.perIpSpec = some spec) (hsource : limiter.perIpKeySource = .peerAddr)
    (arrival : Arrival) (now : Readings) :
    limiter.allowWithKey buckets (limiter.extractKey arrival.request) now =
      allowPerIp buckets "unknown-peer" spec now := by
  unfold allowWithKey extractKey
  rw [hglobal, hspec, hsource]
  rfl

/-- As many attempts of anybody as the bucket holds leave nothing for anybody else. -/
theorem attempts_exhaust (hglobal : limiter.globalSpec = none)
    (hspec : limiter.perIpSpec = some spec) (hsource : limiter.perIpKeySource = .peerAddr)
    (arrival : Arrival) {n : ℕ} (hn : n ≤ spec.capacity.toNat)
    (hbucket : (buckets.perIp.lookup "unknown-peer").getD (.new spec arrival.now) =
      .left n arrival.now) :
    ((limiter.attempts (List.replicate n arrival) buckets).2.perIp.lookup "unknown-peer").getD
      (.new spec arrival.now) = .left 0 arrival.now := by
  induction n generalizing buckets with
  | zero => exact hbucket
  | succ n ih =>
    rw [List.replicate_succ]
    simp only [attempts, allowWithKey_arrival hglobal hspec hsource]
    refine ih (Nat.le_of_succ_le hn) ?_
    unfold allowPerIp
    simp only [hbucket, TokenBucket.take_left hn, AList.lookup_insert, Option.getD_some]

/-- An attempt on the bucket of everybody is answered by what is left in it. -/
theorem attempts_single (hglobal : limiter.globalSpec = none)
    (hspec : limiter.perIpSpec = some spec) (hsource : limiter.perIpKeySource = .peerAddr)
    (arrival : Arrival) :
    (limiter.attempts [arrival] buckets).1 =
      [(((buckets.perIp.lookup "unknown-peer").getD (.new spec arrival.now)).take spec
        arrival.now).1] := by
  simp only [attempts, allowWithKey_arrival hglobal hspec hsource]
  rfl

end SessionCreationRateLimiter

/-! ## No isolation -/

/-- Different addresses are counted in different buckets. -/
def Isolates {K : Type} (key : HttpRequest → K) : Prop :=
  ∀ a b : Arrival, a.peer.ip ≠ b.peer.ip → key a.request ≠ key b.request

/-- Whatever the limits are, all peers are counted in one bucket: the inbound limit
answers by the times of the requests alone, and whoever empties the bucket of session
creation empties it for everybody. -/
theorem peer_buckets_shared (hardening : StreamableHttpHardeningConfig) :
    (∀ bucket config, hardening.rateLimit.bind (·.perIp) = some bucket →
      bucket.keySource = .peerAddr → buildPerIpRateLimit bucket = .ok config →
      (∀ a b : Arrival,
        config.keyExtractor.extract a.request = config.keyExtractor.extract b.request) ∧
      ∀ (G : Type) (check : GovernorKey → Instant → G → Bool × G) (g : G) (as bs : List Arrival),
        as.map Arrival.now = bs.map Arrival.now →
        inboundDecisions check config as g = inboundDecisions check config bs g) ∧
    ∀ limiter spec, buildSessionCreationRateLimiter hardening = some limiter →
      limiter.perIpSpec = some spec → limiter.perIpKeySource = .peerAddr →
      (∀ a b : Arrival, limiter.extractKey a.request = limiter.extractKey b.request) ∧
      (limiter.globalSpec = none → 1 ≤ spec.capacity → ∀ (a b : Arrival) (idle : TokenBucket),
        a.now = b.now → (limiter.attempts [b] ⟨idle, ∅⟩).1 = [true] ∧
          ∃ answers, (limiter.attempts (List.replicate spec.capacity.toNat a ++ [b]) ⟨idle, ∅⟩).1 =
            answers ++ [false]) := by
  constructor
  · intro bucket config _ hsource hconfig
    have hextractor : config.keyExtractor = .perIp .peerAddr := by
      rw [← hsource]
      exact governorConfig_keyExtractor hconfig
    refine ⟨fun a b => ?_, fun G check g as bs hnow => inboundDecisions_eq hextractor hnow g⟩
    rw [extract_arrival hextractor, extract_arrival hextractor]
  · intro limiter spec _ hspec hsource
    refine ⟨fun a b => ?_, fun hglobal hcapacity a b idle hnow => ?_⟩
    · unfold SessionCreationRateLimiter.extractKey
      rw [hsource]
      rfl
    · have hpos : 1 ≤ spec.capacity.toNat := UInt64.le_iff_toNat_le.mp hcapacity
      obtain ⟨n, hn⟩ := Nat.exists_eq_add_of_le' hpos
      have hfull : ∀ now, TokenBucket.new spec now = .left spec.capacity.toNat now := by
        intro now
        simp only [TokenBucket.new, TokenBucket.left, UInt64.ofNat_toNat]
      constructor
      · rw [SessionCreationRateLimiter.attempts_single hglobal hspec hsource]
        simp only [AList.lookup_empty, Option.getD_none]
        rw [hfull, hn, TokenBucket.take_left (Nat.le_of_eq hn.symm)]
      · have hanswers := limiter.attempts_append (List.replicate spec.capacity.toNat a) [b] ⟨idle, ∅⟩
        have hfresh : (((⟨idle, ∅⟩ : SessionCreationBuckets).perIp.lookup "unknown-peer").getD
            (.new spec a.now)) = .left spec.capacity.toNat a.now := by
          simp only [AList.lookup_empty, Option.getD_none, hfull]
        have hempty := SessionCreationRateLimiter.attempts_exhaust hglobal hspec hsource a
          (Nat.le_refl _) hfresh
        rw [SessionCreationRateLimiter.attempts_single hglobal hspec hsource, ← hnow, hempty,
          TokenBucket.take_empty] at hanswers
        exact ⟨_, hanswers⟩

/-- One session and one request for each address. -/
def oneEach : StreamableHttpHardeningConfig :=
  let once : StreamableHttpPerIpRateBucketConfig := ⟨1, 1, .peerAddr⟩
  { StreamableHttpHardeningConfig.default with
    session := some ⟨none, none, none, some ⟨none, none, some once⟩⟩
    rateLimit := some ⟨none, none, some once⟩ }

def peerAt (last : UInt8) : SocketAddr := ⟨.v4 fun i => if i = 3 then last else 10, 40000⟩

/-- A first request of a client, from one of two addresses. -/
def firstRequest (last : UInt8) : Arrival := ⟨peerAt last, ⟨"POST", []⟩, 0⟩

theorem peer_buckets_shared_once : ∃ limiter,
    buildSessionCreationRateLimiter oneEach = some limiter ∧
      ∃ answers, (limiter.attempts [firstRequest 1, firstRequest 2] ⟨⟨0, 0, 0⟩, ∅⟩).1 =
        answers ++ [false] := by
  have h := (peer_buckets_shared oneEach).2 _ ⟨1, 1⟩ rfl rfl rfl
  exact ⟨_, rfl, (h.2 rfl (by decide) (firstRequest 1) (firstRequest 2) ⟨0, 0, 0⟩ rfl).2⟩

/-- Two addresses, one bucket. -/
theorem peer_buckets_not_isolated : ∃ config limiter,
    buildPerIpRateLimit ⟨1, 1, .peerAddr⟩ = .ok config ∧
    buildSessionCreationRateLimiter oneEach = some limiter ∧
    ¬ Isolates config.keyExtractor.extract ∧ ¬ Isolates limiter.extractKey ∧
    (limiter.attempts [firstRequest 2] ⟨⟨0, 0, 0⟩, ∅⟩).1 = [true] ∧
    (limiter.attempts [firstRequest 1, firstRequest 2] ⟨⟨0, 0, 0⟩, ∅⟩).1 = [true, false] := by
  have hip : (firstRequest 1).peer.ip ≠ (firstRequest 2).peer.ip := by
    intro h
    have hlast := congrFun (IpAddr.v4.inj h) 3
    exact absurd hlast (by decide)
  refine ⟨_, _, rfl, rfl, ?_, ?_, by decide, by decide⟩
  · exact fun hisolates => hisolates _ _ hip rfl
  · exact fun hisolates => hisolates _ _ hip rfl

end RustMcpCore
