import RustMcpCore.Http.TokenBuckets

/-! # What a refused session costs

An attempt takes a token from the bucket of all clients, and then one from the bucket of its own
key. What it costs is seen when the run goes on as it would have without it.
-/
namespace RustMcpCore
open Library

/-! ## Runs -/

structure CreationAttempt where
  perIpKey : Option String
  now : Readings

/-- The clock does not go back at either lock. -/
structure Readings.Before (earlier later : Readings) : Prop where
  global : earlier.global ≤ later.global
  perIp : earlier.perIp ≤ later.created
  inside : later.created ≤ later.perIp

instance (earlier later : Readings) : Decidable (earlier.Before later) :=
  decidable_of_iff (earlier.global ≤ later.global ∧ earlier.perIp ≤ later.created ∧
    later.created ≤ later.perIp)
    ⟨fun h => ⟨h.1, h.2.1, h.2.2⟩, fun h => ⟨h.global, h.perIp, h.inside⟩⟩

namespace SessionCreationRateLimiter
variable (limiter : SessionCreationRateLimiter)

/-- The buckets when the limiter is built. -/
def initialBuckets (start : Instant) : SessionCreationBuckets where
  global := .new (limiter.globalSpec.getD ⟨0, 0⟩) start
  perIp := ∅

/-- Attempts one after the other, and what each is answered. -/
def calls : SessionCreationBuckets → List CreationAttempt → List Bool × SessionCreationBuckets
  | buckets, [] => ([], buckets)
  | buckets, attempt :: later =>
    let (allowed, buckets) := limiter.allowWithKey buckets attempt.perIpKey attempt.now
    let (rest, buckets) := calls buckets later
    (allowed :: rest, buckets)

/-- The times of attempts that come after others. -/
def InOrder (since : Readings) (later : List CreationAttempt) : Prop :=
  (since :: later.map (·.now)).IsChain Readings.Before

instance (since : Readings) (later : List CreationAttempt) : Decidable (InOrder since later) :=
  inferInstanceAs (Decidable (List.IsChain _ _))

/-- The last readings of the clock. -/
def lastReadings (since : Readings) (later : List CreationAttempt) : Readings :=
  (later.map (·.now)).getLastD since

/-- The bucket of a key, with a new one at a time where there is none. -/
def ownBucket (spec : RateBucketSpec) (buckets : SessionCreationBuckets) (key : String)
    (created : Instant) : TokenBucket :=
  (buckets.perIp.lookup key).getD (.new spec created)

/-- The tokens that a key has at a time. -/
def perIpTokens (spec : RateBucketSpec) (buckets : SessionCreationBuckets) (key : String)
    (time : Instant) : UInt64 :=
  (ownBucket spec buckets key time).refilled spec time

/-- After any attempts in order, each is answered and every bucket is as without this one. -/
def CostsNothing (buckets : SessionCreationBuckets) (attempt : CreationAttempt) : Prop :=
  ∀ later, InOrder attempt.now later →
    let made := limiter.calls
      (limiter.allowWithKey buckets attempt.perIpKey attempt.now).2 later
    let omitted := limiter.calls buckets later
    made.1 = omitted.1 ∧
    (∀ spec, limiter.globalSpec = some spec → ∀ time,
      (lastReadings attempt.now later).global ≤ time →
      made.2.global.refilled spec time = omitted.2.global.refilled spec time) ∧
    ∀ spec, limiter.perIpSpec = some spec → ∀ key time,
      (lastReadings attempt.now later).perIp ≤ time →
      perIpTokens spec made.2 key time = perIpTokens spec omitted.2 key time

end SessionCreationRateLimiter

/-! ## Refused calls of one bucket -/

namespace TokenBucket
variable {spec : RateBucketSpec} {bucket other : TokenBucket} {now later : Instant}

theorem take_congr (htokens : bucket.refilled spec now = other.refilled spec now)
    (hrem : bucket.refillNanos spec now % NANOS_PER_SEC =
      other.refillNanos spec now % NANOS_PER_SEC) :
    bucket.take spec now = other.take spec now := by
  simp only [take, htokens, hrem]

theorem refilled_of_take (h : bucket.take spec now = other.take spec now) :
    bucket.refilled spec now = other.refilled spec now := by
  rw [← UInt64.toNat_inj, ← take_tokens, ← take_tokens, h]

theorem take_refused_iff : (bucket.take spec now).1 = false ↔ (bucket.refilled spec now).toNat = 0 := by
  simp only [take]
  split
  · rename_i hone
    have hle : 1 ≤ (bucket.refilled spec now).toNat := hone
    exact iff_of_false Bool.true_eq_false.mp (Nat.ne_of_gt hle)
  · rename_i hnone
    have hlt : ¬ 1 ≤ (bucket.refilled spec now).toNat := hnone
    exact iff_of_true rfl (Nat.lt_one_iff.mp (not_le.mp hlt))

/-- What has run in can be added in two parts, as long as the first of them is in range. -/
theorem refillNanos_of_take (hnow : bucket.lastRefill ≤ now)
    (hsmall : bucket.refillNanos spec now < NANOS_PER_SEC) (hlater : now ≤ later) :
    (bucket.take spec now).2.refillNanos spec later = bucket.refillNanos spec later := by
  have hparts : later - bucket.lastRefill = (later - now) + (now - bucket.lastRefill) :=
    (Nat.sub_add_sub_cancel hlater hnow).symm
  have hnanos : NANOS_PER_SEC < 2 ^ 128 - 1 := by decide
  have hrem : (bucket.take spec now).2.remNanos = bucket.refillNanos spec now := by
    rw [take_remNanos, Nat.mod_eq_of_lt hsmall]
  unfold refillNanos at hsmall hrem ⊢
  rw [hrem, take_lastRefill, hparts, Nat.add_mul]
  generalize (now - bucket.lastRefill) * spec.refillPerSec.toNat = first at *
  generalize (later - now) * spec.refillPerSec.toNat = second
  omega

/-- Without a token in the bucket a call only does the bookkeeping of the refill. -/
theorem take_of_refused (hcapacity : spec.capacity.toNat ≠ 0) (hnow : bucket.lastRefill ≤ now)
    (hrefused : (bucket.take spec now).1 = false) (hlater : now ≤ later) :
    (bucket.take spec now).2.take spec later = bucket.take spec later := by
  have hempty := take_refused_iff.mp hrefused
  have hleft := bucket.take_tokens spec now
  rw [hempty] at hleft
  rw [toNat_refilled] at hempty
  have htokens : (bucket.take spec now).2.tokens = bucket.tokens := by
    rw [← UInt64.toNat_inj]
    omega
  have hwhole : bucket.produced spec now = 0 := by omega
  have hsmall : bucket.refillNanos spec now < NANOS_PER_SEC := by
    rcases Nat.div_eq_zero_iff.mp hwhole with hzero | hsmall
    · exact absurd hzero (Nat.ne_of_gt nanos_pos)
    · exact hsmall
  have hnanos := refillNanos_of_take hnow hsmall hlater
  refine take_congr ?_ (by rw [hnanos])
  rw [← UInt64.toNat_inj, toNat_refilled, toNat_refilled, htokens, produced, produced, hnanos]

theorem take_of_no_capacity (hcapacity : spec.capacity.toNat = 0) :
    (bucket.take spec now).1 = false := by
  rw [take_refused_iff, toNat_refilled, hcapacity]
  exact Nat.min_zero _

/-- At the time of a call there is what the call has left. -/
theorem refilled_of_taken :
    ((bucket.take spec now).2.refilled spec now).toNat = (bucket.take spec now).2.tokens.toNat := by
  have hnanos : (bucket.take spec now).2.refillNanos spec now < NANOS_PER_SEC := by
    refine lt_of_le_of_lt (refillNanos_le _ _ _) ?_
    rw [take_lastRefill, Nat.sub_self, Nat.zero_mul, Nat.zero_add]
    exact remNanos_lt
  rw [toNat_refilled, produced, Nat.div_eq_of_lt hnanos, Nat.add_zero]
  exact Nat.min_eq_left tokens_le

/-- Buckets that nobody can tell apart from a time on. -/
def Interchangeable (spec : RateBucketSpec) (since : Instant) (bucket other : TokenBucket) : Prop :=
  spec.capacity.toNat = 0 ∨ ∀ now, since ≤ now → bucket.take spec now = other.take spec now

namespace Interchangeable
variable {since : Instant}

theorem refl (spec : RateBucketSpec) (since : Instant) (bucket : TokenBucket) :
    Interchangeable spec since bucket bucket :=
  .inr fun _ _ => rfl

theorem mono (h : Interchangeable spec since bucket other) (hnow : since ≤ now) :
    Interchangeable spec now bucket other :=
  h.imp_right fun hsame time htime => hsame time (Nat.le_trans hnow htime)

theorem answer (h : Interchangeable spec since bucket other) (hnow : since ≤ now) :
    (bucket.take spec now).1 = (other.take spec now).1 := by
  rcases h with hcapacity | hsame
  · rw [take_of_no_capacity hcapacity, take_of_no_capacity hcapacity]
  · rw [hsame now hnow]

theorem taken (h : Interchangeable spec since bucket other) (hnow : since ≤ now) :
    Interchangeable spec now (bucket.take spec now).2 (other.take spec now).2 := by
  rcases h with hcapacity | hsame
  · exact .inl hcapacity
  · rw [hsame now hnow]
    exact refl spec now _

theorem refilled_eq (h : Interchangeable spec since bucket other) (hnow : since ≤ now) :
    bucket.refilled spec now = other.refilled spec now := by
  rcases h with hcapacity | hsame
  · rw [← UInt64.toNat_inj, toNat_refilled, toNat_refilled, hcapacity, Nat.min_zero, Nat.min_zero]
  · exact refilled_of_take (hsame now hnow)

/-- A refused call cannot be told from none. -/
theorem of_refused (hnow : bucket.lastRefill ≤ now) (hrefused : (bucket.take spec now).1 = false) :
    Interchangeable spec now (bucket.take spec now).2 bucket := by
  by_cases hcapacity : spec.capacity.toNat = 0
  · exact .inl hcapacity
  · exact .inr fun _ => take_of_refused hcapacity hnow hrefused

end Interchangeable

/-- A new bucket refuses nothing that it is ever going to grant. -/
theorem new_refused {start : Instant} (h : ((new spec start).take spec now).1 = false) :
    spec.capacity.toNat = 0 := by
  rw [take_refused_iff, toNat_refilled] at h
  have hfull : (new spec start).tokens = spec.capacity := rfl
  rw [hfull] at h
  omega

end TokenBucket

/-! ## One attempt -/

namespace SessionCreationRateLimiter
variable {limiter : SessionCreationRateLimiter} {buckets others : SessionCreationBuckets}
variable {since now : Readings} {key : Option String} {spec : RateBucketSpec}

/-- What follows once the bucket of all clients has given its token. -/
def allowOwn (limiter : SessionCreationRateLimiter) (buckets : SessionCreationBuckets)
    (perIpKey : Option String) (now : Readings) : Bool × SessionCreationBuckets :=
  match limiter.perIpSpec with
  | none => (true, buckets)
  | some spec => allowPerIp buckets (perIpKey.getD "unknown-peer") spec now

theorem allowWithKey_of_none (hglobal : limiter.globalSpec = none) :
    limiter.allowWithKey buckets key now = limiter.allowOwn buckets key now := by
  unfold SessionCreationRateLimiter.allowWithKey
  rw [hglobal]
  rfl

theorem allowWithKey_of_refused (hglobal : limiter.globalSpec = some spec)
    (htaken : (buckets.global.take spec now.global).1 = false) :
    limiter.allowWithKey buckets key now =
      (false, { buckets with global := (buckets.global.take spec now.global).2 }) := by
  simp only [allowWithKey, hglobal, htaken, Bool.not_false, if_true]

theorem allowWithKey_of_granted (hglobal : limiter.globalSpec = some spec)
    (htaken : (buckets.global.take spec now.global).1 = true) :
    limiter.allowWithKey buckets key now =
      limiter.allowOwn { buckets with global := (buckets.global.take spec now.global).2 } key now := by
  unfold SessionCreationRateLimiter.allowWithKey
  rw [hglobal]
  simp only [htaken]
  rfl

/-- No bucket has been refilled later than the clock was read. -/
structure Synced (since : Readings) (buckets : SessionCreationBuckets) : Prop where
  global : buckets.global.lastRefill ≤ since.global
  perIp : ∀ key bucket, buckets.perIp.lookup key = some bucket → bucket.lastRefill ≤ since.perIp

/-- Buckets that nobody can tell apart from a time on. -/
structure Alike (limiter : SessionCreationRateLimiter) (since : Readings)
    (buckets others : SessionCreationBuckets) : Prop where
  global : ∀ spec, limiter.globalSpec = some spec →
    buckets.global.Interchangeable spec since.global others.global
  perIp : ∀ spec, limiter.perIpSpec = some spec → ∀ key created, since.perIp ≤ created →
    (ownBucket spec buckets key created).Interchangeable spec created
      (ownBucket spec others key created)

theorem Alike.refl (limiter : SessionCreationRateLimiter) (since : Readings)
    (buckets : SessionCreationBuckets) : limiter.Alike since buckets buckets :=
  ⟨fun spec _ => .refl spec _ _, fun spec _ _ _ _ => .refl spec _ _⟩

theorem ownBucket_allowPerIp (buckets : SessionCreationBuckets) (own : String)
    (spec : RateBucketSpec) (now : Readings) (key : String) (created : Instant) :
    ownBucket spec (allowPerIp buckets own spec now).2 key created =
      if key = own then ((ownBucket spec buckets own now.created).take spec now.perIp).2
      else ownBucket spec buckets key created := by
  unfold ownBucket allowPerIp
  split
  · rename_i hown
    rw [hown, AList.lookup_insert, Option.getD_some]
  · rename_i hother
    rw [AList.lookup_insert_ne hother]

theorem Alike.allowOwn (h : limiter.Alike since buckets others) (key : Option String)
    (hcreated : since.perIp ≤ now.created) (hinside : now.created ≤ now.perIp) :
    (limiter.allowOwn buckets key now).1 = (limiter.allowOwn others key now).1 ∧
      limiter.Alike { now with global := since.global } (limiter.allowOwn buckets key now).2
        (limiter.allowOwn others key now).2 := by
  have hlater : since.perIp ≤ now.perIp := Nat.le_trans hcreated hinside
  unfold SessionCreationRateLimiter.allowOwn
  cases hspec : limiter.perIpSpec with
  | none => exact ⟨rfl, h.global, fun spec hsome => absurd (hspec.symm.trans hsome) (Option.some_ne_none _).symm⟩
  | some spec =>
    have hown := h.perIp spec hspec (key.getD "unknown-peer") now.created hcreated
    refine ⟨hown.answer hinside, h.global, fun spec' hspec' other created hother => ?_⟩
    obtain rfl : spec = spec' := Option.some.inj (hspec.symm.trans hspec')
    rw [ownBucket_allowPerIp, ownBucket_allowPerIp]
    split
    · exact (hown.taken hinside).mono hother
    · exact h.perIp spec hspec other created (Nat.le_trans hlater hother)

/-- Alike buckets give one answer, and are alike after it. -/
theorem Alike.step (h : limiter.Alike since buckets others) (key : Option String)
    (hnow : since.Before now) :
    (limiter.allowWithKey buckets key now).1 = (limiter.allowWithKey others key now).1 ∧
      limiter.Alike now (limiter.allowWithKey buckets key now).2
        (limiter.allowWithKey others key now).2 := by
  cases hglobal : limiter.globalSpec with
  | none =>
    rw [allowWithKey_of_none hglobal, allowWithKey_of_none hglobal]
    obtain ⟨hanswer, halike⟩ := h.allowOwn key hnow.perIp hnow.inside
    exact ⟨hanswer, fun spec hsome => absurd (hglobal.symm.trans hsome) (Option.some_ne_none _).symm, halike.perIp⟩
  | some spec =>
    have htaken := (h.global spec hglobal).taken hnow.global
    have hanswer := (h.global spec hglobal).answer hnow.global
    cases hbool : (buckets.global.take spec now.global).1 with
    | false =>
      rw [allowWithKey_of_refused hglobal hbool,
        allowWithKey_of_refused hglobal (hanswer.symm.trans hbool)]
      refine ⟨rfl, fun spec' hspec' => ?_, fun spec' hspec' other created hother => ?_⟩
      · obtain rfl : spec = spec' := Option.some.inj (hglobal.symm.trans hspec')
        exact htaken
      · exact h.perIp spec' hspec' other created
          (Nat.le_trans (Nat.le_trans hnow.perIp hnow.inside) hother)
    | true =>
      rw [allowWithKey_of_granted hglobal hbool,
        allowWithKey_of_granted hglobal (hanswer.symm.trans hbool)]
      have hpaid : limiter.Alike { since with global := now.global }
          { buckets with global := (buckets.global.take spec now.global).2 }
          { others with global := (others.global.take spec now.global).2 } := by
        refine ⟨fun spec' hspec' => ?_, h.perIp⟩
        obtain rfl : spec = spec' := Option.some.inj (hglobal.symm.trans hspec')
        exact htaken
      exact hpaid.allowOwn key hnow.perIp hnow.inside

theorem Synced.allowOwn (h : Synced since buckets) (limiter : SessionCreationRateLimiter)
    (key : Option String) (hperIp : since.perIp ≤ now.perIp) :
    Synced { now with global := since.global } (limiter.allowOwn buckets key now).2 := by
  unfold SessionCreationRateLimiter.allowOwn
  cases hspec : limiter.perIpSpec with
  | none => exact ⟨h.global, fun key bucket hbucket => Nat.le_trans (h.perIp key bucket hbucket) hperIp⟩
  | some spec =>
    refine ⟨h.global, fun other bucket hbucket => ?_⟩
    unfold allowPerIp at hbucket
    by_cases hother : other = key.getD "unknown-peer"
    · rw [hother, AList.lookup_insert, Option.some.injEq] at hbucket
      rw [← hbucket, TokenBucket.take_lastRefill]
    · rw [AList.lookup_insert_ne hother] at hbucket
      exact Nat.le_trans (h.perIp other bucket hbucket) hperIp

theorem Synced.step (h : Synced since buckets) (hnow : since.Before now) :
    Synced now (limiter.allowWithKey buckets key now).2 := by
  have hperIp : since.perIp ≤ now.perIp := Nat.le_trans hnow.perIp hnow.inside
  cases hglobal : limiter.globalSpec with
  | none =>
    rw [allowWithKey_of_none hglobal]
    have hown := h.allowOwn limiter key hperIp
    exact ⟨Nat.le_trans hown.global hnow.global, hown.perIp⟩
  | some spec =>
    have hpaid : Synced { since with global := now.global }
        { buckets with global := (buckets.global.take spec now.global).2 } :=
      ⟨TokenBucket.take_lastRefill.le, h.perIp⟩
    cases hbool : (buckets.global.take spec now.global).1 with
    | false =>
      rw [allowWithKey_of_refused hglobal hbool]
      exact ⟨hpaid.global, fun key bucket hbucket => Nat.le_trans (h.perIp key bucket hbucket) hperIp⟩
    | true =>
      rw [allowWithKey_of_granted hglobal hbool]
      exact hpaid.allowOwn limiter key hperIp

theorem own_refused {own : String} {created : Instant} (h : Synced since buckets)
    (hnow : since.Before now) (hcreated : now.perIp ≤ created)
    (hrefused : ((ownBucket spec buckets own now.created).take spec now.perIp).1 = false) :
    ((ownBucket spec buckets own now.created).take spec now.perIp).2.Interchangeable spec created
      (ownBucket spec buckets own created) := by
  unfold ownBucket at hrefused ⊢
  cases hbucket : buckets.perIp.lookup own with
  | none =>
    rw [hbucket, Option.getD_none] at hrefused
    exact .inl (TokenBucket.new_refused hrefused)
  | some bucket =>
    rw [hbucket, Option.getD_some] at hrefused
    have hlast : bucket.lastRefill ≤ now.perIp :=
      Nat.le_trans (h.perIp own bucket hbucket) (Nat.le_trans hnow.perIp hnow.inside)
    exact (TokenBucket.Interchangeable.of_refused hlast hrefused).mono hcreated

/-- A call refused by the bucket of its own key costs that key nothing. -/
theorem alike_of_own_refused (h : Synced since buckets) (hnow : since.Before now)
    (hrefused : (limiter.allowOwn buckets key now).1 = false) :
    limiter.Alike now (limiter.allowOwn buckets key now).2 buckets := by
  unfold allowOwn at hrefused ⊢
  cases hspec : limiter.perIpSpec with
  | none =>
    rw [hspec] at hrefused
    exact absurd hrefused Bool.true_eq_false.mp
  | some spec =>
    rw [hspec] at hrefused
    refine ⟨fun spec' _ => .refl spec' _ _, fun spec' hspec' other created hcreated => ?_⟩
    obtain rfl : spec = spec' := Option.some.inj (hspec.symm.trans hspec')
    simp only [ownBucket_allowPerIp]
    split
    · rename_i hother
      rw [hother]
      exact own_refused h hnow hcreated hrefused
    · exact .refl spec _ _

/-! ## All attempts -/

variable {later : List CreationAttempt} {attempt : CreationAttempt}

theorem calls_cons (limiter : SessionCreationRateLimiter) (buckets : SessionCreationBuckets)
    (attempt : CreationAttempt) (later : List CreationAttempt) :
    limiter.calls buckets (attempt :: later) =
      let answered := limiter.allowWithKey buckets attempt.perIpKey attempt.now
      (answered.1 :: (limiter.calls answered.2 later).1, (limiter.calls answered.2 later).2) :=
  rfl

theorem InOrder.cons (h : InOrder since (attempt :: later)) :
    since.Before attempt.now ∧ InOrder attempt.now later :=
  List.isChain_cons_cons.mp h

theorem lastReadings_cons (since : Readings) (attempt : CreationAttempt)
    (later : List CreationAttempt) :
    lastReadings since (attempt :: later) = lastReadings attempt.now later := by
  unfold lastReadings
  rw [List.map_cons, List.getLastD_cons]

/-- Alike buckets give one answer to every attempt, and are alike in the end. -/
theorem Alike.run (h : limiter.Alike since buckets others) (hlater : InOrder since later) :
    (limiter.calls buckets later).1 = (limiter.calls others later).1 ∧
      limiter.Alike (lastReadings since later) (limiter.calls buckets later).2
        (limiter.calls others later).2 := by
  induction later generalizing since buckets others with
  | nil => exact ⟨rfl, h⟩
  | cons attempt later ih =>
    obtain ⟨hnow, hrest⟩ := hlater.cons
    obtain ⟨hanswer, halike⟩ := h.step attempt.perIpKey hnow
    obtain ⟨hanswers, hend⟩ := ih halike hrest
    rw [calls_cons, calls_cons, lastReadings_cons]
    exact ⟨congrArg₂ List.cons hanswer hanswers, hend⟩

theorem Synced.run (h : Synced since buckets) (hlater : InOrder since (later ++ [attempt])) :
    ∃ last, Synced last (limiter.calls buckets later).2 ∧ last.Before attempt.now := by
  induction later generalizing since buckets with
  | nil => exact ⟨since, h, hlater.cons.1⟩
  | cons first later ih =>
    obtain ⟨hnow, hrest⟩ := hlater.cons
    exact ih (h.step hnow) hrest

theorem synced_initialBuckets (limiter : SessionCreationRateLimiter) (start : Instant) :
    Synced ⟨start, start, start⟩ (limiter.initialBuckets start) where
  global := Nat.le_refl start
  perIp key bucket hbucket := by
    rw [initialBuckets, AList.lookup_empty] at hbucket
    exact absurd hbucket.symm (Option.some_ne_none bucket)

theorem Alike.costsNothing (h : limiter.Alike attempt.now
    (limiter.allowWithKey buckets attempt.perIpKey attempt.now).2 buckets) :
    limiter.CostsNothing buckets attempt := by
  intro later hlater
  obtain ⟨hanswers, hend⟩ := h.run hlater
  refine ⟨hanswers, fun spec hspec time htime => ?_, fun spec hspec key time htime => ?_⟩
  · exact (hend.global spec hspec).refilled_eq htime
  · exact (hend.perIp spec hspec key time htime).refilled_eq (Nat.le_refl time)

/-- A token that the bucket of all clients has given is gone. -/
theorem costs_of_granted (hglobal : limiter.globalSpec = some spec)
    (htaken : (buckets.global.take spec attempt.now.global).1 = true) :
    ¬ limiter.CostsNothing buckets attempt := by
  intro h
  obtain ⟨-, hsame, -⟩ := h [] (List.IsChain.singleton _)
  have hglobal' : (limiter.allowWithKey buckets attempt.perIpKey attempt.now).2.global =
      (buckets.global.take spec attempt.now.global).2 := by
    rw [allowWithKey_of_granted hglobal htaken]
    unfold allowOwn
    cases limiter.perIpSpec with
    | none => rfl
    | some spec => rfl
  have hleft : ((buckets.global.take spec attempt.now.global).2.refilled spec
      attempt.now.global).toNat = (buckets.global.refilled spec attempt.now.global).toNat := by
    rw [← hglobal']
    exact congrArg UInt64.toNat (hsame spec hglobal _ (Nat.le_refl _))
  have hpaid := buckets.global.take_tokens spec attempt.now.global
  rw [TokenBucket.refilled_of_taken] at hleft
  rw [htaken, Bool.toNat_true] at hpaid
  omega

/-- A refused session costs nothing exactly when it is refused for the sake of all clients, or
when there is no bucket of all clients. -/
theorem refusal_costs_nothing_iff (limiter : SessionCreationRateLimiter) (start : Instant)
    (before : List CreationAttempt) (attempt : CreationAttempt)
    (horder : InOrder ⟨start, start, start⟩ (before ++ [attempt])) :
    let buckets := (limiter.calls (limiter.initialBuckets start) before).2
    (limiter.allowWithKey buckets attempt.perIpKey attempt.now).1 = false →
      (limiter.CostsNothing buckets attempt ↔ ∀ spec, limiter.globalSpec = some spec →
        (buckets.global.refilled spec attempt.now.global).toNat = 0) := by
  intro buckets hrefused
  obtain ⟨since, hsynced, hnow⟩ := (limiter.synced_initialBuckets start).run horder
  cases hglobal : limiter.globalSpec with
  | none =>
    refine iff_of_true (Alike.costsNothing ?_) fun spec hspec =>
      absurd hspec (Option.some_ne_none spec).symm
    rw [allowWithKey_of_none hglobal] at hrefused ⊢
    exact alike_of_own_refused hsynced hnow hrefused
  | some spec =>
    have hempty : (∀ spec', some spec = some spec' →
        (buckets.global.refilled spec' attempt.now.global).toNat = 0) ↔
          (buckets.global.take spec attempt.now.global).1 = false := by
      rw [TokenBucket.take_refused_iff]
      exact ⟨fun h => h spec rfl, fun h spec' hspec' => Option.some.inj hspec' ▸ h⟩
    rw [hempty]
    cases hbool : (buckets.global.take spec attempt.now.global).1 with
    | true => exact iff_of_false (costs_of_granted hglobal hbool) Bool.true_eq_false.mp
    | false =>
      refine iff_of_true (Alike.costsNothing ?_) rfl
      rw [allowWithKey_of_refused hglobal hbool]
      refine ⟨fun spec' hspec' => ?_, fun spec' _ _ _ _ => .refl spec' _ _⟩
      obtain rfl : spec = spec' := Option.some.inj (hglobal.symm.trans hspec')
      exact .of_refused (Nat.le_trans hsynced.global hnow.global) hbool

/-- Two tokens for all clients, and one for each. -/
def twoAndOne : SessionCreationRateLimiter := ⟨some ⟨2, 0⟩, some ⟨1, 0⟩, .peerAddr⟩

/-- An attempt of a client at the start. -/
def attemptOf (client : String) : CreationAttempt := ⟨some client, ⟨0, 0, 0⟩⟩

/-- Two clients have used the tokens up, and then one of them is refused. -/
theorem refusal_costs_nothing_empty :
    twoAndOne.CostsNothing (twoAndOne.calls (twoAndOne.initialBuckets 0)
      [attemptOf "10.0.0.1", attemptOf "10.0.0.2"]).2 (attemptOf "10.0.0.1") := by
  refine (refusal_costs_nothing_iff twoAndOne 0
    [attemptOf "10.0.0.1", attemptOf "10.0.0.2"] (attemptOf "10.0.0.1") (by decide) (by decide)).mpr ?_
  intro spec hspec
  obtain rfl : ⟨2, 0⟩ = spec := Option.some.inj hspec
  decide

/-- The call of a client without tokens is refused, and takes the token of another one. -/
theorem refusal_costs_token :
    let buckets := (twoAndOne.calls (twoAndOne.initialBuckets 0) [attemptOf "10.0.0.1"]).2
    InOrder ⟨0, 0, 0⟩ [attemptOf "10.0.0.1", attemptOf "10.0.0.1"] ∧
    (twoAndOne.allowWithKey buckets (some "10.0.0.1") ⟨0, 0, 0⟩).1 = false ∧
    ¬ twoAndOne.CostsNothing buckets (attemptOf "10.0.0.1") := by
  intro buckets
  refine ⟨by decide, by decide, fun h => ?_⟩
  have hanswers := (h [attemptOf "10.0.0.2"] (by decide)).1
  exact absurd hanswers (by decide)

end SessionCreationRateLimiter

end RustMcpCore
