import RustMcpCore.Http.RateLimit

/-! # What a token bucket grants

A bucket holds tokens and a part of the next one. Both together are its credit, in nanoseconds
of a token at the rate of the refill, and a call adds to it what has run in and takes what it is
granted.
-/
namespace RustMcpCore.TokenBucket
variable (spec : RateBucketSpec)

/-! ## Runs -/

/-- Calls at the given times: which were granted, and the bucket then. -/
def takes : TokenBucket → List Instant → List Bool × TokenBucket
  | bucket, [] => ([], bucket)
  | bucket, now :: later =>
    let (granted, bucket) := bucket.take spec now
    let (rest, bucket) := takes bucket later
    (granted :: rest, bucket)

def grants (bucket : TokenBucket) (times : List Instant) : ℕ := (takes spec bucket times).1.count true

def after (bucket : TokenBucket) (times : List Instant) : TokenBucket := (takes spec bucket times).2

/-- The tokens that run in by a call. -/
def produced (bucket : TokenBucket) (now : Instant) : ℕ := bucket.refillNanos spec now / NANOS_PER_SEC

/-- The tokens that run in over all calls. -/
def producedOver : TokenBucket → List Instant → ℕ
  | _, [] => 0
  | bucket, now :: later => bucket.produced spec now + producedOver (bucket.take spec now).2 later

/-- No call fills the bucket beyond its capacity, and no product is too large for its type. -/
def Unsaturated : TokenBucket → List Instant → Prop
  | _, [] => True
  | bucket, now :: later =>
    (now - bucket.lastRefill) * spec.refillPerSec.toNat + bucket.remNanos < 2 ^ 128 ∧
      bucket.tokens.toNat + bucket.produced spec now ≤ spec.capacity.toNat ∧
      Unsaturated (bucket.take spec now).2 later

/-- From the first call to the last. -/
def span (times : List Instant) : ℕ := times.getLastD 0 - times.headD 0

/-- Tokens and the part of the next one. -/
def credit (bucket : TokenBucket) : ℕ := bucket.tokens.toNat * NANOS_PER_SEC + bucket.remNanos

variable {spec} {bucket : TokenBucket} {now : Instant} {times : List Instant}

theorem nanos_pos : 0 < NANOS_PER_SEC := by decide

@[simp]
theorem takes_cons (bucket : TokenBucket) (now : Instant) (later : List Instant) :
    takes spec bucket (now :: later) =
      ((bucket.take spec now).1 :: (takes spec (bucket.take spec now).2 later).1,
        (takes spec (bucket.take spec now).2 later).2) := rfl

theorem after_cons (bucket : TokenBucket) (now : Instant) (later : List Instant) :
    bucket.after spec (now :: later) = (bucket.take spec now).2.after spec later := rfl

theorem grants_cons (bucket : TokenBucket) (now : Instant) (later : List Instant) :
    bucket.grants spec (now :: later) =
      (bucket.take spec now).1.toNat + (bucket.take spec now).2.grants spec later := by
  rw [grants, takes_cons, List.count_cons, grants, add_comm]
  cases (bucket.take spec now).1 with
  | false => rfl
  | true => rfl

/-! ## One call -/

/-- A saturated sum is still no less than the capacity. -/
theorem toNat_refilled (bucket : TokenBucket) (spec : RateBucketSpec) (now : Instant) :
    (bucket.refilled spec now).toNat =
      min (bucket.tokens.toNat + bucket.produced spec now) spec.capacity.toNat := by
  have hcapacity := spec.capacity.toNat_lt
  unfold refilled produced
  generalize bucket.refillNanos spec now / NANOS_PER_SEC = whole
  rw [UInt64.toNat_ofNat_of_lt']
  · omega
  · rw [UInt64.size]
    omega

theorem refillNanos_le (bucket : TokenBucket) (spec : RateBucketSpec) (now : Instant) :
    bucket.refillNanos spec now ≤
      (now - bucket.lastRefill) * spec.refillPerSec.toNat + bucket.remNanos := by
  unfold refillNanos
  exact (Nat.min_le_left _ _).trans (Nat.add_le_add_right (Nat.min_le_left _ _) _)

theorem refillNanos_eq
    (h : (now - bucket.lastRefill) * spec.refillPerSec.toNat + bucket.remNanos < 2 ^ 128) :
    bucket.refillNanos spec now =
      (now - bucket.lastRefill) * spec.refillPerSec.toNat + bucket.remNanos := by
  unfold refillNanos
  rw [Nat.min_eq_left (Nat.le_sub_one_of_lt (lt_of_le_of_lt (Nat.le_add_right _ _) h)),
    Nat.min_eq_left (Nat.le_sub_one_of_lt h)]

@[simp]
theorem take_lastRefill : (bucket.take spec now).2.lastRefill = now := by
  simp only [take]
  split
  · rfl
  · rfl

@[simp]
theorem take_remNanos :
    (bucket.take spec now).2.remNanos = bucket.refillNanos spec now % NANOS_PER_SEC := by
  simp only [take]
  split
  · rfl
  · rfl

/-- A call takes one of the tokens there are by then, if it is granted. -/
theorem take_tokens (bucket : TokenBucket) (spec : RateBucketSpec) (now : Instant) :
    (bucket.take spec now).1.toNat + (bucket.take spec now).2.tokens.toNat =
      (bucket.refilled spec now).toNat := by
  simp only [take]
  split
  · rename_i hone
    have hle : 1 ≤ (bucket.refilled spec now).toNat := hone
    rw [UInt64.toNat_sub_of_le _ _ hone]
    simp only [Bool.toNat_true, UInt64.toNat_one]
    omega
  · simp only [Bool.toNat_false, Nat.zero_add]

theorem remNanos_lt : (bucket.take spec now).2.remNanos < NANOS_PER_SEC := by
  rw [take_remNanos]
  exact Nat.mod_lt _ nanos_pos

theorem tokens_le : (bucket.take spec now).2.tokens.toNat ≤ spec.capacity.toNat := by
  have htokens := bucket.take_tokens spec now
  rw [toNat_refilled] at htokens
  omega

/-- What a call is granted is paid from the credit and from what has run in. -/
theorem take_credit (bucket : TokenBucket) (spec : RateBucketSpec) (now : Instant) :
    (bucket.take spec now).1.toNat * NANOS_PER_SEC + (bucket.take spec now).2.credit ≤
      bucket.credit + (now - bucket.lastRefill) * spec.refillPerSec.toNat := by
  have htokens := bucket.take_tokens spec now
  rw [toNat_refilled] at htokens
  have hwhole : bucket.produced spec now * NANOS_PER_SEC + (bucket.take spec now).2.remNanos =
      bucket.refillNanos spec now := by
    rw [take_remNanos]
    exact Nat.div_add_mod' _ _
  have hpaid := Nat.mul_le_mul_right NANOS_PER_SEC
    (htokens.le.trans (Nat.min_le_left _ spec.capacity.toNat))
  have hgain := bucket.refillNanos_le spec now
  unfold credit
  rw [Nat.add_mul, Nat.add_mul] at hpaid
  omega

/-- Nothing is lost by a call that neither saturates nor fills the bucket. -/
theorem take_credit_eq
    (hproduct : (now - bucket.lastRefill) * spec.refillPerSec.toNat + bucket.remNanos < 2 ^ 128)
    (hfits : bucket.tokens.toNat + bucket.produced spec now ≤ spec.capacity.toNat) :
    (bucket.take spec now).1.toNat + (bucket.take spec now).2.tokens.toNat =
        bucket.tokens.toNat + bucket.produced spec now ∧
      bucket.produced spec now * NANOS_PER_SEC + (bucket.take spec now).2.remNanos =
        (now - bucket.lastRefill) * spec.refillPerSec.toNat + bucket.remNanos := by
  constructor
  · rw [take_tokens, toNat_refilled, Nat.min_eq_left hfits]
  · rw [take_remNanos, ← refillNanos_eq hproduct]
    exact Nat.div_add_mod' _ _

/-! ## All calls -/

/-- Calls at times that do not go back, from the last refill on. -/
def InOrder (bucket : TokenBucket) (times : List Instant) : Prop :=
  (bucket.lastRefill :: times).IsChain (· ≤ ·)

theorem InOrder.cons (spec : RateBucketSpec) (h : bucket.InOrder (now :: times)) :
    bucket.lastRefill ≤ now ∧ (bucket.take spec now).2.InOrder times := by
  unfold InOrder
  rw [take_lastRefill]
  exact List.isChain_cons_cons.mp h

theorem lastRefill_after (spec : RateBucketSpec) (bucket : TokenBucket) (times : List Instant) :
    (bucket.after spec times).lastRefill = times.getLastD bucket.lastRefill := by
  induction times generalizing bucket with
  | nil => rfl
  | cons now later ih =>
    rw [after_cons, ih, take_lastRefill, List.getLastD_cons]

theorem InOrder.le_after (spec : RateBucketSpec) (h : bucket.InOrder times) :
    bucket.lastRefill ≤ (bucket.after spec times).lastRefill := by
  induction times generalizing bucket with
  | nil => exact Nat.le_refl _
  | cons now later ih =>
    obtain ⟨hnow, hlater⟩ := h.cons spec
    have hrest := ih hlater
    rw [take_lastRefill] at hrest
    exact Nat.le_trans hnow hrest

/-- What all calls are granted is paid from the credit and from what has run in. -/
theorem run_credit (spec : RateBucketSpec) (h : bucket.InOrder times) :
    bucket.grants spec times * NANOS_PER_SEC + (bucket.after spec times).credit ≤
      bucket.credit +
        ((bucket.after spec times).lastRefill - bucket.lastRefill) * spec.refillPerSec.toNat := by
  induction times generalizing bucket with
  | nil =>
    rw [grants, takes, List.count_nil, Nat.zero_mul, Nat.zero_add]
    exact Nat.le_add_right _ _
  | cons now later ih =>
    obtain ⟨hnow, hlater⟩ := h.cons spec
    have hfirst := bucket.take_credit spec now
    have hrest := ih hlater
    have hend := hlater.le_after spec
    rw [take_lastRefill] at hrest hend
    rw [grants_cons, after_cons, Nat.add_mul]
    calc _ = (bucket.take spec now).1.toNat * NANOS_PER_SEC +
          ((bucket.take spec now).2.grants spec later * NANOS_PER_SEC +
            ((bucket.take spec now).2.after spec later).credit) := Nat.add_assoc _ _ _
      _ ≤ _ := Nat.add_le_add_left hrest _
      _ = _ := (Nat.add_assoc _ _ _).symm
      _ ≤ _ := Nat.add_le_add_right hfirst _
      _ = bucket.credit + ((now - bucket.lastRefill) +
          (((bucket.take spec now).2.after spec later).lastRefill - now)) *
            spec.refillPerSec.toNat := by rw [Nat.add_mul, Nat.add_assoc]
      _ = _ := by rw [add_comm (now - _), Nat.sub_add_sub_cancel hend hnow]

theorem run_credit_eq (h : bucket.InOrder times) (hunsaturated : bucket.Unsaturated spec times) :
    bucket.grants spec times + (bucket.after spec times).tokens.toNat =
        bucket.tokens.toNat + bucket.producedOver spec times ∧
      bucket.producedOver spec times * NANOS_PER_SEC + (bucket.after spec times).remNanos =
        ((bucket.after spec times).lastRefill - bucket.lastRefill) * spec.refillPerSec.toNat +
          bucket.remNanos := by
  induction times generalizing bucket with
  | nil =>
    refine ⟨Nat.zero_add _, ?_⟩
    rw [producedOver, after, takes, Nat.sub_self, Nat.zero_mul, Nat.zero_mul]
  | cons now later ih =>
    obtain ⟨hnow, hlater⟩ := h.cons spec
    obtain ⟨hproduct, hfits, hrest⟩ := hunsaturated
    obtain ⟨htokens, hwhole⟩ := take_credit_eq hproduct hfits
    obtain ⟨htokens', hwhole'⟩ := ih hlater hrest
    have hend := hlater.le_after spec
    rw [take_lastRefill] at hwhole' hend
    rw [grants_cons, after_cons, producedOver]
    constructor
    · rw [Nat.add_assoc, htokens', ← Nat.add_assoc, htokens, Nat.add_assoc]
    · calc _ = bucket.produced spec now * NANOS_PER_SEC +
              ((bucket.take spec now).2.producedOver spec later * NANOS_PER_SEC +
                ((bucket.take spec now).2.after spec later).remNanos) := by
            rw [Nat.add_mul, Nat.add_assoc]
        _ = (((bucket.take spec now).2.after spec later).lastRefill - now) *
                spec.refillPerSec.toNat +
              (bucket.produced spec now * NANOS_PER_SEC + (bucket.take spec now).2.remNanos) := by
            rw [hwhole', Nat.add_left_comm]
        _ = ((((bucket.take spec now).2.after spec later).lastRefill - now) +
                (now - bucket.lastRefill)) * spec.refillPerSec.toNat + bucket.remNanos := by
            rw [hwhole, ← Nat.add_assoc, ← Nat.add_mul]
        _ = _ := by rw [Nat.sub_add_sub_cancel hend hnow]

/-- A bucket that holds no more than its capacity, and less than a token besides. -/
structure Bounded (spec : RateBucketSpec) (bucket : TokenBucket) : Prop where
  tokens_le : bucket.tokens.toNat ≤ spec.capacity.toNat
  remNanos_lt : bucket.remNanos < NANOS_PER_SEC

theorem bounded_new (spec : RateBucketSpec) (start : Instant) : (new spec start).Bounded spec :=
  ⟨le_refl _, nanos_pos⟩

theorem bounded_take : (bucket.take spec now).2.Bounded spec := ⟨tokens_le, remNanos_lt⟩

theorem Bounded.after (h : bucket.Bounded spec) (times : List Instant) :
    (bucket.after spec times).Bounded spec := by
  induction times generalizing bucket with
  | nil => exact h
  | cons now later ih =>
    rw [after_cons]
    exact ih bounded_take

theorem InOrder.after {before : List Instant} (h : bucket.InOrder (before ++ times)) :
    (bucket.after spec before).InOrder times := by
  induction before generalizing bucket with
  | nil => exact h
  | cons now later ih =>
    rw [after_cons]
    exact ih (h.cons spec).2

/-- After the first call there is no more than the capacity, whatever was there before. -/
theorem grants_le (h : bucket.InOrder times) : bucket.grants spec times ≤ spec.capacity.toNat +
    (span times * spec.refillPerSec.toNat + NANOS_PER_SEC - 1) / NANOS_PER_SEC := by
  cases times with
  | nil => exact Nat.zero_le _
  | cons first later =>
    obtain ⟨-, hlater⟩ := h.cons spec
    have hpaid := run_credit spec hlater
    have hspan : ((bucket.take spec first).2.after spec later).lastRefill -
        (bucket.take spec first).2.lastRefill = span (first :: later) := by
      rw [lastRefill_after, take_lastRefill, span, List.getLastD_cons, List.headD_cons]
    have htokens : (bucket.take spec first).1.toNat + (bucket.take spec first).2.tokens.toNat ≤
        spec.capacity.toNat := by
      rw [take_tokens, toNat_refilled]
      exact Nat.min_le_right _ _
    have hrem : (bucket.take spec first).2.remNanos ≤ NANOS_PER_SEC - 1 :=
      Nat.le_sub_one_of_lt remNanos_lt
    rw [hspan] at hpaid
    rw [grants_cons]
    generalize (bucket.take spec first).2.grants spec later = granted at hpaid ⊢
    generalize span (first :: later) * spec.refillPerSec.toNat = gained at hpaid ⊢
    have hcapacity := Nat.mul_le_mul_right NANOS_PER_SEC htokens
    have hall : ((bucket.take spec first).1.toNat + granted) * NANOS_PER_SEC ≤
        spec.capacity.toNat * NANOS_PER_SEC + (gained + NANOS_PER_SEC - 1) := by
      unfold credit at hpaid
      rw [Nat.add_mul] at hcapacity ⊢
      have hpos := nanos_pos
      omega
    rw [← Nat.mul_add_div nanos_pos, Nat.le_div_iff_mul_le nanos_pos, Nat.mul_comm NANOS_PER_SEC]
    exact hall

theorem produced_eq (hbounded : bucket.Bounded spec) (h : bucket.InOrder times)
    (hunsaturated : bucket.Unsaturated spec times) :
    bucket.producedOver spec times =
      ((times.getLastD bucket.lastRefill - bucket.lastRefill) * spec.refillPerSec.toNat +
        bucket.remNanos) / NANOS_PER_SEC := by
  obtain ⟨-, hwhole⟩ := run_credit_eq h hunsaturated
  have hrem := (hbounded.after times).remNanos_lt
  rw [← lastRefill_after spec, ← hwhole, Nat.mul_comm, Nat.mul_add_div nanos_pos,
    Nat.div_eq_of_lt hrem, Nat.add_zero]

/-- In every run of a bucket it stays within its capacity, calls in a row are granted no more than
that and what runs in meanwhile, and what runs in is not lost unless the bucket is full. -/
theorem bucket_bounds (spec : RateBucketSpec) (start : Instant) (before window : List Instant)
    (horder : (start :: (before ++ window)).IsChain (· ≤ ·)) :
    let bucket := (new spec start).after spec before
    bucket.tokens.toNat ≤ spec.capacity.toNat ∧ bucket.remNanos < NANOS_PER_SEC ∧
    bucket.grants spec window ≤ spec.capacity.toNat +
      (span window * spec.refillPerSec.toNat + NANOS_PER_SEC - 1) / NANOS_PER_SEC ∧
    (bucket.Unsaturated spec window →
      bucket.producedOver spec window =
          ((window.getLastD bucket.lastRefill - bucket.lastRefill) * spec.refillPerSec.toNat +
            bucket.remNanos) / NANOS_PER_SEC ∧
        bucket.grants spec window + (bucket.after spec window).tokens.toNat =
          bucket.tokens.toNat + bucket.producedOver spec window) := by
  intro bucket
  have hbounded : bucket.Bounded spec := (bounded_new spec start).after before
  have hwindow : bucket.InOrder window := InOrder.after horder
  refine ⟨hbounded.tokens_le, hbounded.remNanos_lt, grants_le hwindow, fun hunsaturated => ?_⟩
  exact ⟨produced_eq hbounded hwindow hunsaturated, (run_credit_eq hwindow hunsaturated).1⟩

/-- Half a token, and then the other half. -/
theorem bucket_bounds_halves :
    let spec : RateBucketSpec := ⟨2, 1⟩
    let bucket := (new spec 0).after spec [0, 0]
    bucket.grants spec [500000000, 1000000000] ≤ 2 + 1 ∧
      bucket.producedOver spec [500000000, 1000000000] = 1 := by
  intro spec bucket
  obtain ⟨-, -, hgrants, hproduced⟩ :=
    bucket_bounds spec 0 [0, 0] [500000000, 1000000000] (by decide)
  refine ⟨hgrants.trans (by decide), (hproduced ?_).1.trans (by decide)⟩
  exact ⟨by decide, by decide, by decide, by decide, trivial⟩

end RustMcpCore.TokenBucket
