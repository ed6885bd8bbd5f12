import RustMcpCore.Auth.Outbound.TokenManager

/-! # Sums of times

When a token expires, and whether it still is fresh, are sums of a time of the calendar and a
duration that an upstream or the configuration gives. The duration may be too long for the
calendar before it is too long for its type.
-/
namespace RustMcpCore.Outbound

/-- A time that the calendar has. -/
structure Representable (time : DateTime) : Prop where
  min_le : Clock.minUtc ≤ time
  le_max : time ≤ Clock.maxUtc

/-- A number of seconds that fits the duration type, and then the sum with the time. -/
def Fits (time : DateTime) (secs : UInt64) : Prop :=
  (Clock.fromSecs secs : Int) ≤ i64Max * 1000000 → time + Clock.fromSecs secs ≤ Clock.maxUtc

/-- No sum panics, and a token is fresh exactly as long as the times say. -/
def ExpiryIsExact (issued now : DateTime) (expiresIn : Option UInt64) (skewSec : UInt64) : Prop :=
  ∃ outcome, expiresAt issued (expiresIn.map Clock.fromSecs) = some outcome ∧
    ∀ (time : Option DateTime) (entry : CachedOutboundToken), outcome = .ok time →
      entry.expiresAt = time → ∃ fresh, entry.isFresh now skewSec = some fresh ∧
        ∀ secs, expiresIn = some secs →
          (fresh = true ↔ now + Clock.fromSecs skewSec < issued + Clock.fromSecs secs)

/-- The expiry is not a duration, or it is added to the time of issue within the calendar and so
is the skew to the time of use. -/
def SumsFit (issued now : DateTime) (expiresIn : Option UInt64) (skewSec : UInt64) : Prop :=
  ∀ secs, expiresIn = some secs → (Clock.fromSecs secs : Int) ≤ i64Max * 1000000 →
    issued + Clock.fromSecs secs ≤ Clock.maxUtc ∧ Fits now skewSec

section Sums
variable {time issued now : DateTime} {secs skewSec : UInt64}

theorem fromStd_of_le {duration : Clock.Duration} (h : (duration : Int) ≤ i64Max * 1000000) :
    Clock.fromStd duration = some (duration : Int) := if_pos h

theorem fromStd_of_lt {duration : Clock.Duration} (h : ¬ (duration : Int) ≤ i64Max * 1000000) :
    Clock.fromStd duration = none := if_neg h

/-- A sum with a duration can leave the calendar at its end only. -/
theorem add_of_le {duration : Clock.Duration} (htime : Representable time)
    (h : time + duration ≤ Clock.maxUtc) :
    Clock.add time duration = some (time + (duration : Int)) := by
  have hmin : Clock.minUtc ≤ time + (duration : Int) :=
    htime.min_le.trans (Int.le_add_of_nonneg_right (Int.natCast_nonneg duration))
  exact if_pos ⟨hmin, h⟩

theorem add_of_lt {duration : Clock.Duration} (h : ¬ time + (duration : Int) ≤ Clock.maxUtc) :
    Clock.add time duration = none := if_neg fun hboth => h hboth.2

/-- A duration that is too long for its type takes every time out of the calendar. -/
theorem lt_add_of_long {duration : Clock.Duration} (htime : Representable time)
    (h : ¬ (duration : Int) ≤ i64Max * 1000000) : Clock.maxUtc < time + (duration : Int) := by
  have hbeyond : Clock.maxUtc < Clock.minUtc + (i64Max * 1000000 + 1) := by decide
  have hlong : i64Max * 1000000 + 1 ≤ (duration : Int) := not_le.mp h
  exact hbeyond.trans_le (Int.add_le_add htime.min_le hlong)

theorem isFresh_fits (hnow : Representable now) (hfits : Fits now skewSec)
    {entry : CachedOutboundToken} {expiry : DateTime} (hentry : entry.expiresAt = some expiry)
    (hexpiry : expiry ≤ Clock.maxUtc) :
    ∃ fresh, entry.isFresh now skewSec = some fresh ∧
      (fresh = true ↔ now + Clock.fromSecs skewSec < expiry) := by
  unfold CachedOutboundToken.isFresh
  rw [hentry]
  by_cases hshort : (Clock.fromSecs skewSec : Int) ≤ i64Max * 1000000
  · refine ⟨decide (now + (Clock.fromSecs skewSec : Int) < expiry), ?_, decide_eq_true_iff⟩
    simp only [fromStd_of_le hshort, add_of_le hnow (hfits hshort), Option.map_some]
  · refine ⟨false, ?_, ?_⟩
    · simp only [fromStd_of_lt hshort]
    · have hlong := lt_add_of_long hnow hshort
      exact iff_of_false Bool.false_ne_true (not_lt.mpr (hexpiry.trans hlong.le))

theorem isFresh_panics (hfits : ¬ Fits now skewSec) {entry : CachedOutboundToken}
    {expiry : DateTime} (hentry : entry.expiresAt = some expiry) :
    entry.isFresh now skewSec = none := by
  obtain ⟨hshort, hlong⟩ := Classical.not_imp.mp hfits
  unfold CachedOutboundToken.isFresh
  rw [hentry]
  simp only [fromStd_of_le hshort, add_of_lt hlong, Option.map_none]

end Sums

/-- The sums of times panic exactly where they leave the calendar. -/
theorem expiry_exact_iff {issued now : DateTime} (hissued : Representable issued)
    (hnow : Representable now) (expiresIn : Option UInt64) (skewSec : UInt64) :
    ExpiryIsExact issued now expiresIn skewSec ↔ SumsFit issued now expiresIn skewSec := by
  cases expiresIn with
  | none =>
    refine iff_of_true ⟨.ok none, rfl, ?_⟩ fun secs h => by cases h
    rintro time entry ⟨⟩ hentry
    refine ⟨true, ?_, fun _ h => by cases h⟩
    simp only [CachedOutboundToken.isFresh, hentry]
  | some secs =>
    by_cases hshort : (Clock.fromSecs secs : Int) ≤ i64Max * 1000000
    · by_cases hexpiry : issued + (Clock.fromSecs secs : Int) ≤ Clock.maxUtc
      · have hcached : expiresAt issued (some (Clock.fromSecs secs)) =
            some (.ok (some (issued + (Clock.fromSecs secs : Int)))) := by
          simp only [expiresAt, fromStd_of_le hshort, add_of_le hissued hexpiry, Option.map_some]
        constructor
        · rintro ⟨outcome, houtcome, hfresh⟩ _ ⟨⟩ -
          refine ⟨hexpiry, ?_⟩
          by_contra hskew
          cases hcached.symm.trans houtcome
          obtain ⟨fresh, hsome, -⟩ := hfresh _ ⟨"", none, _⟩ rfl rfl
          rw [isFresh_panics hskew rfl] at hsome
          cases hsome
        · intro hfit
          refine ⟨_, hcached, ?_⟩
          rintro _ entry ⟨⟩ hentry
          obtain ⟨fresh, hsome, hiff⟩ := isFresh_fits hnow (hfit secs rfl hshort).2 hentry hexpiry
          refine ⟨fresh, hsome, ?_⟩
          rintro _ ⟨⟩
          exact hiff
      · have hpanics : expiresAt issued (some (Clock.fromSecs secs)) = none := by
          simp only [expiresAt, fromStd_of_le hshort, add_of_lt hexpiry, Option.map_none]
        refine iff_of_false ?_ fun hfit => hexpiry (hfit secs rfl hshort).1
        rintro ⟨outcome, houtcome, -⟩
        cases hpanics.symm.trans houtcome
    · have hrefused : ∃ error, expiresAt issued (some (Clock.fromSecs secs)) =
          some (.error error) := by
        refine ⟨.internalError s!"invalid oauth2 expiry: {OUT_OF_RANGE_ERROR}" none, ?_⟩
        simp only [expiresAt, fromStd_of_lt hshort]
      obtain ⟨error, hrefused⟩ := hrefused
      refine iff_of_true ⟨.error error, hrefused, ?_⟩ ?_
      · rintro time entry ⟨⟩
      · rintro _ ⟨⟩ hshort'
        exact absurd hshort' hshort

/-- A token endpoint that grants nine trillion seconds. -/
theorem expiry_beyond_calendar :
    expiresAt 0 (some (Clock.fromSecs 9000000000000)) = none ∧
    ¬ ExpiryIsExact 0 0 (some 9000000000000) 60 := by
  refine ⟨rfl, ?_⟩
  rintro ⟨outcome, houtcome, -⟩
  cases houtcome

theorem expiry_exact_hour : ExpiryIsExact 0 0 (some 3600) 60 := by
  refine (expiry_exact_iff ⟨by decide, by decide⟩ ⟨by decide, by decide⟩ (some 3600) 60).mpr ?_
  rintro _ ⟨⟩ -
  exact ⟨by decide, fun _ => by decide⟩

end RustMcpCore.Outbound
