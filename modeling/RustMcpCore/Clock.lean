import Mathlib.Algebra.Order.Ring.Int

/-! # Wall-clock times

A time is a point of the system clock, and a duration of the standard library is
not negative. Sums that leave the range of the calendar panic.
-/
namespace RustMcpCore

/-- Nanoseconds since the epoch. -/
abbrev DateTime := Int

def i64Max : Int := 9223372036854775807

namespace Clock

/-- Nanoseconds. -/
abbrev Duration := ℕ

/-- `Duration::from_secs`. -/
def fromSecs (secs : UInt64) : Duration := 1000000000 * secs.toNat

/-- `TimeDelta::from_std`, which fails beyond `TimeDelta::MAX`. -/
def fromStd (duration : Duration) : Option Int :=
  if (duration : Int) ≤ i64Max * 1000000 then some duration else none

/-- `DateTime::<Utc>::MIN_UTC`, at the start of the year -262143. -/
def minUtc : DateTime := -8334601228800000000000

/-- `DateTime::<Utc>::MAX_UTC`, at the end of the year 262142. -/
def maxUtc : DateTime := 8210266876799999999999

/-- The sum of a time and a `TimeDelta`. There is none where the source panics. -/
def add (now : DateTime) (delta : Int) : Option DateTime :=
  if minUtc ≤ now + delta ∧ now + delta ≤ maxUtc then some (now + delta) else none

theorem fromStd_eq_some {duration : Duration} {delta : Int} (h : fromStd duration = some delta) :
    delta = duration := by
  rw [fromStd, Option.ite_none_right_eq_some] at h
  exact (Option.some.inj h.2).symm

theorem add_eq_some {now later : DateTime} {delta : Int} (h : add now delta = some later) :
    later = now + delta := by
  rw [add, Option.ite_none_right_eq_some] at h
  exact (Option.some.inj h.2).symm

end Clock
end RustMcpCore
