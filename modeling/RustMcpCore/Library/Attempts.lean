import Mathlib.Data.Nat.Basic

/-! # Attempts within a budget

An attempt is refused, or it is made and has a result. Some results ask for another
attempt, after a pause that may be cut short. A course is a run of attempts and, if the
result of it is rejected, a renewal and a second run with a budget of its own.
-/
namespace RustMcpCore.Library

/-- Attempts are numbered by how many have been made before. -/
structure Attempts (R : Type) where
  /-- What comes in place of the attempt. -/
  refusal : ℕ → Option R
  result : ℕ → R
  again : ℕ → Bool
  /-- What comes of a pause before the attempt that is cut short. -/
  cut : ℕ → Option R

namespace Attempts
variable {R : Type} (attempts : Attempts R) (left k : ℕ)

/-- What a run ends with, and how many attempts have been made then. It starts after
`k` attempts, with `left` of them left after the next. -/
def run : ℕ → ℕ → R × ℕ
  | 0, k =>
    match attempts.refusal k with
    | some refused => (refused, k)
    | none => (attempts.result k, k + 1)
  | left + 1, k =>
    match attempts.refusal k with
    | some refused => (refused, k)
    | none =>
      if attempts.again k then
        match attempts.cut (k + 1) with
        | some cut => (cut, k + 1)
        | none => run left (k + 1)
      else (attempts.result k, k + 1)

/-- The attempt after `m` others is made, if the budget is large enough. -/
def Reaches (k m : ℕ) : Prop :=
  (∀ i ≤ m, attempts.refusal (k + i) = none) ∧
    ∀ i < m, attempts.again (k + i) = true ∧ attempts.cut (k + i + 1) = none

/-- The attempt after `m` others is the last one, and its result is the one of the run. -/
structure Settles (left k m : ℕ) : Prop where
  reaches : attempts.Reaches k m
  within : m ≤ left
  last : m = left ∨ attempts.again (k + m) = false

variable {attempts left k}

theorem run_refused {refused : R} (h : attempts.refusal k = some refused) :
    attempts.run left k = (refused, k) := by
  cases left with
  | zero => simp only [run, h]
  | succ left => simp only [run, h]

theorem run_last (h : attempts.refusal k = none) (hagain : left = 0 ∨ attempts.again k = false) :
    attempts.run left k = (attempts.result k, k + 1) := by
  cases left with
  | zero => simp only [run, h]
  | succ left =>
    have hagain := hagain.resolve_left (Nat.succ_ne_zero left)
    simp only [run, h, hagain, Bool.false_eq_true, if_false]

theorem run_cut {cut : R} (h : attempts.refusal k = none) (hagain : attempts.again k = true)
    (hcut : attempts.cut (k + 1) = some cut) : attempts.run (left + 1) k = (cut, k + 1) := by
  simp only [run, h, hagain, if_true, hcut]

theorem run_again (h : attempts.refusal k = none) (hagain : attempts.again k = true)
    (hcut : attempts.cut (k + 1) = none) :
    attempts.run (left + 1) k = attempts.run left (k + 1) := by
  simp only [run, h, hagain, if_true, hcut]

theorem reaches_zero : attempts.Reaches k 0 ↔ attempts.refusal k = none := by
  constructor
  · exact fun h => h.1 0 (le_refl 0)
  · intro h
    refine ⟨fun i hi => ?_, fun i hi => absurd hi (Nat.not_lt_zero i)⟩
    rw [Nat.le_zero.mp hi]
    exact h

theorem reaches_succ {m : ℕ} : attempts.Reaches k (m + 1) ↔
    attempts.refusal k = none ∧ attempts.again k = true ∧ attempts.cut (k + 1) = none ∧
      attempts.Reaches (k + 1) m := by
  constructor
  · intro h
    refine ⟨h.1 0 (Nat.zero_le _), (h.2 0 (Nat.succ_pos m)).1, (h.2 0 (Nat.succ_pos m)).2, ?_, ?_⟩
    · intro i hi
      have hmade := h.1 (i + 1) (by omega)
      rwa [show k + (i + 1) = k + 1 + i by omega] at hmade
    · intro i hi
      have hgoes := h.2 (i + 1) (by omega)
      rwa [show k + (i + 1) = k + 1 + i by omega] at hgoes
  · rintro ⟨hmade, hagain, hcut, hrest⟩
    constructor
    · intro i hi
      cases i with
      | zero => exact hmade
      | succ i =>
        rw [show k + (i + 1) = k + 1 + i by omega]
        exact hrest.1 i (by omega)
    · intro i hi
      cases i with
      | zero => exact ⟨hagain, hcut⟩
      | succ i =>
        rw [show k + (i + 1) = k + 1 + i by omega]
        exact hrest.2 i (by omega)

variable (attempts left k) in
theorem le_run : k ≤ (attempts.run left k).2 := by
  induction left generalizing k with
  | zero =>
    unfold run
    split
    · exact le_refl k
    · exact Nat.le_succ k
  | succ left ih =>
    unfold run
    split
    · exact le_refl k
    · split
      · split
        · exact Nat.le_succ k
        · exact Nat.le_trans (Nat.le_succ k) (ih (k + 1))
      · exact Nat.le_succ k

variable (left) in
theorem lt_run (h : attempts.refusal k = none) : k < (attempts.run left k).2 := by
  cases left with
  | zero =>
    rw [run_last h (.inl rfl)]
    exact Nat.lt_succ_self k
  | succ left =>
    cases hagain : attempts.again k with
    | false =>
      rw [run_last h (.inr hagain)]
      exact Nat.lt_succ_self k
    | true =>
      cases hcut : attempts.cut (k + 1) with
      | some cut =>
        rw [run_cut h hagain hcut]
        exact Nat.lt_succ_self k
      | none =>
        rw [run_again h hagain hcut]
        exact le_run attempts left (k + 1)

theorem not_reaches_of_refused {refused : R} (hrefusal : attempts.refusal k = some refused)
    (m : ℕ) : ¬ attempts.Reaches k m := by
  intro h
  have hmade := h.1 0 (Nat.zero_le m)
  rw [Nat.add_zero, hrefusal] at hmade
  cases hmade

variable (attempts left k) in
/-- How many attempts a run makes. -/
theorem lt_run_iff (m : ℕ) :
    k + m < (attempts.run left k).2 ↔ m ≤ left ∧ attempts.Reaches k m := by
  induction left generalizing k m with
  | zero =>
    cases hrefusal : attempts.refusal k with
    | some refused =>
      rw [run_refused hrefusal]
      exact iff_of_false (by omega) fun h => not_reaches_of_refused hrefusal m h.2
    | none =>
      rw [run_last hrefusal (.inl rfl)]
      constructor
      · intro h
        have hm : m = 0 := by omega
        rw [hm]
        exact ⟨le_refl 0, reaches_zero.mpr hrefusal⟩
      · rintro ⟨hm, -⟩
        simp only
        omega
  | succ left ih =>
    cases hrefusal : attempts.refusal k with
    | some refused =>
      rw [run_refused hrefusal]
      exact iff_of_false (by omega) fun h => not_reaches_of_refused hrefusal m h.2
    | none =>
      cases m with
      | zero =>
        exact iff_of_true (lt_run (left + 1) hrefusal) ⟨Nat.zero_le _, reaches_zero.mpr hrefusal⟩
      | succ m =>
        rw [reaches_succ]
        cases hagain : attempts.again k with
        | false =>
          rw [run_last hrefusal (.inr hagain)]
          exact iff_of_false (by simp only; omega) fun h => by cases h.2.2.1
        | true =>
          cases hcut : attempts.cut (k + 1) with
          | some cut =>
            rw [run_cut hrefusal hagain hcut]
            exact iff_of_false (by simp only; omega) fun h => by cases h.2.2.2.1
          | none =>
            rw [run_again hrefusal hagain hcut, show k + (m + 1) = k + 1 + m by omega, ih]
            constructor
            · rintro ⟨hm, hrest⟩
              exact ⟨by omega, hrefusal, rfl, rfl, hrest⟩
            · rintro ⟨hm, -, -, -, hrest⟩
              exact ⟨by omega, hrest⟩

variable (attempts left k) in
theorem run_le : (attempts.run left k).2 ≤ k + left + 1 := by
  by_contra h
  have hmade : k + (left + 1) < (attempts.run left k).2 := by omega
  have hwithin := ((lt_run_iff attempts left k (left + 1)).mp hmade).1
  omega

theorem Settles.run_eq {m : ℕ} (h : attempts.Settles left k m) :
    attempts.run left k = (attempts.result (k + m), k + m + 1) := by
  induction m generalizing left k with
  | zero =>
    refine run_last (reaches_zero.mp h.reaches) ?_
    rcases h.last with hlast | hlast
    · exact .inl hlast.symm
    · exact .inr hlast
  | succ m ih =>
    obtain ⟨hmade, hagain, hcut, hrest⟩ := reaches_succ.mp h.reaches
    have hpos : 0 < left := Nat.lt_of_lt_of_le (Nat.succ_pos m) h.within
    obtain ⟨left, rfl⟩ := Nat.exists_eq_succ_of_ne_zero (Nat.ne_of_gt hpos)
    have hlast : m = left ∨ attempts.again (k + 1 + m) = false := by
      have hstep : k + (m + 1) = k + 1 + m := by omega
      have hend := h.last
      rw [hstep] at hend
      exact hend.imp_left fun heq => by omega
    have hwithin := h.within
    rw [run_again hmade hagain hcut, ih ⟨hrest, by omega, hlast⟩,
      show k + 1 + m = k + (m + 1) by omega]

/-- A run ends in the result of an attempt, if not by a refusal or a cut. -/
theorem settles_of_run {rejected : R → Bool}
    (hrefusal : ∀ k refused, attempts.refusal k = some refused → rejected refused = false)
    (hcut : ∀ k cut, attempts.cut k = some cut → rejected cut = false)
    (h : rejected (attempts.run left k).1 = true) :
    ∃ m, attempts.Settles left k m ∧ rejected (attempts.result (k + m)) = true := by
  induction left generalizing k with
  | zero =>
    cases hmade : attempts.refusal k with
    | some refused =>
      rw [run_refused hmade, hrefusal k refused hmade] at h
      cases h
    | none =>
      rw [run_last hmade (.inl rfl)] at h
      exact ⟨0, ⟨reaches_zero.mpr hmade, le_refl 0, .inl rfl⟩, h⟩
  | succ left ih =>
    cases hmade : attempts.refusal k with
    | some refused =>
      rw [run_refused hmade, hrefusal k refused hmade] at h
      cases h
    | none =>
      cases hagain : attempts.again k with
      | false =>
        rw [run_last hmade (.inr hagain)] at h
        exact ⟨0, ⟨reaches_zero.mpr hmade, Nat.zero_le _, .inr hagain⟩, h⟩
      | true =>
        cases hpause : attempts.cut (k + 1) with
        | some cut =>
          rw [run_cut hmade hagain hpause, hcut (k + 1) cut hpause] at h
          cases h
        | none =>
          rw [run_again hmade hagain hpause] at h
          obtain ⟨m, hsettles, hrejected⟩ := ih h
          have hstep : k + 1 + m = k + (m + 1) := by omega
          rw [hstep] at hrejected
          refine ⟨m + 1, ⟨?_, Nat.succ_le_succ hsettles.within, ?_⟩, hrejected⟩
          · exact reaches_succ.mpr ⟨hmade, hagain, hpause, hsettles.reaches⟩
          · have hlast := hsettles.last
            rw [hstep] at hlast
            exact hlast.imp_left (congrArg (· + 1))

theorem Settles.unique {m n : ℕ} (h : attempts.Settles left k m)
    (h' : attempts.Settles left k n) : m = n := by
  have heq := h.run_eq.symm.trans h'.run_eq
  have hmade := congrArg Prod.snd heq
  simp only at hmade
  omega

/-- Attempts that differ in what is refused after `k` others, and in nothing else. -/
structure SameBut (attempts spared : Attempts R) (k : ℕ) : Prop where
  refusal : ∀ j, j ≠ k → attempts.refusal j = spared.refusal j
  result : attempts.result = spared.result
  again : attempts.again = spared.again
  cut : attempts.cut = spared.cut

theorem SameBut.reaches {spared : Attempts R} {n m : ℕ} (h : attempts.SameBut spared n)
    (hbefore : k + m < n) : attempts.Reaches k m ↔ spared.Reaches k m := by
  unfold Reaches
  rw [h.again, h.cut]
  refine and_congr_left fun _ => forall₂_congr fun i hi => ?_
  rw [h.refusal (k + i) (by omega)]

theorem SameBut.settles {spared : Attempts R} {n m : ℕ} (h : attempts.SameBut spared n)
    (hbefore : k + m < n) (hsettles : spared.Settles left k m) : attempts.Settles left k m := by
  refine ⟨(h.reaches hbefore).mpr hsettles.reaches, hsettles.within, ?_⟩
  rw [h.again]
  exact hsettles.last

/-- A run comes to the attempt that is spared in the other. -/
theorem SameBut.run_refused {spared : Attempts R} {n : ℕ} (h : attempts.SameBut spared n)
    {refused : R} (hrefusal : attempts.refusal n = some refused) (hstart : k ≤ n)
    (hmade : n < (spared.run left k).2) : attempts.run left k = (refused, n) := by
  obtain ⟨m, rfl⟩ := Nat.exists_eq_add_of_le hstart
  obtain ⟨hwithin, hreaches⟩ := (lt_run_iff spared left k m).mp hmade
  clear hmade hstart
  induction m generalizing left k with
  | zero => exact Attempts.run_refused hrefusal
  | succ m ih =>
    obtain ⟨hmade, hagain, hcut, hrest⟩ := reaches_succ.mp hreaches
    have hpos : 0 < left := Nat.lt_of_lt_of_le (Nat.succ_pos m) hwithin
    obtain ⟨left, rfl⟩ := Nat.exists_eq_succ_of_ne_zero (Nat.ne_of_gt hpos)
    have hstep : k + (m + 1) = k + 1 + m := by omega
    rw [← h.refusal k (by omega)] at hmade
    rw [← h.again] at hagain
    rw [← h.cut] at hcut
    rw [run_again hmade hagain hcut]
    rw [hstep] at h hrefusal ⊢
    exact ih h hrefusal (by omega) hrest

/-- Nothing is refused and nothing cut short. -/
structure Steady (attempts : Attempts R) : Prop where
  made : ∀ k, attempts.refusal k = none
  uncut : ∀ k, attempts.cut k = none

theorem Steady.reaches_iff (h : attempts.Steady) {m : ℕ} :
    attempts.Reaches k m ↔ ∀ i < m, attempts.again (k + i) = true := by
  constructor
  · exact fun hreaches i hi => (hreaches.2 i hi).1
  · exact fun hagain => ⟨fun _ _ => h.made _, fun i hi => ⟨hagain i hi, h.uncut _⟩⟩

theorem Steady.settles_iff (h : attempts.Steady) {m : ℕ} :
    attempts.Settles left k m ↔ (attempts.run left k).2 = k + m + 1 := by
  constructor
  · intro hsettles
    rw [hsettles.run_eq]
  · intro hmade
    obtain ⟨hwithin, hreaches⟩ := (lt_run_iff attempts left k m).mp (by rw [hmade]; omega)
    refine ⟨hreaches, hwithin, ?_⟩
    rw [or_iff_not_imp_right, Bool.not_eq_false]
    intro hagain
    by_contra hlast
    have hnext : attempts.Reaches k (m + 1) := by
      rw [h.reaches_iff] at hreaches ⊢
      intro i hi
      rcases Nat.lt_succ_iff_lt_or_eq.mp hi with hi | rfl
      · exact hreaches i hi
      · exact hagain
    have hbefore : m + 1 ≤ left := Nat.succ_le_of_lt (Nat.lt_of_le_of_ne hwithin hlast)
    have hlt := (lt_run_iff attempts left k (m + 1)).mpr ⟨hbefore, hnext⟩
    omega

/-- The runs of both go on after the same attempts. -/
def Agree {S : Type} (attempts : Attempts R) (attempts' : Attempts S) (left k : ℕ) : Prop :=
  ∀ m < left, (∀ i < m, attempts.again (k + i) = true) →
    attempts.again (k + m) = attempts'.again (k + m)

theorem made_eq_iff {S : Type} {attempts' : Attempts S} (h : attempts.Steady)
    (h' : attempts'.Steady) :
    (attempts.run left k).2 = (attempts'.run left k).2 ↔ attempts.Agree attempts' left k := by
  constructor
  · intro hmade m hm hbefore
    have hreaches : ∀ n ≤ left, attempts.Reaches k n ↔ attempts'.Reaches k n := by
      intro n hn
      have hlt := lt_run_iff attempts left k n
      rw [hmade, lt_run_iff] at hlt
      exact ⟨fun hn' => (hlt.mpr ⟨hn, hn'⟩).2, fun hn' => (hlt.mp ⟨hn, hn'⟩).2⟩
    have hm' := (hreaches m (Nat.le_of_lt hm)).mp (h.reaches_iff.mpr hbefore)
    have hnext := hreaches (m + 1) hm
    rw [h.reaches_iff, h'.reaches_iff, Nat.forall_lt_succ_right, Nat.forall_lt_succ_right] at hnext
    rw [h'.reaches_iff] at hm'
    rw [Bool.eq_iff_iff]
    exact ⟨fun hagain => (hnext.mp ⟨hbefore, hagain⟩).2, fun hagain => (hnext.mpr ⟨hm', hagain⟩).2⟩
  · intro hagree
    have hreaches : ∀ n ≤ left, attempts.Reaches k n ↔ attempts'.Reaches k n := by
      intro n
      induction n with
      | zero =>
        exact fun _ => iff_of_true (reaches_zero.mpr (h.made k)) (reaches_zero.mpr (h'.made k))
      | succ n ih =>
        intro hn
        have hn' := ih (by omega)
        rw [h.reaches_iff, h'.reaches_iff] at hn' ⊢
        rw [Nat.forall_lt_succ_right, Nat.forall_lt_succ_right, ← hn']
        refine and_congr_right fun hbefore => ?_
        rw [hagree n (by omega) hbefore]
    have hlt : ∀ n, k + n < (attempts.run left k).2 ↔ k + n < (attempts'.run left k).2 := by
      intro n
      rw [lt_run_iff, lt_run_iff]
      exact and_congr_right (hreaches n)
    have hle := le_run attempts left k
    have hle' := le_run attempts' left k
    obtain ⟨n, hn⟩ := Nat.exists_eq_add_of_le hle
    obtain ⟨n', hn'⟩ := Nat.exists_eq_add_of_le hle'
    have hfirst := hlt n
    have hsecond := hlt n'
    omega

end Attempts

/-! ## Courses -/

structure Course (R : Type) where
  left : ℕ
  first : Attempts R
  rejected : R → Bool
  /-- What comes of a renewal after so many attempts, if it fails. -/
  renewal : ℕ → Option R
  /-- The attempts after a renewal. -/
  second : ℕ → Attempts R
  refusal_kept : ∀ k refused, first.refusal k = some refused → rejected refused = false
  cut_kept : ∀ k cut, first.cut k = some cut → rejected cut = false

namespace Course
open Attempts
variable {R S : Type} (course : Course R)

/-- The result, the number of attempts, and after how many of them there was a renewal. -/
def run : R × ℕ × Option ℕ :=
  let (result, made) := course.first.run course.left 0
  if course.rejected result then
    match course.renewal made with
    | some failed => (failed, made, some made)
    | none =>
      let (result, total) := (course.second made).run course.left made
      (result, total, some made)
  else (result, made, none)

variable {course}

theorem run_accepted (h : course.rejected (course.first.run course.left 0).1 = false) :
    course.run =
      ((course.first.run course.left 0).1, (course.first.run course.left 0).2, none) := by
  simp only [run, h, Bool.false_eq_true, if_false]

/-- The last attempt of the first run, if its result is rejected. -/
structure Renews (course : Course R) (m : ℕ) : Prop where
  settles : course.first.Settles course.left 0 m
  rejected : course.rejected (course.first.result m) = true

theorem renews_of_rejected (h : course.rejected (course.first.run course.left 0).1 = true) :
    ∃ m, course.Renews m := by
  obtain ⟨m, hsettles, hrejected⟩ := settles_of_run course.refusal_kept course.cut_kept h
  rw [Nat.zero_add] at hrejected
  exact ⟨m, hsettles, hrejected⟩

theorem Renews.first_run {m : ℕ} (h : course.Renews m) :
    course.first.run course.left 0 = (course.first.result m, m + 1) := by
  rw [h.settles.run_eq, Nat.zero_add]

theorem Renews.run_failed {m : ℕ} (h : course.Renews m) {failed : R}
    (hrenewal : course.renewal (m + 1) = some failed) :
    course.run = (failed, m + 1, some (m + 1)) := by
  simp only [run, h.first_run, h.rejected, if_true, hrenewal]

theorem Renews.run_second {m : ℕ} (h : course.Renews m) (hrenewal : course.renewal (m + 1) = none) :
    course.run = (((course.second (m + 1)).run course.left (m + 1)).1,
      ((course.second (m + 1)).run course.left (m + 1)).2, some (m + 1)) := by
  simp only [run, h.first_run, h.rejected, if_true, hrenewal]

variable (course) in
/-- After a renewal that was not the first thing, the second run uses up more than what the
first has left, and one. -/
def Overspends : Prop :=
  ∃ m, 0 < m ∧ course.Renews m ∧ course.renewal (m + 1) = none ∧
    (course.second (m + 1)).Reaches (m + 1) (course.left + 1 - m)

theorem made_le_of_accepted (h : ∀ result, course.rejected result = false) :
    course.run.2.1 ≤ course.left + 1 := by
  rw [run_accepted (h _)]
  have hle := run_le course.first course.left 0
  simp only
  omega

/-- A second run has a budget of its own. -/
theorem made_le_iff : course.run.2.1 ≤ course.left + 2 ↔ ¬ course.Overspends := by
  unfold Overspends
  cases hrejected : course.rejected (course.first.run course.left 0).1 with
  | false =>
    rw [run_accepted hrejected]
    have hle := run_le course.first course.left 0
    refine iff_of_true (by simp only; omega) ?_
    rintro ⟨m, -, hrenews, -⟩
    rw [hrenews.first_run, hrenews.rejected] at hrejected
    cases hrejected
  | true =>
    obtain ⟨m, hrenews⟩ := renews_of_rejected hrejected
    have hwithin := hrenews.settles.within
    have hunique : ∀ n, course.Renews n → n = m := fun n hn => hn.settles.unique hrenews.settles
    cases hrenewal : course.renewal (m + 1) with
    | some failed =>
      rw [hrenews.run_failed hrenewal]
      refine iff_of_true (by simp only; omega) ?_
      rintro ⟨n, -, hn, hnone, -⟩
      rw [hunique n hn, hrenewal] at hnone
      cases hnone
    | none =>
      rw [hrenews.run_second hrenewal, ← not_lt, not_iff_not]
      simp only
      have hsum : m + 1 + (course.left + 1 - m) = course.left + 2 := by omega
      have hlt := lt_run_iff (course.second (m + 1)) course.left (m + 1) (course.left + 1 - m)
      rw [hsum] at hlt
      rw [hlt]
      constructor
      · rintro ⟨hle, hreaches⟩
        exact ⟨m, by omega, hrenews, hrenewal, hreaches⟩
      · rintro ⟨n, hpos, hn, -, hreaches⟩
        rw [hunique n hn] at hpos hreaches
        exact ⟨by omega, hreaches⟩

/-! A course with a single attempt makes it, and another after a renewal. -/

section Single
variable (hleft : course.left = 0)
include hleft

theorem first_iff : 0 < course.run.2.1 ↔ course.first.refusal 0 = none := by
  cases hrefusal : course.first.refusal 0 with
  | some refused =>
    have hrun : course.first.run course.left 0 = (refused, 0) := run_refused hrefusal
    have hkept : course.rejected (course.first.run course.left 0).1 = false := by
      rw [hrun]
      exact course.refusal_kept 0 refused hrefusal
    rw [run_accepted hkept, hrun]
    exact iff_of_false (lt_irrefl 0) (Option.some_ne_none refused)
  | none =>
    have hrun : course.first.run course.left 0 = (course.first.result 0, 1) :=
      run_last hrefusal (.inl hleft)
    refine iff_of_true ?_ rfl
    cases hrejected : course.rejected (course.first.run course.left 0).1 with
    | false =>
      rw [run_accepted hrejected, hrun]
      exact Nat.zero_lt_one
    | true =>
      obtain ⟨m, hrenews⟩ := renews_of_rejected hrejected
      cases hrenewal : course.renewal (m + 1) with
      | some failed =>
        rw [hrenews.run_failed hrenewal]
        exact Nat.succ_pos m
      | none =>
        rw [hrenews.run_second hrenewal]
        exact Nat.lt_of_lt_of_le (Nat.succ_pos m) (le_run _ _ _)

theorem renews_single {m : ℕ} : course.Renews m ↔
    m = 0 ∧ course.first.refusal 0 = none ∧ course.rejected (course.first.result 0) = true := by
  constructor
  · intro h
    have hm : m = 0 := Nat.le_zero.mp (hleft ▸ h.settles.within)
    subst hm
    exact ⟨rfl, reaches_zero.mp h.settles.reaches, h.rejected⟩
  · rintro ⟨rfl, hmade, hrejected⟩
    exact ⟨⟨reaches_zero.mpr hmade, Nat.zero_le _, .inl hleft.symm⟩, hrejected⟩

theorem second_iff : 1 < course.run.2.1 ↔
    course.first.refusal 0 = none ∧ course.rejected (course.first.result 0) = true ∧
      course.renewal 1 = none ∧ (course.second 1).refusal 1 = none := by
  cases hrejected : course.rejected (course.first.run course.left 0).1 with
  | false =>
    rw [run_accepted hrejected]
    have hle := run_le course.first course.left 0
    refine iff_of_false (by simp only; omega) ?_
    rintro ⟨hmade, hresult, -⟩
    rw [run_last hmade (.inl hleft), hresult] at hrejected
    cases hrejected
  | true =>
    obtain ⟨m, hrenews⟩ := renews_of_rejected hrejected
    obtain ⟨rfl, hmade, hresult⟩ := (renews_single hleft).mp hrenews
    cases hrenewal : course.renewal 1 with
    | some failed =>
      rw [hrenews.run_failed hrenewal]
      exact iff_of_false (lt_irrefl 1) fun h => by cases h.2.2.1
    | none =>
      rw [hrenews.run_second hrenewal]
      have hlt := lt_run_iff (course.second 1) course.left 1 0
      rw [reaches_zero] at hlt
      exact ⟨fun h => ⟨hmade, hresult, rfl, (hlt.mp h).2⟩,
        fun h => hlt.mpr ⟨Nat.zero_le _, h.2.2.2⟩⟩

theorem made_le_two : course.run.2.1 ≤ 2 := by
  have hspends : ¬ course.Overspends := by
    rintro ⟨m, hpos, hrenews, -⟩
    have hm := ((renews_single hleft).mp hrenews).1
    omega
  have hle := made_le_iff.mpr hspends
  omega

end Single

/-- The first run ends where the renewal is, or else where the course does. -/
theorem first_made : (course.first.run course.left 0).2 = course.run.2.2.getD course.run.2.1 := by
  cases hrejected : course.rejected (course.first.run course.left 0).1 with
  | false => rw [run_accepted hrejected, Option.getD_none]
  | true =>
    obtain ⟨m, hrenews⟩ := renews_of_rejected hrejected
    rw [hrenews.first_run]
    cases hrenewal : course.renewal (m + 1) with
    | some failed => rw [hrenews.run_failed hrenewal, Option.getD_some]
    | none => rw [hrenews.run_second hrenewal, Option.getD_some]

/-- Both runs of a course go on after the same attempts as those of another. -/
structure Matches (course : Course R) (other : Course S) : Prop where
  first_steady : course.first.Steady
  first : course.first.Agree other.first course.left 0
  second_steady : ∀ m, course.Renews m → course.renewal (m + 1) = none →
    (course.second (m + 1)).Steady
  second : ∀ m, course.Renews m → course.renewal (m + 1) = none →
    (course.second (m + 1)).Agree (other.second (m + 1)) course.left (m + 1)

/-- A run that is refused at the start makes no attempt, a steady one makes some. -/
theorem steady_of_made {attempts : Attempts R} {attempts' : Attempts S} {left k : ℕ}
    (h : attempts.Steady ∨ ∀ k, attempts.refusal k ≠ none) (h' : attempts'.Steady)
    (hmade : (attempts.run left k).2 = (attempts'.run left k).2) : attempts.Steady := by
  refine h.resolve_right fun hrefusal => ?_
  obtain ⟨refused, hrefused⟩ := Option.ne_none_iff_exists'.mp (hrefusal k)
  have hlt := lt_run left (h'.made k)
  rw [← hmade, run_refused hrefused] at hlt
  exact lt_irrefl k hlt

theorem renews_iff {other : Course S} (hleft : course.left = other.left)
    (hsteady : course.first.Steady) (hsteady' : other.first.Steady)
    (hrejected : ∀ k, course.rejected (course.first.result k) =
      other.rejected (other.first.result k))
    (hmade : (course.first.run course.left 0).2 = (other.first.run course.left 0).2) (m : ℕ) :
    course.Renews m ↔ other.Renews m := by
  have hsettles : course.first.Settles course.left 0 m ↔ other.first.Settles other.left 0 m := by
    rw [← hleft, hsteady.settles_iff, hsteady'.settles_iff, hmade]
  constructor
  · intro h
    exact ⟨hsettles.mp h.settles, by rw [← hrejected]; exact h.rejected⟩
  · intro h
    exact ⟨hsettles.mpr h.settles, by rw [hrejected]; exact h.rejected⟩

/-- When two courses make the same attempts and renew after the same one. The attempts of
the other are never refused, and those of a run of the one all are or none is. -/
theorem same_iff {other : Course S} (hleft : course.left = other.left)
    (hfirst : course.first.Steady ∨ ∀ k, course.first.refusal k ≠ none)
    (hsecond : ∀ n, (course.second n).Steady ∨ ∀ k, (course.second n).refusal k ≠ none)
    (hfirst' : other.first.Steady) (hsecond' : ∀ n, (other.second n).Steady)
    (hrejected : ∀ k, course.rejected (course.first.result k) =
      other.rejected (other.first.result k))
    (hrenewal : ∀ k, course.renewal k = none ↔ other.renewal k = none) :
    course.run.2 = other.run.2 ↔ course.Matches other := by
  constructor
  · intro hsame
    have hmade : (course.first.run course.left 0).2 = (other.first.run course.left 0).2 := by
      rw [first_made, hsame, ← first_made, hleft]
    have hsteady := steady_of_made hfirst hfirst' hmade
    have hrenews := renews_iff hleft hsteady hfirst' hrejected hmade
    have hrun : ∀ m, course.Renews m → course.renewal (m + 1) = none →
        ((course.second (m + 1)).run course.left (m + 1)).2 =
          ((other.second (m + 1)).run course.left (m + 1)).2 := by
      intro m h hnone
      have hother := ((hrenews m).mp h).run_second ((hrenewal (m + 1)).mp hnone)
      rw [h.run_second hnone, hother, ← hleft] at hsame
      exact congrArg Prod.fst hsame
    have hsteady' : ∀ m, course.Renews m → course.renewal (m + 1) = none →
        (course.second (m + 1)).Steady := fun m h hnone =>
      steady_of_made (hsecond (m + 1)) (hsecond' (m + 1)) (hrun m h hnone)
    exact ⟨hsteady, (made_eq_iff hsteady hfirst').mp hmade, hsteady', fun m h hnone =>
      (made_eq_iff (hsteady' m h hnone) (hsecond' (m + 1))).mp (hrun m h hnone)⟩
  · intro hmatches
    have hmade := (made_eq_iff hmatches.first_steady hfirst').mpr hmatches.first
    have hrenews := renews_iff hleft hmatches.first_steady hfirst' hrejected hmade
    cases hresult : course.rejected (course.first.run course.left 0).1 with
    | false =>
      have haccepted : other.rejected (other.first.run other.left 0).1 = false := by
        rw [Bool.eq_false_iff]
        intro h
        obtain ⟨m, hm⟩ := renews_of_rejected h
        have hrenewed := (hrenews m).mpr hm
        rw [hrenewed.first_run, hrenewed.rejected] at hresult
        cases hresult
      rw [run_accepted hresult, run_accepted haccepted, hmade, hleft]
    | true =>
      obtain ⟨m, h⟩ := renews_of_rejected hresult
      have h' := (hrenews m).mp h
      cases hnone : course.renewal (m + 1) with
      | some failed =>
        obtain ⟨failed', hfailed'⟩ := Option.ne_none_iff_exists'.mp
          (mt (hrenewal (m + 1)).mpr (by rw [hnone]; exact Option.some_ne_none failed))
        rw [h.run_failed hnone, h'.run_failed hfailed']
      | none =>
        have hsecond_made := (made_eq_iff (hmatches.second_steady m h hnone)
          (hsecond' (m + 1))).mpr (hmatches.second m h hnone)
        rw [h.run_second hnone, h'.run_second ((hrenewal (m + 1)).mp hnone), hsecond_made, hleft]

/-- Courses whose attempts differ in what is refused after `k` others. -/
structure SameBut (course spared : Course R) (k : ℕ) : Prop where
  left : course.left = spared.left
  first : course.first.SameBut spared.first k
  rejected : course.rejected = spared.rejected
  renewal : course.renewal = spared.renewal
  second : ∀ n, (course.second n).SameBut (spared.second n) k

/-- A course comes to the attempt that is spared in the other, and ends there. -/
theorem SameBut.run_refused {spared : Course R} {k : ℕ} (h : course.SameBut spared k) {refused : R}
    (hfirst : course.first.refusal k = some refused)
    (hsecond : ∀ n, (course.second n).refusal k = some refused) (hmade : k < spared.run.2.1) :
    course.run.1 = refused ∧ course.run.2.1 = k := by
  have hkept := course.refusal_kept k refused hfirst
  have hearly : k < (spared.first.run spared.left 0).2 →
      course.run.1 = refused ∧ course.run.2.1 = k := by
    intro hlt
    have hrun : course.first.run course.left 0 = (refused, k) :=
      h.first.run_refused hfirst (Nat.zero_le k) (by rw [h.left]; exact hlt)
    rw [run_accepted (by rw [hrun]; exact hkept), hrun]
    exact ⟨rfl, rfl⟩
  cases hrejected : spared.rejected (spared.first.run spared.left 0).1 with
  | false =>
    rw [run_accepted hrejected] at hmade
    exact hearly hmade
  | true =>
    obtain ⟨m, hm⟩ := renews_of_rejected hrejected
    rcases Nat.lt_or_ge k (m + 1) with hlt | hge
    · refine hearly ?_
      rw [hm.first_run]
      exact hlt
    · have hsettles : course.first.Settles course.left 0 m := by
        refine h.first.settles (by omega) ?_
        rw [h.left]
        exact hm.settles
      have hrenews : course.Renews m := by
        refine ⟨hsettles, ?_⟩
        rw [h.rejected, h.first.result]
        exact hm.rejected
      cases hrenewal : spared.renewal (m + 1) with
      | some failed =>
        rw [hm.run_failed hrenewal] at hmade
        exact absurd hmade (Nat.not_lt.mpr hge)
      | none =>
        rw [hm.run_second hrenewal] at hmade
        rw [← h.left] at hmade
        have hrun : (course.second (m + 1)).run course.left (m + 1) = (refused, k) :=
          (h.second (m + 1)).run_refused (hsecond (m + 1)) hge hmade
        rw [hrenews.run_second (by rw [h.renewal]; exact hrenewal), hrun]
        exact ⟨rfl, rfl⟩

end Course

end RustMcpCore.Library
