import Mathlib.Data.List.Basic

/-! # The first definitive answer

Consultants are asked in the order of a list, each may change the world, and the
first that answers decides. The list of those that were asked is kept.
-/
namespace RustMcpCore.Library
variable {P D W : Type*}

/-- The first answer, the consultants asked for it, and the world afterwards. -/
def scan (consult : P → W → Option D × W) : List P → W → Option D × List P × W
  | [], w => (none, [], w)
  | p :: ps, w =>
    match consult p w with
    | (some d, w) => (some d, [p], w)
    | (none, w) =>
      let rest := scan consult ps w
      (rest.1, p :: rest.2.1, rest.2.2)

variable {consult : P → W → Option D × W}

theorem scan_cons_some {p : P} {ps : List P} {w w' : W} {d : D}
    (h : consult p w = (some d, w')) : scan consult (p :: ps) w = (some d, [p], w') := by
  simp only [scan, h]

theorem scan_cons_none {p : P} {ps : List P} {w w' : W} (h : consult p w = (none, w')) :
    scan consult (p :: ps) w =
      ((scan consult ps w').1, p :: (scan consult ps w').2.1, (scan consult ps w').2.2) := by
  simp only [scan, h]

/-- An answer found in an initial part is the answer of the whole. -/
theorem scan_append_some {ps qs : List P} {w : W} {d : D} (h : (scan consult ps w).1 = some d) :
    (scan consult (ps ++ qs) w).1 = some d := by
  induction ps generalizing w with
  | nil => simp [scan] at h
  | cons p ps ih =>
    rcases hc : consult p w with ⟨_ | e, w'⟩
    · rw [scan_cons_none hc] at h
      rw [List.cons_append, scan_cons_none hc]
      exact ih h
    · rw [scan_cons_some hc] at h
      rw [List.cons_append, scan_cons_some hc]
      exact h

/-- Without an answer in an initial part, the rest is asked where it left the world. -/
theorem scan_append_none {ps qs : List P} {w : W} (h : (scan consult ps w).1 = none) :
    (scan consult (ps ++ qs) w).1 = (scan consult qs (scan consult ps w).2.2).1 := by
  induction ps generalizing w with
  | nil => rfl
  | cons p ps ih =>
    rcases hc : consult p w with ⟨_ | e, w'⟩
    · rw [scan_cons_none hc] at h ⊢
      rw [List.cons_append, scan_cons_none hc]
      exact ih h
    · rw [scan_cons_some hc] at h
      cases h

/-- The consultant that was asked last has answered. -/
theorem scan_last {ps : List P} {w : W} {d : D} (h : (scan consult ps w).1 = some d) :
    ∃ before p w', (scan consult ps w).2.1 = before ++ [p] ∧ p ∈ ps ∧
      (consult p w').1 = some d := by
  induction ps generalizing w with
  | nil => cases h
  | cons p ps ih =>
    rcases hc : consult p w with ⟨_ | e, w'⟩
    · rw [scan_cons_none hc] at h ⊢
      obtain ⟨before, q, w'', hasked, hq, hanswer⟩ := ih h
      exact ⟨p :: before, q, w'', congrArg (p :: ·) hasked, List.mem_cons_of_mem p hq, hanswer⟩
    · rw [scan_cons_some hc] at h ⊢
      cases h
      exact ⟨[], p, w, rfl, List.mem_cons_self, by rw [hc]⟩

end RustMcpCore.Library
