import Mathlib.Data.Nat.Basic

/-! # Log payloads

A long text is cut before it is logged. Sizes and limits count bytes of UTF-8, and a
slice that does not start and end between two characters panics.
-/
namespace RustMcpCore

structure TruncatedField where
  value : String
  originalBytes : ℕ
  truncated : Bool

def isCharBoundary (input : String) (index : ℕ) : Bool := (String.Pos.Raw.mk index).isValid input

/-- `&input[..end]`. There is no slice where the source panics. -/
def slicePrefix (input : String) (index : ℕ) : Option String :=
  if h : (String.Pos.Raw.mk index).IsValid input then
    some (input.sliceTo (input.pos (.mk index) h)).copy
  else none

/-- The loop that goes back to a boundary. -/
def lastBoundary (input : String) : ℕ → ℕ
  | 0 => 0
  | index + 1 => if isCharBoundary input (index + 1) then index + 1 else lastBoundary input index

def truncateStringForLog (input : String) (maxBytes : UInt64) : Option TruncatedField :=
  if maxBytes = 0 then some ⟨input, input.utf8ByteSize, false⟩
  else if input.utf8ByteSize ≤ maxBytes.toNat then some ⟨input, input.utf8ByteSize, false⟩
  else (slicePrefix input (lastBoundary input maxBytes.toNat)).map fun truncated =>
    ⟨truncated ++ "...", input.utf8ByteSize, true⟩

variable {input : String}

theorem isCharBoundary_iff {index : ℕ} :
    isCharBoundary input index = true ↔
      ∃ lead rest, input = lead ++ rest ∧ lead.utf8ByteSize = index := by
  unfold isCharBoundary
  rw [String.Pos.Raw.isValid_eq_true_iff, String.Pos.Raw.isValid_iff_exists_append]
  constructor
  · rintro ⟨lead, rest, hinput, hsize⟩
    exact ⟨lead, rest, hinput, congrArg String.Pos.Raw.byteIdx hsize.symm⟩
  · rintro ⟨lead, rest, hinput, hsize⟩
    exact ⟨lead, rest, hinput, String.Pos.Raw.ext hsize.symm⟩

theorem slicePrefix_eq_some {index : ℕ} (h : isCharBoundary input index = true) :
    ∃ lead rest, slicePrefix input index = some lead ∧ input = lead ++ rest ∧
      lead.utf8ByteSize = index := by
  have hvalid := String.Pos.Raw.isValid_eq_true_iff.mp h
  refine ⟨_, (input.sliceFrom (input.pos (.mk index) hvalid)).copy, dif_pos hvalid, ?_, ?_⟩
  · exact (String.sliceTo_append_sliceFrom).symm
  · rw [String.Slice.utf8ByteSize_copy, String.utf8ByteSize_sliceTo]
    rfl

theorem lastBoundary_le (input : String) (limit : ℕ) : lastBoundary input limit ≤ limit := by
  induction limit with
  | zero => exact le_refl 0
  | succ limit ih =>
    unfold lastBoundary
    split
    · exact le_refl _
    · exact Nat.le_succ_of_le ih

theorem isCharBoundary_lastBoundary (input : String) (limit : ℕ) :
    isCharBoundary input (lastBoundary input limit) = true := by
  induction limit with
  | zero => exact isCharBoundary_iff.mpr ⟨"", input, (String.empty_append).symm, rfl⟩
  | succ limit ih =>
    unfold lastBoundary
    split
    · assumption
    · exact ih

/-- The loop misses no boundary on its way. -/
theorem le_lastBoundary {limit index : ℕ} (hlimit : index ≤ limit)
    (h : isCharBoundary input index = true) : index ≤ lastBoundary input limit := by
  induction limit with
  | zero => exact hlimit
  | succ limit ih =>
    unfold lastBoundary
    split
    · exact hlimit
    · rename_i hinside
      refine ih (Nat.le_of_lt_succ (lt_of_le_of_ne hlimit ?_))
      rintro rfl
      exact hinside h

/-- The longest text before a boundary within the limit. -/
structure LongestPrefix (input : String) (limit : ℕ) (lead : String) : Prop where
  splits : ∃ rest, input = lead ++ rest
  within : lead.utf8ByteSize ≤ limit
  longest : ∀ other rest, input = other ++ rest → other.utf8ByteSize ≤ limit →
    other.utf8ByteSize ≤ lead.utf8ByteSize

theorem slicePrefix_lastBoundary (input : String) (limit : ℕ) :
    ∃ lead, slicePrefix input (lastBoundary input limit) = some lead ∧
      LongestPrefix input limit lead := by
  obtain ⟨lead, rest, hslice, hinput, hsize⟩ :=
    slicePrefix_eq_some (isCharBoundary_lastBoundary input limit)
  refine ⟨lead, hslice, ⟨rest, hinput⟩, ?_, ?_⟩
  · rw [hsize]
    exact lastBoundary_le input limit
  · intro other behind hother hwithin
    rw [hsize]
    exact le_lastBoundary hwithin (isCharBoundary_iff.mpr ⟨other, behind, hother, rfl⟩)

theorem truncateStringForLog_safe (input : String) (maxBytes : UInt64) :
    ∃ field, truncateStringForLog input maxBytes = some field ∧
      field.originalBytes = input.utf8ByteSize ∧
      ((maxBytes = 0 ∨ input.utf8ByteSize ≤ maxBytes.toNat) →
        field.value = input ∧ field.truncated = false) ∧
      (¬ (maxBytes = 0 ∨ input.utf8ByteSize ≤ maxBytes.toNat) →
        field.truncated = true ∧
          ∃ lead, field.value = lead ++ "..." ∧ LongestPrefix input maxBytes.toNat lead) := by
  by_cases hshort : maxBytes = 0 ∨ input.utf8ByteSize ≤ maxBytes.toNat
  · refine ⟨⟨input, input.utf8ByteSize, false⟩, ?_, rfl, fun _ => ⟨rfl, rfl⟩, fun h => absurd hshort h⟩
    unfold truncateStringForLog
    rcases hshort with hzero | hshort
    · rw [if_pos hzero]
    · rw [if_pos hshort, ite_self]
  · obtain ⟨hpositive, hlong⟩ := not_or.mp hshort
    obtain ⟨lead, hslice, hlead⟩ := slicePrefix_lastBoundary input maxBytes.toNat
    refine ⟨⟨lead ++ "...", input.utf8ByteSize, true⟩, ?_, rfl, fun h => absurd h hshort,
      fun _ => ⟨rfl, lead, rfl, hlead⟩⟩
    unfold truncateStringForLog
    rw [if_neg hpositive, if_neg hlong, hslice]
    rfl

end RustMcpCore
