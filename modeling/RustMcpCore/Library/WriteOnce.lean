import RustMcpCore.Library.Runs

/-! # Cells that are written once

The life of one name: nothing, then an open cell, then a cell that holds its one
value, and at any time after its creation the end. An observer sees a part of
the value. The order of events is arbitrary; the rules say only which event may
happen in which phase.
-/
namespace RustMcpCore.Library
variable {V W : Type*}

inductive Cell (V : Type*)
  | unborn
  | pending
  | settled (v : V)
  | removed

/-- What a step does with one cell. A step that is about other cells is `idle`. -/
inductive CellEvent (V W : Type*)
  | idle
  | create
  | settle (v : V)
  | observe (w : W)

namespace Cell
variable (read : V → W)

inductive Step : Cell V → CellEvent V W → Cell V → Prop
  | idle (c : Cell V) : Step c .idle c
  | create : Step .unborn .create .pending
  | settle (v : V) : Step .pending (.settle v) (.settled v)
  | observe (v : V) : Step (.settled v) (.observe (read v)) (.settled v)
  | lapse {c : Cell V} (h : c ≠ .unborn) : Step c .idle .removed

/-- The values written along a list of events, in order. -/
def written (es : List (CellEvent V W)) : List V :=
  es.filterMap fun
    | .settle v => some v
    | _ => none

@[simp] theorem written_settle (v : V) (es : List (CellEvent V W)) :
    written (.settle v :: es) = v :: written es := rfl
@[simp] theorem written_idle (es : List (CellEvent V W)) :
    written (.idle :: es) = written es := rfl
@[simp] theorem written_create (es : List (CellEvent V W)) :
    written (.create :: es) = written es := rfl
@[simp] theorem written_observe (w : W) (es : List (CellEvent V W)) :
    written (.observe w :: es) = written es := rfl

variable {read}

theorem Runs.from_removed {es : List (CellEvent V W)} {c : Cell V}
    (hr : Runs (Step read) .removed es c) : c = .removed ∧ ∀ e ∈ es, e = .idle := by
  induction es with
  | nil => cases hr; exact ⟨rfl, by simp⟩
  | cons e es ih =>
    cases hr with
    | cons he hr =>
      cases he with
      | idle | lapse =>
        obtain ⟨hc, hall⟩ := ih hr
        exact ⟨hc, by simpa using hall⟩

/-- A written cell keeps its value until it is removed, and shows no other. -/
theorem Runs.from_settled {v : V} {es : List (CellEvent V W)} {c : Cell V}
    (hr : Runs (Step read) (.settled v) es c) :
    (c = .settled v ∨ c = .removed) ∧ written es = [] ∧
      ∀ w, .observe w ∈ es → w = read v := by
  induction es with
  | nil => cases hr; exact ⟨.inl rfl, rfl, by simp⟩
  | cons e es ih =>
    cases hr with
    | cons he hr =>
      cases he with
      | idle => simpa using ih hr
      | observe =>
        obtain ⟨hc, hw, ho⟩ := ih hr
        refine ⟨hc, by simpa using hw, ?_⟩
        intro w hm
        rcases List.mem_cons.mp hm with h | h
        · cases h; rfl
        · exact ho w h
      | lapse =>
        obtain ⟨hc, hall⟩ := Runs.from_removed hr
        refine ⟨.inr hc, ?_, ?_⟩
        · simp only [written, List.filterMap_eq_nil_iff]
          intro e hm
          rcases List.mem_cons.mp hm with rfl | hm
          · rfl
          · rw [hall e hm]
        · intro w hm
          rcases List.mem_cons.mp hm with h | h
          · cases h
          · cases hall _ h

theorem Runs.written_le_one {c d : Cell V} {es : List (CellEvent V W)}
    (hr : Runs (Step read) c es d) : (written es).length ≤ 1 := by
  induction hr with
  | refl => simp [written]
  | cons he hr ih =>
    cases he with
    | idle | create | observe | lapse => simpa using ih
    | settle v =>
      rw [written_settle, (Runs.from_settled hr).2.1]
      simp

/-- Every observation is of a value that was there at the start or was written
before it. -/
theorem Runs.observed_written {c d : Cell V} {es : List (CellEvent V W)}
    (hr : Runs (Step read) c es d) {w : W} (ho : .observe w ∈ es) :
    ∃ v, read v = w ∧ (c = .settled v ∨
      ∃ before after, es = before ++ .settle v :: after ∧ .observe w ∈ after) := by
  induction hr with
  | refl => simp at ho
  | @cons s t u e es he hr ih =>
    have later : ∀ {v : V},
        (∃ before after, es = before ++ .settle v :: after ∧ .observe w ∈ after) →
        ∃ before after, e :: es = before ++ .settle v :: after ∧ .observe w ∈ after := by
      rintro v ⟨before, after, rfl, hm⟩
      exact ⟨e :: before, after, rfl, hm⟩
    cases he with
    | idle =>
      obtain ⟨v, hv, h⟩ := ih (by simpa using ho)
      exact ⟨v, hv, h.imp_right later⟩
    | create =>
      obtain ⟨v, hv, h | h⟩ := ih (by simpa using ho)
      · cases h
      · exact ⟨v, hv, .inr (later h)⟩
    | settle v =>
      have hm := (List.mem_cons.mp ho).resolve_left (by simp)
      exact ⟨v, ((Runs.from_settled hr).2.2 w hm).symm, .inr ⟨[], es, rfl, hm⟩⟩
    | observe v =>
      rcases List.mem_cons.mp ho with h | h
      · cases h; exact ⟨v, rfl, .inl rfl⟩
      · exact ⟨v, ((Runs.from_settled hr).2.2 w h).symm, .inl rfl⟩
    | lapse =>
      have hm := (List.mem_cons.mp ho).resolve_left (by simp)
      cases (Runs.from_removed hr).2 _ hm

end Cell
end RustMcpCore.Library
