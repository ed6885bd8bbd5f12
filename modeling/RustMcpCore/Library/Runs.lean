import Mathlib.Data.List.Basic
import Mathlib.Order.Defs.PartialOrder

/-! # Finite executions of labelled transition systems

A run is the list of the labels it takes, so that a property of a whole run may
speak about the order and the number of its steps. A machine computes its next
state and shows its environment one observation for each step; its runs record
both. The induction rules below are the only ones the later modules use.
-/
namespace RustMcpCore.Library
variable {S E A F : Type*}

/-- The states a relation reaches while it takes the listed labels in order. -/
inductive Runs (step : S → E → S → Prop) : S → List E → S → Prop
  | refl (s : S) : Runs step s [] s
  | cons {s t u : S} {e : E} {es : List E} (he : step s e t) (hr : Runs step t es u) :
      Runs step s (e :: es) u

theorem Runs.single {step : S → E → S → Prop} {s t : S} {e : E} (he : step s e t) :
    Runs step s [e] t := .cons he (.refl t)

theorem Runs.append {step : S → E → S → Prop} {s t u : S} {es fs : List E}
    (hs : Runs step s es t) (ht : Runs step t fs u) : Runs step s (es ++ fs) u := by
  induction hs with
  | refl => exact ht
  | cons he _ ih => exact .cons he (ih ht)

theorem Runs.split {step : S → E → S → Prop} {s u : S} {es fs : List E}
    (hr : Runs step s (es ++ fs) u) : ∃ t, Runs step s es t ∧ Runs step t fs u := by
  induction es generalizing s with
  | nil => exact ⟨s, .refl s, hr⟩
  | cons e es ih =>
    cases hr with
    | cons he hr =>
      obtain ⟨t, hs, ht⟩ := ih hr
      exact ⟨t, .cons he hs, ht⟩

theorem Runs.mono {step weaker : S → E → S → Prop} (h : ∀ s e t, step s e t → weaker s e t)
    {s t : S} {es : List E} (hr : Runs step s es t) : Runs weaker s es t := by
  induction hr with
  | refl => exact .refl _
  | cons he _ ih => exact .cons (h _ _ _ he) ih

/-- A fold that may fail is a run of its steps when it does not. -/
theorem runs_of_foldlM {X : Type} {S : Type} {f : S → E → Except X S} {s t : S} {es : List E}
    (h : es.foldlM f s = .ok t) : Runs (fun s e t => f s e = .ok t) s es t := by
  induction es generalizing s with
  | nil =>
    cases h
    exact .refl _
  | cons e es ih =>
    rw [List.foldlM_cons] at h
    cases hstep : f s e with
    | error x =>
      rw [hstep] at h
      cases h
    | ok next =>
      rw [hstep] at h
      exact .cons hstep (ih h)

/-- What holds at the start and is kept by each step holds at the end. -/
theorem Runs.invariant {step : S → E → S → Prop} (I : S → Prop)
    (hstep : ∀ s e t, I s → step s e t → I t) {s t : S} {es : List E}
    (hr : Runs step s es t) (hs : I s) : I t := by
  induction hr with
  | refl => exact hs
  | cons he _ ih => exact ih (hstep _ _ _ hs he)

/-- An invariant that also looks at the steps taken so far. -/
theorem Runs.history {step : S → E → S → Prop} (I : List E → S → Prop)
    (hstep : ∀ es s e t, I es s → step s e t → I (es ++ [e]) t) {s t : S} {es : List E}
    (hr : Runs step s es t) (hs : I [] s) : I es t := by
  suffices main : ∀ past, I past s → I (past ++ es) t from main [] hs
  clear hs
  induction hr with
  | refl => simp
  | cons he _ ih =>
    intro past hp
    have hnext := ih (past ++ [_]) (hstep past _ _ _ hp he)
    simpa only [List.append_assoc, List.singleton_append] using hnext

/-- An event of the first kind has happened, and none of the second kind since. -/
def Since (P Q : E → Prop) (es : List E) : Prop :=
  ∃ past e rest, es = past ++ e :: rest ∧ P e ∧ ∀ f ∈ rest, ¬ Q f

theorem Since.extend {P Q : E → Prop} {es fs : List E} (h : Since P Q es)
    (hfs : ∀ f ∈ fs, ¬ Q f) : Since P Q (es ++ fs) := by
  obtain ⟨past, e, rest, rfl, he, hrest⟩ := h
  refine ⟨past, e, rest ++ fs, by rw [List.append_assoc, List.cons_append], he, ?_⟩
  intro f hf
  rcases List.mem_append.mp hf with hf | hf
  · exact hrest f hf
  · exact hfs f hf

theorem since_append {P Q : E → Prop} {es : List E} {e : E} :
    Since P Q (es ++ [e]) ↔ P e ∨ (Since P Q es ∧ ¬ Q e) := by
  constructor
  · rintro ⟨past, f, rest, heq, hf, hrest⟩
    rcases List.eq_nil_or_concat rest with rfl | ⟨init, g, rfl⟩
    · obtain ⟨rfl, hlast⟩ := List.append_inj' heq rfl
      cases hlast
      exact .inl hf
    · rw [List.concat_eq_append] at heq hrest
      rw [← List.cons_append, ← List.append_assoc] at heq
      obtain ⟨rfl, hlast⟩ := List.append_inj' heq rfl
      cases hlast
      have hlast := hrest e (List.mem_append_right _ List.mem_cons_self)
      exact .inr ⟨⟨past, f, init, rfl, hf, fun k hk => hrest k (List.mem_append_left _ hk)⟩, hlast⟩
  · rintro (he | ⟨hes, hq⟩)
    · exact ⟨es, e, [], rfl, he, fun _ h => absurd h List.not_mem_nil⟩
    · refine hes.extend fun f hf => ?_
      rw [List.mem_singleton.mp hf]
      exact hq

theorem not_since_nil {P Q : E → Prop} : ¬ Since P Q [] := by
  rintro ⟨past, e, rest, h, _⟩
  exact List.append_ne_nil_of_right_ne_nil past (List.cons_ne_nil e rest) h.symm

/-- Something holds of each event and those before it. -/
def Each (P : List E → E → Prop) (es : List E) : Prop :=
  ∀ past e rest, es = past ++ e :: rest → P past e

theorem each_nil {P : List E → E → Prop} : Each P [] := by
  intro past e rest h
  exact absurd h.symm (List.append_ne_nil_of_right_ne_nil past (List.cons_ne_nil e rest))

theorem each_append {P : List E → E → Prop} {es : List E} {e : E} :
    Each P (es ++ [e]) ↔ Each P es ∧ P es e := by
  constructor
  · refine fun h => ⟨fun past f rest heq => h past f (rest ++ [e]) ?_, h es e [] rfl⟩
    rw [heq, List.append_assoc, List.cons_append]
  · rintro ⟨h, he⟩ past f rest heq
    rcases List.eq_nil_or_concat rest with rfl | ⟨init, g, rfl⟩
    · obtain ⟨rfl, hlast⟩ := List.append_inj' heq rfl
      cases hlast
      exact he
    · rw [List.concat_eq_append, ← List.cons_append, ← List.append_assoc] at heq
      obtain ⟨rfl, _⟩ := List.append_inj' heq rfl
      exact h past f init rfl

/-- A quantity that no step lowers stays below its last value all along. -/
theorem Runs.bounded {step : S → E → S → Prop} {P : Type*} [Preorder P] {size : S → P}
    (hsize : ∀ s e t, step s e t → size s ≤ size t) {bound : P} {s t : S} {es : List E}
    (hr : Runs step s es t) (hb : size t ≤ bound) :
    Runs (fun s e t => step s e t ∧ size t ≤ bound) s es t ∧ size s ≤ bound := by
  induction hr with
  | refl => exact ⟨.refl _, hb⟩
  | cons he _ ih =>
    obtain ⟨hr, hle⟩ := ih hb
    exact ⟨.cons ⟨he, hle⟩ hr, le_trans (hsize _ _ _ he) hle⟩

/-- A forward simulation, read along a whole run. The invariant is the one of
the simulated relation, and the labels are renamed one by one. -/
theorem Runs.simulate {step : S → E → S → Prop} {abstractStep : A → F → A → Prop}
    (I : S → Prop) (view : S → A) (label : E → F)
    (hI : ∀ s e t, I s → step s e t → I t)
    (hsim : ∀ s e t, I s → step s e t → abstractStep (view s) (label e) (view t))
    {s t : S} {es : List E} (hr : Runs step s es t) (hs : I s) :
    Runs abstractStep (view s) (es.map label) (view t) := by
  induction hr with
  | refl => exact .refl _
  | cons he _ ih => exact .cons (hsim _ _ _ hs he) (ih (hI _ _ _ hs he))

def Guarded (step : S → E → S → Prop) (guard : S → E → Prop) (s : S) (e : E) (t : S) : Prop :=
  step s e t ∧ guard s e

/-- A property holds all along a run exactly if each step meets a guard, where the guard
says of one step whether it keeps the property. -/
theorem Runs.guarded_iff {step : S → E → S → Prop} {guard : S → E → Prop} {P : S → Prop}
    (I : List E → S → Prop) (hI : ∀ es s e t, I es s → step s e t → I (es ++ [e]) t)
    (hguard : ∀ es s e t, I es s → P s → step s e t → (guard s e ↔ P t))
    {past : List E} {s t : S} {es : List E} (hs : I past s) (hP : P s) :
    Runs (fun s e t => step s e t ∧ P t) s es t ↔ Runs (Guarded step guard) s es t := by
  constructor
  · intro hr
    induction hr generalizing past with
    | refl => exact .refl _
    | cons he _ ih =>
      have hmet := (hguard past _ _ _ hs hP he.1).mpr he.2
      exact .cons ⟨he.1, hmet⟩ (ih (hI past _ _ _ hs he.1) he.2)
  · intro hr
    induction hr generalizing past with
    | refl => exact .refl _
    | cons he _ ih =>
      have hkept := (hguard past _ _ _ hs hP he.1).mp he.2
      exact .cons ⟨he.1, hkept⟩ (ih (hI past _ _ _ hs he.1) hkept)

/-- A deterministic system: the label resolves every choice, and a label that is
not enabled has no successor. -/
structure Machine (S L O : Type*) where
  init : S
  next : S → L → Option (S × O)

variable {L O : Type*}

namespace Machine
variable (M : Machine S L O)

/-- One step together with the observation it makes. -/
def Step (s : S) (e : L × O) (t : S) : Prop := M.next s e.1 = some (t, e.2)

def Reachable (s : S) : Prop := ∃ es, Runs M.Step M.init es s

/-- Take the listed labels in order and collect the observations. -/
def execute : S → List L → Option (S × List O)
  | s, [] => some (s, [])
  | s, l :: ls => (M.next s l).bind fun p => (execute p.1 ls).map fun q => (q.1, p.2 :: q.2)

variable {M}

theorem runs_of_execute {s t : S} {ls : List L} {os : List O}
    (h : M.execute s ls = some (t, os)) : Runs M.Step s (ls.zip os) t := by
  induction ls generalizing s os with
  | nil =>
    simp only [execute, Option.some.injEq, Prod.mk.injEq] at h
    obtain ⟨rfl, rfl⟩ := h
    exact .refl s
  | cons l ls ih =>
    obtain ⟨⟨s', o⟩, hn, h⟩ := Option.bind_eq_some_iff.mp h
    obtain ⟨⟨t', os'⟩, he, h⟩ := Option.map_eq_some_iff.mp h
    cases h
    exact .cons hn (ih he)

/-- The labels of a run determine what it shows and where it ends. -/
theorem runs_unique {s t t' : S} {es es' : List (L × O)} (hr : Runs M.Step s es t)
    (hr' : Runs M.Step s es' t') (h : es.map Prod.fst = es'.map Prod.fst) : es = es' ∧ t = t' := by
  induction hr generalizing es' with
  | refl =>
    rw [List.map_nil, eq_comm, List.map_eq_nil_iff] at h
    subst h
    cases hr'
    exact ⟨rfl, rfl⟩
  | @cons s u t e es he _ ih =>
    cases hr' with
    | refl => cases h
    | @cons _ u' _ e' es' he' hrest =>
      obtain ⟨hlabel, hrestLabels⟩ := List.cons.inj h
      have hnext : M.next s e.1 = some (u, e.2) := he
      have hnext' : M.next s e'.1 = some (u', e'.2) := he'
      rw [← hlabel, hnext] at hnext'
      obtain ⟨rfl, hshown⟩ := Prod.mk.inj (Option.some.inj hnext')
      obtain rfl : e = e' := Prod.ext hlabel hshown
      obtain ⟨rfl, rfl⟩ := ih hrest hrestLabels
      exact ⟨rfl, rfl⟩

/-- The listed labels can be taken in order, each from a state that meets the guard. -/
def Meets (guard : S → L × O → Prop) : S → List L → Prop
  | _, [] => True
  | s, l :: ls =>
    match M.next s l with
    | none => False
    | some (t, o) => guard s (l, o) ∧ Meets guard t ls

theorem Meets.runs {guard : S → L × O → Prop} {s t : S} {ls : List L} {os : List O}
    (h : M.Meets guard s ls) (he : M.execute s ls = some (t, os)) :
    Runs (Guarded M.Step guard) s (ls.zip os) t := by
  induction ls generalizing s os with
  | nil =>
    simp only [execute, Option.some.injEq, Prod.mk.injEq] at he
    obtain ⟨rfl, rfl⟩ := he
    exact .refl s
  | cons l ls ih =>
    obtain ⟨⟨s', o⟩, hn, he⟩ := Option.bind_eq_some_iff.mp he
    obtain ⟨⟨t', os'⟩, hrest, heq⟩ := Option.map_eq_some_iff.mp he
    cases heq
    unfold Meets at h
    rw [hn] at h
    exact .cons ⟨hn, h.1⟩ (ih h.2 hrest)

theorem Reachable.invariant (I : S → Prop) (hinit : I M.init)
    (hstep : ∀ s e t, I s → M.Step s e t → I t) {s : S} (hs : M.Reachable s) : I s := by
  obtain ⟨es, hr⟩ := hs
  exact hr.invariant I hstep hinit

theorem reachable_of_runs {s : S} {es : List (L × O)} (hr : Runs M.Step M.init es s) :
    M.Reachable s := ⟨es, hr⟩

end Machine
end RustMcpCore.Library
