import Mathlib.Data.List.AList

/-! # Finite maps with the operations of a mutable hash map

A map is a duplicate-free association list, so that no key can be bound twice.
The order of the list is one iteration order among many; nothing below reads it.
-/
namespace RustMcpCore.Library
variable {K V : Type} [DecidableEq K]

abbrev HashMap (K V : Type) := AList (fun _ : K => V)

namespace HashMap

def retain (keep : K → V → Bool) (m : HashMap K V) : HashMap K V :=
  ⟨m.entries.filter fun b => keep b.1 b.2, m.nodupKeys.sublist List.filter_sublist⟩

/-- The bindings that `retain` drops, in iteration order. -/
def discarded (keep : K → V → Bool) (m : HashMap K V) : List V :=
  (m.entries.filter fun b => !keep b.1 b.2).map Sigma.snd

omit [DecidableEq K] in
theorem keys_mapEntries (f : V → V) (l : List (Sigma fun _ : K => V)) :
    (l.map fun b => (⟨b.1, f b.2⟩ : Sigma fun _ : K => V)).keys = l.keys := by
  simp only [List.keys, List.map_map]
  rfl

def mapValues (f : V → V) (m : HashMap K V) : HashMap K V :=
  ⟨m.entries.map fun b => ⟨b.1, f b.2⟩, by
    rw [List.NodupKeys, keys_mapEntries]
    exact m.nodupKeys⟩

def values (m : HashMap K V) : List V := m.entries.map Sigma.snd

theorem lookup_eq_some_iff {m : HashMap K V} {k : K} {v : V} :
    m.lookup k = some v ↔ (⟨k, v⟩ : Sigma fun _ : K => V) ∈ m.entries :=
  AList.mem_lookup_iff

theorem lookup_retain_eq_some {keep : K → V → Bool} {m : HashMap K V} {k : K} {v : V} :
    (m.retain keep).lookup k = some v ↔ m.lookup k = some v ∧ keep k v = true := by
  rw [lookup_eq_some_iff, lookup_eq_some_iff]
  simp only [retain, List.mem_filter]

theorem lookup_replace (m : HashMap K V) (k : K) (v : V) (k' : K) :
    (m.replace k v).lookup k' = if k' = k then (m.lookup k).map (fun _ => v) else m.lookup k' := by
  obtain ⟨l, hl⟩ := m
  change (l.kreplace k v).dlookup k' =
    if k' = k then (l.dlookup k).map (fun _ => v) else l.dlookup k'
  clear hl
  induction l with
  | nil => simp [List.kreplace]
  | cons b l ih =>
    obtain ⟨a, w⟩ := b
    by_cases ha : k = a
    · subst ha
      have hr : List.kreplace k v (⟨k, w⟩ :: l) = ⟨k, v⟩ :: l := by
        simp [List.kreplace]
      rw [hr]
      by_cases hk : k' = k
      · subst hk; simp
      · rw [if_neg hk, List.dlookup_cons_ne _ _ hk, List.dlookup_cons_ne _ _ hk]
    · have hr : List.kreplace k v (⟨a, w⟩ :: l) = ⟨a, w⟩ :: List.kreplace k v l := by
        simp [List.kreplace, ha]
      rw [hr]
      by_cases hk : k' = a
      · subst hk
        have hne : k' ≠ k := fun h => ha h.symm
        simp [hne]
      · have hw : (⟨a, w⟩ :: l : List (Sigma fun _ : K => V)).dlookup k = l.dlookup k :=
          List.dlookup_cons_ne _ _ ha
        rw [hw, List.dlookup_cons_ne _ _ hk, List.dlookup_cons_ne _ _ hk, ih]

theorem lookup_mapValues (f : V → V) (m : HashMap K V) (k : K) :
    (m.mapValues f).lookup k = (m.lookup k).map f := by
  obtain ⟨l, hl⟩ := m
  change (l.map fun b => (⟨b.1, f b.2⟩ : Sigma fun _ : K => V)).dlookup k = (l.dlookup k).map f
  clear hl
  induction l with
  | nil => rfl
  | cons b l ih =>
    obtain ⟨a, w⟩ := b
    by_cases hk : k = a
    · subst hk
      simp
    · rw [List.map_cons, List.dlookup_cons_ne _ _ hk, List.dlookup_cons_ne _ _ hk, ih]

end HashMap
end RustMcpCore.Library
