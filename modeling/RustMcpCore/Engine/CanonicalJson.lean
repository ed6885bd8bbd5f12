import Mathlib.Data.List.Perm.Basic
import Mathlib.Data.List.Sort
import RustMcpCore.Engine.TemplateMeaning
import RustMcpCore.Maps

/-! # Canonical JSON

The canonical form of a value has the members of each object in the order of their keys.
Two values have the same form exactly if they differ in nothing but that order.
-/
namespace RustMcpCore

abbrev KeyLe (left right : String × Value) : Prop := left.1 ≤ right.1

mutual

/-- Entries are sorted by their keys alone, so it is all one whether their values are made
canonical before or after. -/
def canonicalizeJson : Value → Value
  | .object members =>
    .object (Map.overlay [] ((canonicalizeMembers members).insertionSort KeyLe))
  | .array items => .array (canonicalizeItems items)
  | .null => .null
  | .bool value => .bool value
  | .number value => .number value
  | .string value => .string value

def canonicalizeItems : List Value → List Value
  | [] => []
  | item :: items => canonicalizeJson item :: canonicalizeItems items

def canonicalizeMembers : List (String × Value) → List (String × Value)
  | [] => []
  | (key, value) :: members => (key, canonicalizeJson value) :: canonicalizeMembers members

end

/-- No object has two members of one name, as `serde_json` builds them. -/
inductive Value.Keyed : Value → Prop
  | null : Keyed .null
  | bool (value : Bool) : Keyed (.bool value)
  | number (value : Number) : Keyed (.number value)
  | string (value : String) : Keyed (.string value)
  | array {items : List Value} (each : ∀ item ∈ items, Keyed item) : Keyed (.array items)
  | object {members : List (String × Value)} (keys : (members.map Prod.fst).Nodup)
      (each : ∀ member ∈ members, Keyed member.2) : Keyed (.object members)

mutual

/-- Equality up to the order of the members of each object. -/
inductive SameUpToOrder : Value → Value → Prop
  | null : SameUpToOrder .null .null
  | bool (value : Bool) : SameUpToOrder (.bool value) (.bool value)
  | number (value : Number) : SameUpToOrder (.number value) (.number value)
  | string (value : String) : SameUpToOrder (.string value) (.string value)
  | array {items others : List Value} (each : SameItems items others) :
      SameUpToOrder (.array items) (.array others)
  | object {members ordered others : List (String × Value)} (each : SameMembers members ordered)
      (order : ordered.Perm others) : SameUpToOrder (.object members) (.object others)

inductive SameItems : List Value → List Value → Prop
  | nil : SameItems [] []
  | cons {item other : Value} {items others : List Value} (head : SameUpToOrder item other)
      (tail : SameItems items others) : SameItems (item :: items) (other :: others)

inductive SameMembers : List (String × Value) → List (String × Value) → Prop
  | nil : SameMembers [] []
  | cons {key : String} {value other : Value} {members others : List (String × Value)}
      (head : SameUpToOrder value other) (tail : SameMembers members others) :
      SameMembers ((key, value) :: members) ((key, other) :: others)

end

/-! ## The order of the keys -/

def canonicalMember (member : String × Value) : String × Value :=
  (member.1, canonicalizeJson member.2)

theorem canonicalizeMembers_eq (members : List (String × Value)) :
    canonicalizeMembers members = members.map canonicalMember := by
  induction members with
  | nil => rfl
  | cons member members ih =>
    rw [canonicalizeMembers, List.map_cons, ih]
    rfl

/-- The entries are collected and sorted, and inserted with their canonical values. -/
theorem canonicalizeJson_object (members : List (String × Value)) :
    canonicalizeJson (.object members) =
      .object (Map.overlay [] ((members.insertionSort KeyLe).map canonicalMember)) := by
  rw [canonicalizeJson, canonicalizeMembers_eq,
    ← List.map_insertionSort KeyLe KeyLe canonicalMember members fun _ _ _ _ => Iff.rfl]

theorem keys_canonical (members : List (String × Value)) :
    (canonicalizeMembers members).map Prod.fst = members.map Prod.fst := by
  rw [canonicalizeMembers_eq, List.map_map]
  rfl

theorem sorted_insertionSort {members : List (String × Value)}
    (h : (members.map Prod.fst).Nodup) : Map.Sorted (members.insertionSort KeyLe) := by
  have hnodup : ((members.insertionSort KeyLe).map Prod.fst).Nodup :=
    ((List.perm_insertionSort KeyLe members).map Prod.fst).nodup_iff.mpr h
  have hle : (members.insertionSort KeyLe).Pairwise KeyLe := by
    have : IsTrans (String × Value) KeyLe := ⟨fun _ _ _ => le_trans⟩
    have : @Std.Total (String × Value) KeyLe := ⟨fun _ _ => le_total _ _⟩
    exact List.pairwise_insertionSort KeyLe members
  exact (hle.and (List.pairwise_map.mp hnodup)).imp fun h => lt_of_le_of_ne h.1 h.2

theorem overlay_insertionSort {members : List (String × Value)}
    (h : (members.map Prod.fst).Nodup) :
    Map.overlay [] (members.insertionSort KeyLe) = members.insertionSort KeyLe :=
  Map.overlay_nil (sorted_insertionSort h)

/-- Members of distinct names are in the same order exactly if they are the same. -/
theorem insertionSort_eq_iff {members others : List (String × Value)}
    (h : (members.map Prod.fst).Nodup) (hothers : (others.map Prod.fst).Nodup) :
    members.insertionSort KeyLe = others.insertionSort KeyLe ↔ members.Perm others := by
  constructor
  · intro heq
    have hperm := (List.perm_insertionSort KeyLe members).symm
    rw [heq] at hperm
    exact hperm.trans (List.perm_insertionSort KeyLe others)
  · intro hperm
    have hsorts : (members.insertionSort KeyLe).Perm (others.insertionSort KeyLe) :=
      ((List.perm_insertionSort KeyLe members).trans hperm).trans
        (List.perm_insertionSort KeyLe others).symm
    exact hsorts.eq_of_pairwise (fun _ _ _ _ hlt hgt => absurd hgt hlt.not_gt)
      (sorted_insertionSort h) (sorted_insertionSort hothers)

theorem nodup_canonical {members : List (String × Value)} (h : (members.map Prod.fst).Nodup) :
    ((canonicalizeMembers members).map Prod.fst).Nodup := by rwa [keys_canonical]

theorem canonicalizeJson_keyed {members : List (String × Value)}
    (h : (members.map Prod.fst).Nodup) : canonicalizeJson (.object members) =
      .object ((canonicalizeMembers members).insertionSort KeyLe) := by
  rw [canonicalizeJson, overlay_insertionSort (nodup_canonical h)]

/-- Values in any order of the same members have one canonical form. -/
theorem exists_ordered {members others : List (String × Value)}
    (h : members.Perm (canonicalizeMembers others)) :
    ∃ ordered, members = canonicalizeMembers ordered ∧ ordered.Perm others := by
  have hothers : List.Forall₂ (fun form member => form = canonicalMember member)
      (canonicalizeMembers others) others := by
    rw [canonicalizeMembers_eq, List.forall₂_map_left_iff]
    exact List.forall₂_same.mpr fun _ _ => rfl
  obtain ⟨ordered, hforms, hperm⟩ := List.perm_comp_forall₂ h hothers
  refine ⟨ordered, ?_, hperm⟩
  rw [canonicalizeMembers_eq]
  rw [← List.forall₂_map_right_iff] at hforms
  rwa [List.forall₂_eq_eq_eq] at hforms

theorem Value.Keyed.items {items : List Value} (h : (Value.array items).Keyed) :
    ∀ item ∈ items, item.Keyed := by
  cases h with
  | array each => exact each

theorem Value.Keyed.members {members : List (String × Value)} (h : (Value.object members).Keyed) :
    (members.map Prod.fst).Nodup ∧ ∀ member ∈ members, member.2.Keyed := by
  cases h with
  | object keys each => exact ⟨keys, each⟩

/-! ## Canonical forms are equal exactly up to order -/

mutual

theorem SameUpToOrder.canonical {value other : Value} (h : SameUpToOrder value other)
    (hvalue : value.Keyed) (hother : other.Keyed) :
    canonicalizeJson value = canonicalizeJson other := by
  cases h with
  | null => rfl
  | bool => rfl
  | number => rfl
  | string => rfl
  | array each =>
    rw [canonicalizeJson, canonicalizeJson, each.canonical hvalue.items hother.items]
  | object each order =>
    obtain ⟨hkeys, heach⟩ := hvalue.members
    obtain ⟨hothers, hmembers⟩ := hother.members
    have hperm := order.map canonicalMember
    rw [← canonicalizeMembers_eq, ← canonicalizeMembers_eq,
      ← each.canonical heach fun member hmember => hmembers member (order.subset hmember)] at hperm
    rw [canonicalizeJson_keyed hkeys, canonicalizeJson_keyed hothers,
      (insertionSort_eq_iff (nodup_canonical hkeys) (nodup_canonical hothers)).mpr hperm]

theorem SameItems.canonical {items others : List Value} (h : SameItems items others)
    (hitems : ∀ item ∈ items, item.Keyed) (hothers : ∀ item ∈ others, item.Keyed) :
    canonicalizeItems items = canonicalizeItems others := by
  cases h with
  | nil => rfl
  | cons head tail =>
    obtain ⟨hitem, hitems⟩ := List.forall_mem_cons.mp hitems
    obtain ⟨hother, hothers⟩ := List.forall_mem_cons.mp hothers
    rw [canonicalizeItems, canonicalizeItems, head.canonical hitem hother,
      tail.canonical hitems hothers]

theorem SameMembers.canonical {members others : List (String × Value)}
    (h : SameMembers members others) (hmembers : ∀ member ∈ members, member.2.Keyed)
    (hothers : ∀ member ∈ others, member.2.Keyed) :
    canonicalizeMembers members = canonicalizeMembers others := by
  cases h with
  | nil => rfl
  | cons head tail =>
    obtain ⟨hmember, hmembers⟩ := List.forall_mem_cons.mp hmembers
    obtain ⟨hother, hothers⟩ := List.forall_mem_cons.mp hothers
    rw [canonicalizeMembers, canonicalizeMembers, head.canonical hmember hother,
      tail.canonical hmembers hothers]

end

mutual

theorem same_of_canonical : ∀ {value other : Value}, value.Keyed → other.Keyed →
    canonicalizeJson value = canonicalizeJson other → SameUpToOrder value other
  | .null, other, _, _, h => by
    cases other <;> simp only [canonicalizeJson, reduceCtorEq] at h
    exact .null
  | .bool value, other, _, _, h => by
    cases other <;> simp only [canonicalizeJson, reduceCtorEq, Value.bool.injEq] at h
    exact h ▸ .bool value
  | .number value, other, _, _, h => by
    cases other <;> simp only [canonicalizeJson, reduceCtorEq, Value.number.injEq] at h
    exact h ▸ .number value
  | .string value, other, _, _, h => by
    cases other <;> simp only [canonicalizeJson, reduceCtorEq, Value.string.injEq] at h
    exact h ▸ .string value
  | .array items, other, hvalue, hother, h => by
    cases other <;> simp only [canonicalizeJson, reduceCtorEq, Value.array.injEq] at h
    exact .array (sameItems_of_canonical hvalue.items hother.items h)
  | .object members, other, hvalue, hother, h => by
    cases other with
    | object others =>
      obtain ⟨hkeys, heach⟩ := hvalue.members
      obtain ⟨hothers, hmembers⟩ := hother.members
      rw [canonicalizeJson_keyed hkeys, canonicalizeJson_keyed hothers, Value.object.injEq,
        insertionSort_eq_iff (nodup_canonical hkeys) (nodup_canonical hothers)] at h
      obtain ⟨ordered, heq, hperm⟩ := exists_ordered h
      exact .object (sameMembers_of_canonical heach
        (fun member hmember => hmembers member (hperm.subset hmember)) heq) hperm
    | _ => simp only [canonicalizeJson, reduceCtorEq] at h

theorem sameItems_of_canonical : ∀ {items others : List Value}, (∀ item ∈ items, item.Keyed) →
    (∀ item ∈ others, item.Keyed) → canonicalizeItems items = canonicalizeItems others →
      SameItems items others
  | [], others, _, _, h => by
    cases others with
    | nil => exact .nil
    | cons => simp only [canonicalizeItems, reduceCtorEq] at h
  | item :: items, others, hitems, hothers, h => by
    cases others with
    | nil => simp only [canonicalizeItems, reduceCtorEq] at h
    | cons other others =>
      obtain ⟨hitem, hitems⟩ := List.forall_mem_cons.mp hitems
      obtain ⟨hother, hothers⟩ := List.forall_mem_cons.mp hothers
      obtain ⟨hhead, htail⟩ := List.cons.inj h
      exact .cons (same_of_canonical hitem hother hhead) (sameItems_of_canonical hitems hothers htail)

theorem sameMembers_of_canonical : ∀ {members others : List (String × Value)},
    (∀ member ∈ members, member.2.Keyed) → (∀ member ∈ others, member.2.Keyed) →
      canonicalizeMembers members = canonicalizeMembers others → SameMembers members others
  | [], others, _, _, h => by
    cases others with
    | nil => exact .nil
    | cons => simp only [canonicalizeMembers, reduceCtorEq] at h
  | (key, value) :: members, others, hmembers, hothers, h => by
    cases others with
    | nil => simp only [canonicalizeMembers, reduceCtorEq] at h
    | cons head others =>
      obtain ⟨name, other⟩ := head
      simp only [canonicalizeMembers, List.cons.injEq, Prod.mk.injEq] at h
      obtain ⟨⟨rfl, hhead⟩, htail⟩ := h
      obtain ⟨hmember, hmembers⟩ := List.forall_mem_cons.mp hmembers
      obtain ⟨hother, hothers⟩ := List.forall_mem_cons.mp hothers
      exact .cons (same_of_canonical hmember hother hhead)
        (sameMembers_of_canonical hmembers hothers htail)

end

theorem canonicalizeJson_eq_iff {value other : Value} (hvalue : value.Keyed)
    (hother : other.Keyed) :
    canonicalizeJson value = canonicalizeJson other ↔ SameUpToOrder value other :=
  ⟨same_of_canonical hvalue hother, fun h => h.canonical hvalue hother⟩

/-! ## Canonical forms are in order -/

mutual

theorem canonicalizeJson_ordered : ∀ {value : Value}, value.Keyed → (canonicalizeJson value).Ordered
  | .null, _ => by
    rw [canonicalizeJson]
    exact .null
  | .bool value, _ => by
    rw [canonicalizeJson]
    exact .bool value
  | .number value, _ => by
    rw [canonicalizeJson]
    exact .number value
  | .string value, _ => by
    rw [canonicalizeJson]
    exact .string value
  | .array items, h => by
    rw [canonicalizeJson]
    exact .array (canonicalizeItems_ordered h.items)
  | .object members, h => by
    obtain ⟨hkeys, heach⟩ := h.members
    rw [canonicalizeJson_keyed hkeys]
    refine .object (sorted_insertionSort (nodup_canonical hkeys)) fun member hmember => ?_
    exact canonicalizeMembers_ordered heach member ((List.mem_insertionSort KeyLe).mp hmember)

theorem canonicalizeItems_ordered : ∀ {items : List Value}, (∀ item ∈ items, item.Keyed) →
    ∀ item ∈ canonicalizeItems items, item.Ordered
  | [], _ => List.forall_mem_nil _
  | item :: items, h => by
    obtain ⟨hitem, hitems⟩ := List.forall_mem_cons.mp h
    rw [canonicalizeItems]
    exact List.forall_mem_cons.mpr
      ⟨canonicalizeJson_ordered hitem, canonicalizeItems_ordered hitems⟩

theorem canonicalizeMembers_ordered : ∀ {members : List (String × Value)},
    (∀ member ∈ members, member.2.Keyed) →
      ∀ member ∈ canonicalizeMembers members, member.2.Ordered
  | [], _ => List.forall_mem_nil _
  | (key, value) :: members, h => by
    obtain ⟨hmember, hmembers⟩ := List.forall_mem_cons.mp h
    rw [canonicalizeMembers]
    exact List.forall_mem_cons.mpr
      ⟨canonicalizeJson_ordered hmember, canonicalizeMembers_ordered hmembers⟩

end

end RustMcpCore
