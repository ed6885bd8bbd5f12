import Mathlib.Data.List.Induction
import Mathlib.Data.String.Basic
import RustMcpCore.Json

/-! # Maps in the order of their keys

What is inserted into a map is found in it, and a map is known by what is found in it.
-/
namespace RustMcpCore.Map

def Sorted (map : Map) : Prop := map.Pairwise fun member other => member.1 < other.1

/-- The members of one map inserted into another, in their order. -/
def overlay (base : Map) (members : List (String × Value)) : Map :=
  members.foldl (fun map member => insert map member.1 member.2) base

variable {map : Map} {key : String} {value : Value}

theorem lookup_cons {V : Type} (found : String) (old : V) (rest : List (String × V))
    (name : String) : ((found, old) :: rest).lookup name =
      if name = found then some old else rest.lookup name := by
  rw [List.lookup_cons]
  by_cases hname : name = found
  · simp only [beq_iff_eq.mpr hname, if_pos hname]
  · simp only [beq_eq_false_iff_ne.mpr hname, if_neg hname]

theorem lookup_insert (map : Map) (key : String) (value : Value) (name : String) :
    (insert map key value).lookup name = if name = key then some value else map.lookup name := by
  induction map with
  | nil => exact lookup_cons key value [] name
  | cons member rest ih =>
    obtain ⟨found, old⟩ := member
    unfold insert
    split
    · rename_i hfound
      rw [lookup_cons, lookup_cons, ← hfound]
      split
      · rfl
      · rfl
    · rename_i hfound
      split
      · rw [lookup_cons]
      · rw [lookup_cons, ih, lookup_cons]
        by_cases hname : name = found
        · have hkey : name ≠ key := fun h => hfound (h.symm.trans hname)
          rw [if_pos hname, if_neg hkey, if_pos hname]
        · rw [if_neg hname, if_neg hname]

theorem mem_insert {member : String × Value} (h : member ∈ insert map key value) :
    member = (key, value) ∨ member ∈ map := by
  induction map with
  | nil => exact .inl (List.mem_singleton.mp h)
  | cons head rest ih =>
    obtain ⟨found, old⟩ := head
    unfold insert at h
    split at h
    · rcases List.mem_cons.mp h with h | h
      · exact .inl h
      · exact .inr (List.mem_cons_of_mem _ h)
    · split at h
      · exact List.mem_cons.mp h
      · rcases List.mem_cons.mp h with h | h
        · exact .inr (h ▸ List.mem_cons_self)
        · exact (ih h).imp_right (List.mem_cons_of_mem _)

theorem sorted_insert (h : Sorted map) : Sorted (insert map key value) := by
  induction map with
  | nil => exact List.pairwise_singleton _ _
  | cons head rest ih =>
    obtain ⟨found, old⟩ := head
    obtain ⟨hhead, hrest⟩ := List.pairwise_cons.mp h
    unfold insert
    split
    · rename_i hfound
      rw [hfound]
      exact List.pairwise_cons.mpr ⟨hhead, hrest⟩
    · rename_i hfound
      split
      · rename_i hless
        refine List.pairwise_cons.mpr ⟨fun member hmember => ?_, h⟩
        rcases List.mem_cons.mp hmember with rfl | hmember
        · exact hless
        · exact lt_trans hless (hhead member hmember)
      · rename_i hless
        have hgreater : found < key := lt_of_le_of_ne (not_lt.mp hless) (Ne.symm hfound)
        refine List.pairwise_cons.mpr ⟨fun member hmember => ?_, ih hrest⟩
        rcases mem_insert hmember with rfl | hmember
        · exact hgreater
        · exact hhead member hmember

/-- A key behind all others comes last. -/
theorem insert_last (h : ∀ member ∈ map, member.1 < key) :
    insert map key value = map ++ [(key, value)] := by
  induction map with
  | nil => rfl
  | cons head rest ih =>
    obtain ⟨found, old⟩ := head
    have hfound : found < key := h (found, old) List.mem_cons_self
    unfold insert
    rw [if_neg hfound.ne', if_neg hfound.not_gt,
      ih fun member hmember => h member (List.mem_cons_of_mem _ hmember)]
    rfl

theorem lookup_eq_some_iff (h : Sorted map) : map.lookup key = some value ↔ (key, value) ∈ map := by
  induction map with
  | nil => exact iff_of_false (Option.some_ne_none value ∘ Eq.symm) List.not_mem_nil
  | cons head rest ih =>
    obtain ⟨found, old⟩ := head
    obtain ⟨hhead, hrest⟩ := List.pairwise_cons.mp h
    rw [lookup_cons, List.mem_cons, ← ih hrest, Prod.mk.injEq]
    by_cases hkey : key = found
    · have habsent : rest.lookup key ≠ some value := by
        rw [Ne, ih hrest, hkey]
        exact fun hmember => lt_irrefl found (hhead _ hmember)
      rw [if_pos hkey, Option.some.injEq]
      exact ⟨fun h => .inl ⟨hkey, h.symm⟩, fun h => (h.resolve_right habsent).2.symm⟩
    · rw [if_neg hkey]
      exact ⟨.inr, fun h => h.resolve_left fun h => hkey h.1⟩

theorem ext {other : Map} (h : Sorted map) (hother : Sorted other)
    (hsame : ∀ key, map.lookup key = other.lookup key) : map = other := by
  have hmem : ∀ member, member ∈ map ↔ member ∈ other := by
    rintro ⟨key, value⟩
    rw [← lookup_eq_some_iff h, ← lookup_eq_some_iff hother, hsame]
  have hperm : map.Perm other :=
    (List.perm_ext_iff_of_nodup (h.imp fun hlt heq => hlt.ne (congrArg Prod.fst heq))
      (hother.imp fun hlt heq => hlt.ne (congrArg Prod.fst heq))).mpr hmem
  exact hperm.eq_of_pairwise (fun _ _ _ _ hlt hgt => absurd hgt hlt.not_gt) h hother

/-! ## Overlays -/

theorem sorted_overlay {base : Map} (h : Sorted base) (members : List (String × Value)) :
    Sorted (overlay base members) := by
  unfold overlay
  induction members generalizing base with
  | nil => exact h
  | cons member rest ih => exact ih (sorted_insert h)

theorem lookup_overlay (base : Map) (members : List (String × Value)) (name : String) :
    (overlay base members).lookup name =
      ((overlay [] members).lookup name).or (base.lookup name) := by
  unfold overlay
  induction members using List.reverseRecOn with
  | nil => rfl
  | append_singleton rest member ih =>
    rw [List.foldl_concat, List.foldl_concat, lookup_insert, lookup_insert, ih]
    split
    · rfl
    · rfl

/-- Of the members with one key the last is found. -/
theorem lookup_overlay_nil (members : List (String × Value)) (name : String) :
    (overlay [] members).lookup name = members.reverse.lookup name := by
  unfold overlay
  induction members using List.reverseRecOn with
  | nil => rfl
  | append_singleton rest member ih =>
    rw [List.foldl_concat, lookup_insert, ih, List.reverse_concat, lookup_cons]

theorem mem_of_lookup_overlay {members : List (String × Value)}
    (h : (overlay [] members).lookup key = some value) : (key, value) ∈ members := by
  rw [lookup_overlay_nil, List.lookup_eq_some_iff] at h
  obtain ⟨before, after, hsplit, -⟩ := h
  refine List.mem_reverse.mp ?_
  rw [hsplit]
  exact List.mem_append_right before List.mem_cons_self

theorem exists_lookup_overlay {members : List (String × Value)} (h : (key, value) ∈ members) :
    ∃ found, (overlay [] members).lookup key = some found := by
  rw [lookup_overlay_nil]
  refine Option.isSome_iff_exists.mp (List.lookup_isSome_iff.mpr ⟨(key, value), ?_, ?_⟩)
  · exact List.mem_reverse.mpr h
  · exact beq_self_eq_true key

/-- A map is what its members make. -/
theorem overlay_nil (h : Sorted map) : overlay [] map = map := by
  unfold overlay
  induction map using List.reverseRecOn with
  | nil => rfl
  | append_singleton rest member ih =>
    obtain ⟨hrest, -, hlast⟩ := List.pairwise_append.mp h
    rw [List.foldl_concat, ih hrest]
    exact insert_last fun other hother => hlast other hother member List.mem_cons_self

theorem overlay_overlay (base : Map) (hbase : Sorted base) (members : List (String × Value)) :
    overlay base (overlay [] members) = overlay base members := by
  have hmembers : Sorted (overlay [] members) := sorted_overlay .nil members
  refine ext (sorted_overlay hbase _) (sorted_overlay hbase _) fun name => ?_
  rw [lookup_overlay base members, lookup_overlay base (overlay [] members), overlay_nil hmembers]

end RustMcpCore.Map
