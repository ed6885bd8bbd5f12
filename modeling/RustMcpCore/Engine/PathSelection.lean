import RustMcpCore.Engine.Templating
import RustMcpCore.Library.Scanning

/-! # Paths into JSON values

What a path spells is given by a grammar. The tokenizer drops what the grammar does not
know, and follows the rest.
-/
namespace RustMcpCore.Templating
open Library

/-! ## Well-formed paths -/

def IsName (name : List Char) : Prop := name ≠ [] ∧ ∀ c ∈ name, c ≠ '.' ∧ c ≠ '['

def IsDecimal (digits : List Char) : Prop := digits ≠ [] ∧ digits.all Char.isDigit

def decimalValue (digits : List Char) : ℕ :=
  digits.foldl (fun n c => 10 * n + (c.toNat - '0'.toNat)) 0

/-- What may stand behind a segment: a dot and a name, or an index in brackets. -/
inductive Continues : List PathToken → List Char → Prop
  | nil : Continues [] []
  | field {name rest : List Char} {segments : List PathToken} (isName : IsName name)
      (more : Continues segments rest) :
      Continues (.field (.ofList name) :: segments) ('.' :: (name ++ rest))
  | index {digits rest : List Char} {segments : List PathToken} (isDecimal : IsDecimal digits)
      (more : Continues segments rest) :
      Continues (.index (decimalValue digits) :: segments) ('[' :: (digits ++ ']' :: rest))

/-- The segments that a path spells, of which there is one at least. -/
inductive Spells : List PathToken → List Char → Prop
  | field {name rest : List Char} {segments : List PathToken} (isName : IsName name)
      (more : Continues segments rest) : Spells (.field (.ofList name) :: segments) (name ++ rest)
  | index {digits rest : List Char} {segments : List PathToken} (isDecimal : IsDecimal digits)
      (more : Continues segments rest) :
      Spells (.index (decimalValue digits) :: segments) ('[' :: (digits ++ ']' :: rest))

/-- The place in a value to which segments lead one after another. -/
inductive Follows : Value → List PathToken → Value → Prop
  | here (value : Value) : Follows value [] value
  | field {members : List (String × Value)} {name : String} {value result : Value}
      {segments : List PathToken} (found : members.lookup name = some value)
      (rest : Follows value segments result) :
      Follows (.object members) (.field name :: segments) result
  | index {items : List Value} {index : ℕ} {value result : Value} {segments : List PathToken}
      (found : items[index]? = some value) (rest : Follows value segments result) :
      Follows (.array items) (.index index :: segments) result

/-- Each index is one that a machine word holds. -/
def Fits (segments : List PathToken) : Prop := ∀ index, .index index ∈ segments → index < 2 ^ 64

/-! ## The tokenizer -/

theorem pathTokens_name {current name rest : List Char} (hname : ∀ c ∈ name, c ≠ '.' ∧ c ≠ '[') :
    pathTokens current none (name ++ rest) = pathTokens (current ++ name) none rest := by
  induction name generalizing current with
  | nil => rw [List.nil_append, List.append_nil]
  | cons c name ih =>
    obtain ⟨⟨hdot, hopen⟩, hname⟩ := List.forall_mem_cons.mp hname
    rw [List.cons_append, pathTokens, if_neg hdot, if_neg hopen, ih hname, List.append_assoc,
      List.singleton_append]

theorem pathTokens_digits {current found digits rest : List Char} (hdigits : ']' ∉ digits) :
    pathTokens current (some found) (digits ++ ']' :: rest) =
      indexOf (found ++ digits) ++ pathTokens [] none rest := by
  induction digits generalizing found with
  | nil => rw [List.nil_append, List.append_nil, pathTokens, if_pos rfl]
  | cons c digits ih =>
    obtain ⟨hclose, hdigits⟩ := List.ne_and_not_mem_of_not_mem_cons hdigits
    rw [List.cons_append, pathTokens, if_neg hclose.symm, ih hdigits, List.append_assoc,
      List.singleton_append]

theorem close_not_mem {digits : List Char} (hdigits : IsDecimal digits) : ']' ∉ digits := fun h => by
  have hclose := List.all_eq_true.mp hdigits.2 _ h
  cases hclose

theorem indexOf_decimal {digits : List Char} (hdigits : IsDecimal digits)
    (hfits : decimalValue digits < 2 ^ 64) : indexOf digits = [.index (decimalValue digits)] := by
  unfold indexOf
  rw [Text.parseUsize_digits hdigits.1 hdigits.2]
  unfold decimalValue at hfits ⊢
  rw [if_pos hfits]
  rfl

theorem fieldOf_name {name : List Char} (hname : IsName name) :
    fieldOf name = [.field (.ofList name)] :=
  if_neg (mt List.isEmpty_iff.mp hname.1)

theorem pathTokens_continues {segments : List PathToken} {rest : List Char}
    (h : Continues segments rest) (hfits : Fits segments) (current : List Char) :
    pathTokens current none rest = fieldOf current ++ segments := by
  induction h generalizing current with
  | nil => rw [pathTokens, List.append_nil]
  | @field name rest segments hname _ ih =>
    have hrest : Fits segments := fun index hindex => hfits index (List.mem_cons_of_mem _ hindex)
    rw [pathTokens, if_pos rfl, pathTokens_name hname.2, List.nil_append, ih hrest,
      fieldOf_name hname]
    rfl
  | @index digits rest segments hdigits _ ih =>
    have hrest : Fits segments := fun index hindex => hfits index (List.mem_cons_of_mem _ hindex)
    have hindex := indexOf_decimal hdigits (hfits _ List.mem_cons_self)
    rw [pathTokens, if_neg (by decide), if_pos rfl, pathTokens_digits (close_not_mem hdigits),
      List.nil_append, hindex, ih hrest]
    rfl

/-- A path is read like one behind a dot, if it does not begin with an index. -/
theorem Spells.continues {segments : List PathToken} {text : List Char} (h : Spells segments text) :
    Continues segments ('.' :: text) ∨ Continues segments text := by
  cases h with
  | field hname hmore => exact .inl (.field hname hmore)
  | index hdigits hmore => exact .inr (.index hdigits hmore)

/-- A well-formed path is read as the segments it spells. -/
theorem parsePath_spells {segments : List PathToken} {path : String}
    (h : Spells segments path.toList) (hfits : Fits segments) : parsePath path = segments := by
  rcases h.continues with h | h
  · have hdot := pathTokens_continues h hfits []
    rw [pathTokens, if_pos rfl] at hdot
    exact hdot
  · exact pathTokens_continues h hfits []

theorem fits_fieldOf (current : List Char) : Fits (fieldOf current) := by
  unfold fieldOf
  intro index hindex
  split at hindex
  · cases hindex
  · cases List.mem_singleton.mp hindex

theorem fits_indexOf (digits : List Char) : Fits (indexOf digits) := by
  intro index hindex
  obtain ⟨n, hn, heq⟩ := Option.map_eq_some_iff.mp (Option.mem_toList.mp hindex)
  cases heq
  exact Text.lt_of_parseUsize hn

theorem fits_append {first second : List PathToken} (hfirst : Fits first) (hsecond : Fits second) :
    Fits (first ++ second) := fun index hindex =>
  (List.mem_append.mp hindex).elim (hfirst index) (hsecond index)

theorem fits_pathTokens (current : List Char) (digits : Option (List Char)) (text : List Char) :
    Fits (pathTokens current digits text) := by
  induction text generalizing current digits with
  | nil =>
    cases digits with
    | none => exact fits_fieldOf current
    | some digits => exact fits_indexOf digits
  | cons c text ih =>
    cases digits with
    | none =>
      unfold pathTokens
      split
      · exact fits_append (fits_fieldOf current) (ih _ _)
      · split
        · exact fits_append (fits_fieldOf current) (ih _ _)
        · exact ih _ _
    | some digits =>
      unfold pathTokens
      split
      · exact fits_append (fits_indexOf digits) (ih _ _)
      · exact ih _ _

/-! ## Selection -/

theorem selectPath_iff {value result : Value} {path : String} :
    selectPath value path = some result ↔ Follows value (parsePath path) result := by
  unfold selectPath
  generalize parsePath path = segments
  induction segments generalizing value with
  | nil =>
    refine ⟨fun h => ?_, fun h => ?_⟩
    · cases h
      exact .here _
    · cases h
      rfl
  | cons segment segments ih =>
    rw [List.foldlM_cons, Option.bind_eq_bind, Option.bind_eq_some_iff]
    simp only [ih]
    constructor
    · rintro ⟨next, hnext, hrest⟩
      cases segment with
      | field name =>
        cases value with
        | object members => exact .field hnext hrest
        | _ => cases hnext
      | index index =>
        cases value with
        | array items => exact .index hnext hrest
        | _ => cases hnext
    · intro h
      cases h with
      | field hfound hrest => exact ⟨_, hfound, hrest⟩
      | index hfound hrest => exact ⟨_, hfound, hrest⟩

/-- A value with a place at the end of the segments, and no longer array than they need. -/
def valueAt : List PathToken → Value
  | [] => .null
  | .field name :: segments => .object [(name, valueAt segments)]
  | .index index :: segments => .array (List.replicate index .null ++ [valueAt segments])

theorem follows_valueAt (segments : List PathToken) : Follows (valueAt segments) segments .null := by
  induction segments with
  | nil => exact .here .null
  | cons segment segments ih =>
    cases segment with
    | field name => exact .field (by simp) ih
    | index index => exact .index (by simp) ih

theorem fits_of_follows {segments followed : List PathToken} {result : Value}
    (hfits : Fits segments) (h : Follows (valueAt segments) followed result) : Fits followed := by
  induction segments generalizing followed with
  | nil =>
    cases h
    exact fun index hindex => by cases hindex
  | cons segment segments ih =>
    have hrest : Fits segments := fun index hindex => hfits index (List.mem_cons_of_mem _ hindex)
    cases segment with
    | field name =>
      cases h with
      | here => exact fun index hindex => by cases hindex
      | @field _ _ _ _ rest hfound hfollows =>
        rw [List.lookup_cons] at hfound
        split at hfound
        · cases hfound
          intro index hindex
          rcases List.mem_cons.mp hindex with hindex | hindex
          · cases hindex
          · exact ih hrest hfollows index hindex
        · cases hfound
    | index position =>
      have hposition : position < 2 ^ 64 := hfits position List.mem_cons_self
      cases h with
      | here => exact fun index hindex => by cases hindex
      | @index _ found _ _ rest hfound hfollows =>
        have hbound : found < position + 1 := by
          have hlength := (List.getElem?_eq_some_iff.mp hfound).1
          rw [List.length_append, List.length_replicate, List.length_singleton] at hlength
          exact hlength
        have hfound' : found < 2 ^ 64 := by omega
        have hnext : Fits rest := by
          by_cases hlast : found = position
          · rw [hlast, List.getElem?_append_right (by simp), List.length_replicate,
              Nat.sub_self] at hfound
            cases hfound
            exact ih hrest hfollows
          · rw [List.getElem?_append_left (by rw [List.length_replicate]; omega),
              List.getElem?_replicate_of_lt (by omega)] at hfound
            cases hfound
            cases hfollows
            exact fun index hindex => by cases hindex
        intro index hindex
        rcases List.mem_cons.mp hindex with hindex | hindex
        · cases hindex
          exact hfound'
        · exact hnext index hindex

/-- A path selects what it spells, and nothing else, exactly if it is well formed and no
index is too large. -/
theorem selectPath_exact_iff (path : String) :
    (∀ value result, selectPath value path = some result →
      ∃ segments, Spells segments path.toList ∧ Follows value segments result) ↔
      ∃ segments, Spells segments path.toList ∧ Fits segments := by
  constructor
  · intro h
    obtain ⟨segments, hspells, hfollows⟩ := h _ _ (selectPath_iff.mpr (follows_valueAt _))
    exact ⟨segments, hspells, fits_of_follows (fits_pathTokens _ _ _) hfollows⟩
  · rintro ⟨segments, hspells, hfits⟩ value result hselect
    rw [selectPath_iff, parsePath_spells hspells hfits] at hselect
    exact ⟨segments, hspells, hselect⟩

/-- An index that is no number is dropped, and the whole value is selected. -/
theorem selectPath_dropped_index :
    selectPath (.object [("token", .string "secret")]) "[x]" =
        some (.object [("token", .string "secret")]) ∧
      ¬ ∃ segments, Spells segments "[x]".toList := by
  refine ⟨rfl, ?_⟩
  rintro ⟨segments, h⟩
  have htext : "[x]".toList = ['[', 'x', ']'] := rfl
  rw [htext] at h
  generalize heq : ['[', 'x', ']'] = text at h
  cases h with
  | @field name _ _ hname _ =>
    cases name with
    | nil => exact hname.1 rfl
    | cons c name =>
      have hc : c = '[' := (List.cons.inj heq).1.symm
      exact (hname.2 c List.mem_cons_self).2 hc
  | @index digits _ _ hdigits _ =>
    cases digits with
    | nil => exact hdigits.1 rfl
    | cons c digits =>
      have hc : c = 'x' := (List.cons.inj (List.cons.inj heq).2).1.symm
      have hdigit := List.all_eq_true.mp hdigits.2 c List.mem_cons_self
      rw [hc] at hdigit
      cases hdigit

end RustMcpCore.Templating
