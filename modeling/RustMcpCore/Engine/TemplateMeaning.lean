import RustMcpCore.Engine.Templating
import RustMcpCore.Library.Scanning
import RustMcpCore.Maps

/-! # What templates mean

The meaning of a template is given by where its placeholders stand, without a scanner,
and the renderer computes it.
-/
namespace RustMcpCore

/-- The members of each object stand in the order of their keys, as `serde_json` holds them. -/
inductive Value.Ordered : Value → Prop
  | null : Ordered .null
  | bool (value : Bool) : Ordered (.bool value)
  | number (value : Number) : Ordered (.number value)
  | string (value : String) : Ordered (.string value)
  | array {items : List Value} (each : ∀ item ∈ items, Ordered item) : Ordered (.array items)
  | object {members : List (String × Value)} (keys : Map.Sorted members)
      (each : ∀ member ∈ members, Ordered member.2) : Ordered (.object members)

namespace Templating
open Library
variable (json : SerdeJson) (ctx : RenderContext)

/-! ## The meaning -/

/-- The value that an expression names, if it is there. -/
def found (base : String) (filters : List Filter) : Option Value :=
  filters.foldl (applyFilter json) (resolveBase base ctx)

/-- A placeholder stands for what it finds, or for nothing if it may. -/
inductive Evaluates (expr : List Char) : Rendered → Prop
  | value {base : String} {optional : Bool} {filters : List Filter} {value : Value}
      (parses : parseExpression json (.ofList expr) = .ok (base, optional, filters))
      (there : found json ctx base filters = some value) (present : value ≠ .null) :
      Evaluates expr (.value value)
  | omitted {base : String} {filters : List Filter}
      (parses : parseExpression json (.ofList expr) = .ok (base, true, filters))
      (missing : isMissing (found json ctx base filters) = true) : Evaluates expr .omitted

/-- The text is a single placeholder, but for white space around it. -/
def Sole (text expr : List Char) : Prop :=
  ∃ lead trail : List Char, lead.all Text.isWhitespace ∧ trail.all Text.isWhitespace ∧
    text = lead ++ '$' :: '{' :: expr ++ '}' :: trail ∧ ¬ ['$', '{'] <:+: expr ∧ '}' ∉ expr

/-- The textual form of what a placeholder stands for. -/
def textOf : Rendered → List Char
  | .value value => (valueToString json value).toList
  | .omitted => []

/-- The literal parts of a text, and between them the textual forms of its placeholders. -/
inductive TextMeans : List Char → List Char → Prop
  | literal {text : List Char} (plain : ¬ ['$', '{'] <:+: text) : TextMeans text text
  | placeholder {before expr after out : List Char} {rendered : Rendered}
      (plain : ¬ ['$', '{'] <:+: before) (closed : '}' ∉ expr)
      (evaluates : Evaluates json ctx expr rendered) (rest : TextMeans after out) :
      TextMeans (before ++ '$' :: '{' :: (expr ++ '}' :: after))
        (before ++ textOf json rendered ++ out)

mutual

/-- Entries that mean nothing are left out, and all others are kept in their order. -/
inductive Means : Value → Rendered → Prop
  | null : Means .null (.value .null)
  | bool (value : Bool) : Means (.bool value) (.value (.bool value))
  | number (value : Number) : Means (.number value) (.value (.number value))
  | sole {value : String} {expr : List Char} {rendered : Rendered}
      (sole : Sole value.toList expr) (evaluates : Evaluates json ctx expr rendered) :
      Means (.string value) rendered
  | text {value : String} {out : List Char} (mixed : ∀ expr, ¬ Sole value.toList expr)
      (means : TextMeans json ctx value.toList out) :
      Means (.string value) (.value (.string (.ofList out)))
  | array {items out : List Value} (means : ItemsMean items out) :
      Means (.array items) (.value (.array out))
  | object {members out : List (String × Value)} (means : MembersMean members out) :
      Means (.object members) (.value (.object out))

inductive ItemsMean : List Value → List Value → Prop
  | nil : ItemsMean [] []
  | kept {item value : Value} {items out : List Value} (means : Means item (.value value))
      (rest : ItemsMean items out) : ItemsMean (item :: items) (value :: out)
  | dropped {item : Value} {items out : List Value} (means : Means item .omitted)
      (rest : ItemsMean items out) : ItemsMean (item :: items) out

inductive MembersMean : List (String × Value) → List (String × Value) → Prop
  | nil : MembersMean [] []
  | kept {key : String} {member value : Value} {members out : List (String × Value)}
      (means : Means member (.value value)) (rest : MembersMean members out) :
      MembersMean ((key, member) :: members) ((key, value) :: out)
  | dropped {key : String} {member : Value} {members out : List (String × Value)}
      (means : Means member .omitted) (rest : MembersMean members out) :
      MembersMean ((key, member) :: members) out

end

/-! ## Placeholders that fail -/

inductive Placeholder
  | closed (expr : List Char)
  | unclosed

/-- Malformed, or required and missing. -/
def Placeholder.Faulty : Placeholder → Prop
  | .unclosed => True
  | .closed expr => (∃ error, parseExpression json (.ofList expr) = .error error) ∨
      ∃ base filters, parseExpression json (.ofList expr) = .ok (base, false, filters) ∧
        isMissing (found json ctx base filters) = true

/-- The placeholders of a text up to the first that fails. -/
inductive TextReaches : List Char → Placeholder → Prop
  | unclosed {before after : List Char} (plain : ¬ ['$', '{'] <:+: before) (closed : '}' ∉ after) :
      TextReaches (before ++ '$' :: '{' :: after) .unclosed
  | first {before expr after : List Char} (plain : ¬ ['$', '{'] <:+: before) (closed : '}' ∉ expr) :
      TextReaches (before ++ '$' :: '{' :: (expr ++ '}' :: after)) (.closed expr)
  | later {before expr after : List Char} {placeholder : Placeholder}
      (plain : ¬ ['$', '{'] <:+: before) (closed : '}' ∉ expr)
      (passed : ¬ (Placeholder.closed expr).Faulty json ctx)
      (rest : TextReaches after placeholder) :
      TextReaches (before ++ '$' :: '{' :: (expr ++ '}' :: after)) placeholder

/-- The placeholders of a template up to the first that fails. -/
inductive Reaches : Value → Placeholder → Prop
  | sole {value : String} {expr : List Char} (sole : Sole value.toList expr) :
      Reaches (.string value) (.closed expr)
  | text {value : String} {placeholder : Placeholder} (mixed : ∀ expr, ¬ Sole value.toList expr)
      (reaches : TextReaches json ctx value.toList placeholder) : Reaches (.string value) placeholder
  | item {before after : List Value} {item : Value} {placeholder : Placeholder}
      (passed : ∀ earlier ∈ before, Renders json ctx earlier) (reaches : Reaches item placeholder) :
      Reaches (.array (before ++ item :: after)) placeholder
  | member {before after : List (String × Value)} {key : String} {value : Value}
      {placeholder : Placeholder} (passed : ∀ earlier ∈ before, Renders json ctx earlier.2)
      (reaches : Reaches value placeholder) :
      Reaches (.object (before ++ (key, value) :: after)) placeholder

/-! ## Strings -/

section Strings
variable {json ctx}

theorem isMissing_eq_false_iff {found : Option Value} :
    isMissing found = false ↔ ∃ value, found = some value ∧ value ≠ .null := by
  cases found with
  | none => exact iff_of_false (fun h => by cases h) fun ⟨_, h, _⟩ => by cases h
  | some value =>
    cases value with
    | null =>
      refine iff_of_false (fun h => by cases h) ?_
      rintro ⟨_, h, hnull⟩
      cases h
      exact hnull rfl
    | _ => exact iff_of_true rfl ⟨_, rfl, fun h => by cases h⟩

section Parsed
variable {expr base : String} {optional : Bool} {filters : List Filter}
  (hparse : parseExpression json expr = .ok (base, optional, filters))
include hparse

theorem renderExpression_present {value : Value}
    (hfound : found json ctx base filters = some value) (hpresent : value ≠ .null) :
    renderExpression json expr ctx = .ok (.value value) := by
  unfold found at hfound
  unfold renderExpression
  rw [hparse]
  simp only [bind, Except.bind, hfound]
  rfl

theorem renderExpression_missing (hmissing : isMissing (found json ctx base filters) = true) :
    renderExpression json expr ctx =
      if optional then .ok .omitted
      else .error (.invalidParams s!"missing required value for '{base}'" none) := by
  unfold found at hmissing
  unfold renderExpression
  rw [hparse]
  simp only [bind, Except.bind]
  split
  · rfl
  · rfl
  · rename_i value hnull hvalue
    rw [hvalue] at hmissing
    have hpresent := isMissing_eq_false_iff.mpr ⟨value, rfl, hnull⟩
    rw [hpresent] at hmissing
    cases hmissing

end Parsed

theorem renderExpression_iff {expr : List Char} {rendered : Rendered} :
    renderExpression json (.ofList expr) ctx = .ok rendered ↔
      Evaluates json ctx expr rendered := by
  constructor
  · intro h
    have hparsed := h
    obtain ⟨⟨base, optional, filters⟩, hparse, -⟩ := bind_eq_ok hparsed
    cases hmissing : isMissing (found json ctx base filters) with
    | true =>
      rw [renderExpression_missing hparse hmissing] at h
      split at h
      · rename_i hoptional
        cases h
        exact .omitted (hoptional ▸ hparse) hmissing
      · cases h
    | false =>
      obtain ⟨value, hfound, hpresent⟩ := isMissing_eq_false_iff.mp hmissing
      rw [renderExpression_present hparse hfound hpresent] at h
      cases h
      exact .value hparse hfound hpresent
  · intro h
    cases h with
    | value hparse hthere hpresent => exact renderExpression_present hparse hthere hpresent
    | omitted hparse hmissing => exact renderExpression_missing hparse hmissing

theorem faulty_iff {expr : List Char} :
    (Placeholder.closed expr).Faulty json ctx ↔ ¬ ExpressionRenders json ctx (.ofList expr) := by
  change (_ ∨ _) ↔ _
  constructor
  · rintro hfaulty ⟨base, optional, filters, hparse, hrenders⟩
    rcases hfaulty with ⟨error, h⟩ | ⟨base', filters', h, hmissing⟩
    · cases h.symm.trans hparse
    · cases h.symm.trans hparse
      rcases hrenders with hoptional | hthere
      · cases hoptional
      · cases hmissing.symm.trans hthere
  · intro h
    cases hparse : parseExpression json (.ofList expr) with
    | error error => exact .inl ⟨error, rfl⟩
    | ok parsed =>
      obtain ⟨base, optional, filters⟩ := parsed
      have hrequired : ¬ (optional = true ∨ isMissing (found json ctx base filters) = false) :=
        fun hrenders => h ⟨base, optional, filters, hparse, hrenders⟩
      rw [not_or, Bool.not_eq_true, Bool.not_eq_false] at hrequired
      obtain ⟨rfl, hmissing⟩ := hrequired
      exact .inr ⟨base, filters, rfl, hmissing⟩

theorem singlePlaceholder_iff {text expr : String} :
    singlePlaceholder text = some expr ↔
      text.toList = '$' :: '{' :: expr.toList ++ ['}'] ∧ ¬ ['$', '{'] <:+: expr.toList ∧
        '}' ∉ expr.toList := by
  unfold singlePlaceholder
  simp only
  split
  · rename_i rest htext
    rw [htext]
    constructor
    · intro h
      split at h
      · rename_i hclosed
        split at h
        · rename_i hplain
          cases h
          rw [Bool.and_eq_true, Option.isNone_iff_eq_none, Option.isNone_iff_eq_none,
            Text.cut_eq_none_iff, Text.cut_char_eq_none_iff] at hplain
          rw [String.toList_ofList]
          refine ⟨?_, hplain⟩
          rw [List.cons_append, List.cons_append, List.dropLast_append_getLast? _ hclosed]
        · cases h
      · cases h
    · rintro ⟨heq, hopen, hclose⟩
      rw [List.cons_append, List.cons_append, List.cons.injEq, List.cons.injEq] at heq
      obtain ⟨-, -, rfl⟩ := heq
      rw [if_pos List.getLast?_concat, List.dropLast_concat, Text.cut_eq_none_iff.mpr hopen,
        Text.cut_char_eq_none_iff.mpr hclose, String.ofList_toList]
      rfl
  · rename_i hother
    refine iff_of_false (fun h => by cases h) ?_
    rintro ⟨heq, -⟩
    exact hother _ heq

theorem sole_iff {value : String} {expr : List Char} :
    singlePlaceholder (Text.trim value) = some (.ofList expr) ↔ Sole value.toList expr := by
  rw [singlePlaceholder_iff, String.toList_ofList]
  constructor
  · rintro ⟨htrim, hplain⟩
    obtain ⟨lead, trail, hlead, htrail, hvalue⟩ := Text.trim_split value
    refine ⟨lead, trail, hlead, htrail, ?_, hplain⟩
    rw [hvalue, htrim]
    simp only [List.append_assoc, List.cons_append, List.nil_append]
  · rintro ⟨lead, trail, hlead, htrail, hvalue, hplain⟩
    refine ⟨@Text.toList_trim value lead _ trail ?_ hlead htrail ?_ ?_, hplain⟩
    · rw [hvalue]
      simp only [List.append_assoc, List.cons_append, List.nil_append]
    · intro c hc
      cases hc
      rfl
    · intro c hc
      rw [List.getLast?_concat] at hc
      cases hc
      rfl

section Parts
variable {text before opened expr after : List Char}

theorem open_iff : Text.cut ['$', '{'] text = some (before, opened) ↔
    text = before ++ '$' :: '{' :: opened ∧ ¬ ['$', '{'] <:+: before :=
  Text.cut_mark_eq_some_iff (by decide)

theorem not_open_nil : ¬ ['$', '{'] <:+: ([] : List Char) := fun h =>
  List.cons_ne_nil _ _ (List.infix_nil.mp h)

theorem cut_open (hplain : ¬ ['$', '{'] <:+: before) (opened : List Char) :
    Text.cut ['$', '{'] (before ++ '$' :: '{' :: opened) = some (before, opened) :=
  open_iff.mpr ⟨rfl, hplain⟩

theorem cut_close (hclosed : '}' ∉ expr) (after : List Char) :
    Text.cut ['}'] (expr ++ '}' :: after) = some (expr, after) :=
  Text.cut_char_eq_some_iff.mpr ⟨rfl, hclosed⟩

/-- A text is read by its first placeholder, if it has one. -/
theorem parts (text : List Char) : ¬ ['$', '{'] <:+: text ∨
    (∃ before opened, Text.cut ['$', '{'] text = some (before, opened) ∧ '}' ∉ opened) ∨
    ∃ before opened expr after, Text.cut ['$', '{'] text = some (before, opened) ∧
      Text.cut ['}'] opened = some (expr, after) := by
  cases hstart : Text.cut ['$', '{'] text with
  | none => exact .inl (Text.cut_eq_none_iff.mp hstart)
  | some found =>
    obtain ⟨before, opened⟩ := found
    cases hend : Text.cut ['}'] opened with
    | none => exact .inr (.inl ⟨before, opened, rfl, Text.cut_char_eq_none_iff.mp hend⟩)
    | some found => exact .inr (.inr ⟨before, opened, found.1, found.2, rfl, hend⟩)

variable (hstart : Text.cut ['$', '{'] text = some (before, opened))
include hstart

theorem open_within : ['$', '{'] <:+: text :=
  ⟨before, opened, by rw [(open_iff.mp hstart).1, List.append_assoc]; rfl⟩

theorem eq_parts (hend : Text.cut ['}'] opened = some (expr, after)) :
    text = before ++ '$' :: '{' :: (expr ++ '}' :: after) := by
  rw [(open_iff.mp hstart).1, (Text.cut_char_eq_some_iff.mp hend).1]

/-- The parts of a text are determined. -/
theorem parts_unique {before' expr' after' : List Char}
    (hend : Text.cut ['}'] opened = some (expr, after)) (hplain : ¬ ['$', '{'] <:+: before')
    (hclosed : '}' ∉ expr') (h : text = before' ++ '$' :: '{' :: (expr' ++ '}' :: after')) :
    before' = before ∧ expr' = expr ∧ after' = after := by
  subst h
  cases (cut_open hplain _).symm.trans hstart
  cases (cut_close hclosed after').symm.trans hend
  exact ⟨rfl, rfl, rfl⟩

theorem textMeans_iff (hend : Text.cut ['}'] opened = some (expr, after)) {out : List Char} :
    TextMeans json ctx text out ↔ ∃ rendered rest, Evaluates json ctx expr rendered ∧
      TextMeans json ctx after rest ∧ out = before ++ textOf json rendered ++ rest := by
  constructor
  · intro h
    cases h with
    | literal hplain => exact absurd (open_within hstart) hplain
    | placeholder hplain hclosed hevaluates hrest =>
      obtain ⟨rfl, rfl, rfl⟩ := parts_unique hstart hend hplain hclosed rfl
      exact ⟨_, _, hevaluates, hrest, rfl⟩
  · rintro ⟨rendered, rest, hevaluates, hrest, rfl⟩
    rw [eq_parts hstart hend]
    exact .placeholder (open_iff.mp hstart).2 (Text.cut_char_eq_some_iff.mp hend).2 hevaluates hrest

theorem not_textMeans (hend : '}' ∉ opened) {out : List Char} : ¬ TextMeans json ctx text out := by
  intro h
  cases h with
  | literal hplain => exact hplain (open_within hstart)
  | placeholder hplain _ _ _ =>
    cases (cut_open hplain _).symm.trans hstart
    exact hend (List.mem_append_right _ List.mem_cons_self)

end Parts

theorem textMeans_plain {text out : List Char} (hplain : ¬ ['$', '{'] <:+: text) :
    TextMeans json ctx text out ↔ out = text := by
  constructor
  · intro h
    cases h with
    | literal => rfl
    | placeholder _ _ _ _ =>
      exact absurd ⟨_, _, (List.append_assoc _ ['$', '{'] _)⟩ hplain
  · rintro rfl
    exact .literal hplain

theorem renderText_iff {rounds : ℕ} {output text : List Char} {rendered : Rendered}
    (hrounds : text.length ≤ rounds) : renderText json ctx rounds output text = .ok rendered ↔
      ∃ out, TextMeans json ctx text out ∧ rendered = .value (.string (.ofList (output ++ out))) := by
  induction rounds generalizing output text with
  | zero =>
    rw [List.length_eq_zero_iff.mp (Nat.le_zero.mp hrounds)]
    simp only [textMeans_plain not_open_nil, exists_eq_left]
    exact ⟨fun h => (Except.ok.inj h).symm, fun h => congrArg Except.ok h.symm⟩
  | succ rounds ih =>
    unfold renderText
    rcases parts text with hplain | ⟨before, opened, hstart, hend⟩ |
      ⟨before, opened, expr, after, hstart, hend⟩
    · rw [Text.cut_eq_none_iff.mpr hplain]
      simp only [textMeans_plain hplain, exists_eq_left]
      exact ⟨fun h => (Except.ok.inj h).symm, fun h => congrArg Except.ok h.symm⟩
    · rw [hstart]
      simp only [Text.cut_char_eq_none_iff.mpr hend]
      refine iff_of_false (fun h => by cases h) ?_
      rintro ⟨out, hmeans, -⟩
      exact not_textMeans hstart hend hmeans
    · have hafter := length_after_round hrounds hstart hend
      rw [hstart]
      simp only [hend, textMeans_iff hstart hend]
      constructor
      · intro h
        obtain ⟨part, hpart, h⟩ := bind_eq_ok h
        have hevaluates := renderExpression_iff.mp hpart
        cases part with
        | value value =>
          obtain ⟨out, hout, rfl⟩ := (ih hafter).mp h
          refine ⟨_, ⟨.value value, out, hevaluates, hout, rfl⟩, ?_⟩
          simp only [textOf, List.append_assoc]
        | omitted =>
          obtain ⟨out, hout, rfl⟩ := (ih hafter).mp h
          refine ⟨_, ⟨.omitted, out, hevaluates, hout, rfl⟩, ?_⟩
          simp only [textOf, List.append_assoc, List.nil_append]
      · rintro ⟨_, ⟨part, out, hevaluates, hout, rfl⟩, rfl⟩
        rw [renderExpression_iff.mpr hevaluates]
        cases part with
        | value value =>
          refine (ih hafter).mpr ⟨out, hout, ?_⟩
          simp only [textOf, List.append_assoc]
        | omitted =>
          refine (ih hafter).mpr ⟨out, hout, ?_⟩
          simp only [textOf, List.append_assoc, List.nil_append]

/-- The text around a single placeholder is that before and after its first one. -/
theorem sole_unique {text rest expr expr' after : List Char} (h : Sole text expr)
    (htext : text = '$' :: '{' :: rest) (hend : Text.cut ['}'] rest = some (expr', after)) :
    expr = expr' := by
  obtain ⟨lead, trail, hlead, -, hsole, -, hclosed⟩ := h
  have hplain : ¬ ['$', '{'] <:+: lead := by
    intro hin
    have hspace := List.all_eq_true.mp hlead '$' (hin.subset List.mem_cons_self)
    cases hspace
  rw [List.append_assoc] at hsole
  have hstart := cut_open hplain (expr ++ '}' :: trail)
  rw [← List.cons_append, ← List.cons_append, ← hsole, htext] at hstart
  cases hstart.symm.trans (cut_open not_open_nil rest)
  cases (cut_close hclosed trail).symm.trans hend
  rfl

theorem means_sole {value : String} {expr : List Char} (hsole : Sole value.toList expr)
    {rendered : Rendered} :
    Means json ctx (.string value) rendered ↔ Evaluates json ctx expr rendered := by
  constructor
  · intro h
    cases h with
    | sole hsole' hevaluates =>
      have hsame := Option.some.inj ((sole_iff.mpr hsole).symm.trans (sole_iff.mpr hsole'))
      rw [String.ofList_injective hsame]
      exact hevaluates
    | text hmixed _ => exact absurd hsole (hmixed _)
  · exact .sole hsole

theorem means_mixed {value : String} (hmixed : ∀ expr, ¬ Sole value.toList expr)
    {rendered : Rendered} : Means json ctx (.string value) rendered ↔
      ∃ out, TextMeans json ctx value.toList out ∧ rendered = .value (.string (.ofList out)) := by
  constructor
  · intro h
    cases h with
    | sole hsole _ => exact absurd hsole (hmixed _)
    | text _ hmeans => exact ⟨_, hmeans, rfl⟩
  · rintro ⟨out, hmeans, rfl⟩
    exact .text hmixed hmeans

theorem renderString_iff {value : String} {rendered : Rendered} :
    renderString json value ctx = .ok rendered ↔ Means json ctx (.string value) rendered := by
  unfold renderString
  cases hsingle : singlePlaceholder (Text.trim value) with
  | some text =>
    obtain ⟨expr, rfl⟩ : ∃ expr, text = .ofList expr := ⟨text.toList, String.ofList_toList.symm⟩
    simp only
    rw [renderExpression_iff, means_sole (sole_iff.mp hsingle)]
  | none =>
    have hmixed : ∀ expr, ¬ Sole value.toList expr := fun expr hsole => by
      cases hsingle.symm.trans (sole_iff.mpr hsole)
    simp only
    rw [renderText_iff (le_refl _), means_mixed hmixed]
    rfl

end Strings

/-! ## Trees -/

section Trees
variable {json ctx}

/-- In the order of the keys, what is rendered is appended. -/
theorem renderMembers_append {map out : Map} (h : Map.Sorted map)
    (hout : ∀ member ∈ map, ∀ other ∈ out, other.1 < member.1) :
    renderMembers json map out ctx =
      (renderMembers json map [] ctx).map (out ++ ·) := by
  induction map generalizing out with
  | nil =>
    unfold renderMembers
    simp [Except.map]
  | cons member rest ih =>
    obtain ⟨key, value⟩ := member
    obtain ⟨hhead, hrest⟩ := List.pairwise_cons.mp h
    unfold renderMembers
    cases renderInner json value ctx with
    | error error => rfl
    | ok rendered =>
      cases rendered with
      | omitted => exact ih hrest fun member hmember => hout member (List.mem_cons_of_mem _ hmember)
      | value rendered =>
        have hlast : Map.insert out key rendered = out ++ [(key, rendered)] :=
          Map.insert_last (hout (key, value) List.mem_cons_self)
        have hnext : ∀ before : Map, (∀ member ∈ rest, ∀ other ∈ before, other.1 < member.1) →
            renderMembers json rest (before ++ [(key, rendered)]) ctx =
              (renderMembers json rest [] ctx).map (before ++ [(key, rendered)] ++ ·) := by
          intro before hbefore
          refine ih hrest fun member hmember other hother => ?_
          rcases List.mem_append.mp hother with hother | hother
          · exact hbefore member hmember other hother
          · rw [List.mem_singleton.mp hother]
            exact hhead member hmember
        change renderMembers json rest (Map.insert out key rendered) ctx =
          (renderMembers json rest ([] ++ [(key, rendered)]) ctx).map (out ++ ·)
        rw [hlast, hnext out fun member hmember => hout member (List.mem_cons_of_mem _ hmember),
          hnext [] fun _ _ => nofun]
        cases renderMembers json rest [] ctx with
        | error error => rfl
        | ok rendered => simp [Except.map]

theorem renderMembers_cons {map : Map} {key : String} {value : Value}
    (h : Map.Sorted ((key, value) :: map)) :
    renderMembers json ((key, value) :: map) [] ctx =
      (renderInner json value ctx).bind fun rendered =>
        (renderMembers json map [] ctx).map fun out =>
          match rendered with
          | .value rendered => (key, rendered) :: out
          | .omitted => out := by
  obtain ⟨hhead, hrest⟩ := List.pairwise_cons.mp h
  rw [renderMembers]
  cases renderInner json value ctx with
  | error error => rfl
  | ok rendered =>
    cases rendered with
    | omitted =>
      change renderMembers json map [] ctx =
        (renderMembers json map [] ctx).map id
      cases renderMembers json map [] ctx with
      | error error => rfl
      | ok out => rfl
    | value rendered =>
      refine renderMembers_append hrest fun member hmember other hother => ?_
      rw [List.mem_singleton.mp hother]
      exact hhead member hmember

mutual

theorem renderInner_iff : ∀ {template : Value} {rendered : Rendered}, template.Ordered →
    (renderInner json template ctx = .ok rendered ↔ Means json ctx template rendered)
  | .null, rendered, _ => by
    refine ⟨fun h => ?_, fun h => ?_⟩
    · cases h
      exact .null
    · cases h
      rfl
  | .bool value, rendered, _ => by
    refine ⟨fun h => ?_, fun h => ?_⟩
    · cases h
      exact .bool value
    · cases h
      rfl
  | .number value, rendered, _ => by
    refine ⟨fun h => ?_, fun h => ?_⟩
    · cases h
      exact .number value
    · cases h
      rfl
  | .string value, rendered, _ => by
    rw [renderInner]
    exact renderString_iff
  | .array items, rendered, hordered => by
    have heach : ∀ item ∈ items, item.Ordered := by
      cases hordered with
      | array each => exact each
    rw [renderInner]
    constructor
    · intro h
      obtain ⟨out, hout, rfl⟩ := except_map_eq_ok h
      exact .array ((renderItems_iff heach).mp hout)
    · intro h
      cases h with
      | array hmeans =>
        rw [(renderItems_iff heach).mpr hmeans]
        rfl
  | .object members, rendered, hordered => by
    obtain ⟨hkeys, heach⟩ : Map.Sorted members ∧ ∀ member ∈ members, member.2.Ordered := by
      cases hordered with
      | object keys each => exact ⟨keys, each⟩
    rw [renderInner]
    constructor
    · intro h
      obtain ⟨out, hout, rfl⟩ := except_map_eq_ok h
      exact .object ((renderMembers_iff hkeys heach).mp hout)
    · intro h
      cases h with
      | object hmeans =>
        rw [(renderMembers_iff hkeys heach).mpr hmeans]
        rfl

theorem renderItems_iff : ∀ {items out : List Value}, (∀ item ∈ items, item.Ordered) →
    (renderItems json items ctx = .ok out ↔ ItemsMean json ctx items out)
  | [], out, _ => by
    refine ⟨fun h => ?_, fun h => ?_⟩
    · cases h
      exact .nil
    · cases h
      rfl
  | item :: items, out, hordered => by
    obtain ⟨hitem, hitems⟩ := List.forall_mem_cons.mp hordered
    rw [renderItems]
    constructor
    · intro h
      obtain ⟨rendered, hrendered, h⟩ := bind_eq_ok h
      obtain ⟨rest, hrest, h⟩ := bind_eq_ok h
      have hmeans := (renderInner_iff hitem).mp hrendered
      have hrest := (renderItems_iff hitems).mp hrest
      cases rendered with
      | value value =>
        cases h
        exact .kept hmeans hrest
      | omitted =>
        cases h
        exact .dropped hmeans hrest
    · intro h
      cases h with
      | kept hmeans hrest =>
        rw [(renderInner_iff hitem).mpr hmeans, (renderItems_iff hitems).mpr hrest]
        rfl
      | dropped hmeans hrest =>
        rw [(renderInner_iff hitem).mpr hmeans, (renderItems_iff hitems).mpr hrest]
        rfl

theorem renderMembers_iff : ∀ {members out : List (String × Value)}, Map.Sorted members →
    (∀ member ∈ members, member.2.Ordered) →
    (renderMembers json members [] ctx = .ok out ↔ MembersMean json ctx members out)
  | [], out, _, _ => by
    refine ⟨fun h => ?_, fun h => ?_⟩
    · cases h
      exact .nil
    · cases h
      rfl
  | (key, member) :: members, out, hkeys, hordered => by
    obtain ⟨hmember, hmembers⟩ := List.forall_mem_cons.mp hordered
    have hsorted : Map.Sorted members := (List.pairwise_cons.mp hkeys).2
    rw [renderMembers_cons hkeys]
    constructor
    · intro h
      obtain ⟨rendered, hrendered, h⟩ := bind_eq_ok h
      obtain ⟨rest, hrest, h⟩ := except_map_eq_ok h
      have hmeans := (renderInner_iff hmember).mp hrendered
      have hrest := (renderMembers_iff hsorted hmembers).mp hrest
      cases rendered with
      | value value =>
        cases h
        exact .kept hmeans hrest
      | omitted =>
        cases h
        exact .dropped hmeans hrest
    · intro h
      cases h with
      | kept hmeans hrest =>
        rw [(renderInner_iff hmember).mpr hmeans, (renderMembers_iff hsorted hmembers).mpr hrest]
        rfl
      | dropped hmeans hrest =>
        rw [(renderInner_iff hmember).mpr hmeans, (renderMembers_iff hsorted hmembers).mpr hrest]
        rfl

end

end Trees

/-! ## Failures -/

section Failures
variable {json ctx}

theorem textRenders_iff {text before opened expr after : List Char}
    (hstart : Text.cut ['$', '{'] text = some (before, opened))
    (hend : Text.cut ['}'] opened = some (expr, after)) :
    TextRenders json ctx text ↔
      ExpressionRenders json ctx (.ofList expr) ∧ TextRenders json ctx after := by
  constructor
  · intro h
    cases h with
    | plain hplain => cases hplain.symm.trans hstart
    | expression hstart' hend' hexpr hrest =>
      cases hstart'.symm.trans hstart
      cases hend'.symm.trans hend
      exact ⟨hexpr, hrest⟩
  · exact fun h => .expression hstart hend h.1 h.2

/-- A text renders exactly if no placeholder is reached that fails. -/
theorem textReaches_of_not_renders {rounds : ℕ} {text : List Char} (hrounds : text.length ≤ rounds)
    (h : ¬ TextRenders json ctx text) :
    ∃ placeholder, TextReaches json ctx text placeholder ∧ placeholder.Faulty json ctx := by
  induction rounds generalizing text with
  | zero =>
    rw [List.length_eq_zero_iff.mp (Nat.le_zero.mp hrounds)] at h
    exact absurd (.plain rfl) h
  | succ rounds ih =>
    rcases parts text with hplain | ⟨before, opened, hstart, hend⟩ |
      ⟨before, opened, expr, after, hstart, hend⟩
    · exact absurd (.plain (Text.cut_eq_none_iff.mpr hplain)) h
    · obtain ⟨rfl, hplain⟩ := open_iff.mp hstart
      exact ⟨.unclosed, .unclosed hplain hend, trivial⟩
    · have hplain := (open_iff.mp hstart).2
      have hclosed := (Text.cut_char_eq_some_iff.mp hend).2
      rw [eq_parts hstart hend]
      by_cases hfaulty : (Placeholder.closed expr).Faulty json ctx
      · exact ⟨.closed expr, .first hplain hclosed, hfaulty⟩
      · have hexpr := not_not.mp (mt faulty_iff.mpr hfaulty)
        have hrest : ¬ TextRenders json ctx after := fun hrest =>
          h ((textRenders_iff hstart hend).mpr ⟨hexpr, hrest⟩)
        obtain ⟨placeholder, hreaches, hp⟩ := ih (length_after_round hrounds hstart hend) hrest
        exact ⟨placeholder, .later hplain hclosed hfaulty hreaches, hp⟩

theorem not_renders_of_textReaches {text : List Char} {placeholder : Placeholder}
    (h : TextReaches json ctx text placeholder) (hfaulty : placeholder.Faulty json ctx) :
    ¬ TextRenders json ctx text := by
  induction h with
  | unclosed hplain hclosed =>
    intro h
    cases h with
    | plain hnone => cases hnone.symm.trans (cut_open hplain _)
    | expression hstart hend _ _ =>
      cases hstart.symm.trans (cut_open hplain _)
      cases hend.symm.trans (Text.cut_char_eq_none_iff.mpr hclosed)
  | first hplain hclosed =>
    rw [textRenders_iff (cut_open hplain _) (cut_close hclosed _)]
    exact fun h => faulty_iff.mp hfaulty h.1
  | later hplain hclosed _ _ ih =>
    rw [textRenders_iff (cut_open hplain _) (cut_close hclosed _)]
    exact fun h => ih hfaulty h.2

theorem stringReaches_iff {value : String} :
    ¬ Renders json ctx (.string value) ↔ ∃ placeholder,
      Reaches json ctx (.string value) placeholder ∧ placeholder.Faulty json ctx := by
  have hrenders : Renders json ctx (.string value) ↔ StringRenders json ctx value := by
    refine ⟨fun h => ?_, .string⟩
    cases h with
    | string renders => exact renders
  rw [hrenders, StringRenders]
  cases hsingle : singlePlaceholder (Text.trim value) with
  | some text =>
    obtain ⟨expr, rfl⟩ : ∃ expr, text = .ofList expr := ⟨text.toList, String.ofList_toList.symm⟩
    have hsole := sole_iff.mp hsingle
    simp only
    rw [← faulty_iff]
    constructor
    · exact fun h => ⟨.closed expr, .sole hsole, h⟩
    · rintro ⟨placeholder, h, hfaulty⟩
      cases h with
      | sole hsole' =>
        have hsame := Option.some.inj (hsingle.symm.trans (sole_iff.mpr hsole'))
        rw [String.ofList_injective hsame]
        exact hfaulty
      | text hmixed _ => exact absurd hsole (hmixed _)
  | none =>
    have hmixed : ∀ expr, ¬ Sole value.toList expr := fun expr hsole => by
      cases hsingle.symm.trans (sole_iff.mpr hsole)
    simp only
    constructor
    · intro h
      obtain ⟨placeholder, hreaches, hfaulty⟩ := textReaches_of_not_renders (le_refl _) h
      exact ⟨placeholder, .text hmixed hreaches, hfaulty⟩
    · rintro ⟨placeholder, h, hfaulty⟩
      cases h with
      | sole hsole => exact absurd hsole (hmixed _)
      | text _ hreaches => exact not_renders_of_textReaches hreaches hfaulty

theorem exists_first_not {A : Type} {P : A → Prop} {l : List A} (h : ¬ ∀ x ∈ l, P x) :
    ∃ before x after, l = before ++ x :: after ∧ (∀ y ∈ before, P y) ∧ ¬ P x := by
  induction l with
  | nil => exact absurd (List.forall_mem_nil P) h
  | cons x l ih =>
    by_cases hx : P x
    · obtain ⟨before, y, after, rfl, hbefore, hy⟩ :=
        ih fun hl => h (List.forall_mem_cons.mpr ⟨hx, hl⟩)
      exact ⟨x :: before, y, after, rfl, List.forall_mem_cons.mpr ⟨hx, hbefore⟩, hy⟩
    · exact ⟨[], x, l, rfl, List.forall_mem_nil P, hx⟩

theorem reaches_of_not_renders : ∀ {template : Value}, ¬ Renders json ctx template →
    ∃ placeholder, Reaches json ctx template placeholder ∧ placeholder.Faulty json ctx
  | .null, h => absurd .null h
  | .bool value, h => absurd (.bool value) h
  | .number value, h => absurd (.number value) h
  | .string value, h => stringReaches_iff.mp h
  | .array items, h => by
    obtain ⟨before, item, after, heq, hbefore, hitem⟩ :=
      exists_first_not (fun heach => h (.array heach))
    have hmem : item ∈ items := heq ▸ List.mem_append_right before List.mem_cons_self
    have hsize : sizeOf item < sizeOf items := List.sizeOf_lt_of_mem hmem
    obtain ⟨placeholder, hreaches, hfaulty⟩ := reaches_of_not_renders hitem
    exact ⟨placeholder, heq ▸ .item hbefore hreaches, hfaulty⟩
  | .object members, h => by
    obtain ⟨before, ⟨key, value⟩, after, heq, hbefore, hvalue⟩ :=
      exists_first_not (fun heach => h (.object heach))
    have hmem : (key, value) ∈ members := heq ▸ List.mem_append_right before List.mem_cons_self
    have hsize : sizeOf value < sizeOf members := by
      have hpair := List.sizeOf_lt_of_mem hmem
      rw [Prod.mk.sizeOf_spec] at hpair
      omega
    obtain ⟨placeholder, hreaches, hfaulty⟩ := reaches_of_not_renders hvalue
    exact ⟨placeholder, heq ▸ .member hbefore hreaches, hfaulty⟩
termination_by template => sizeOf template

theorem not_renders_of_reaches {template : Value} {placeholder : Placeholder}
    (h : Reaches json ctx template placeholder) (hfaulty : placeholder.Faulty json ctx) :
    ¬ Renders json ctx template := by
  induction h with
  | sole hsole => exact stringReaches_iff.mpr ⟨_, .sole hsole, hfaulty⟩
  | text hmixed hreaches => exact stringReaches_iff.mpr ⟨_, .text hmixed hreaches, hfaulty⟩
  | item _ _ ih =>
    intro h
    cases h with
    | array heach => exact ih hfaulty (heach _ (List.mem_append_right _ List.mem_cons_self))
  | member _ _ ih =>
    intro h
    cases h with
    | object heach => exact ih hfaulty (heach _ (List.mem_append_right _ List.mem_cons_self))

/-- Rendering fails exactly if a placeholder is reached that is malformed, or required
and missing. -/
theorem renderValue_fails_iff {template : Value} :
    (∃ error, renderValue json template ctx = .error error) ↔
      ∃ placeholder, Reaches json ctx template placeholder ∧ placeholder.Faulty json ctx := by
  have hfails : (∃ error, renderValue json template ctx = .error error) ↔
      ¬ ∃ value, renderValue json template ctx = .ok value := by
    cases renderValue json template ctx with
    | error error => exact iff_of_true ⟨error, rfl⟩ fun ⟨_, h⟩ => by cases h
    | ok value => exact iff_of_false (fun ⟨_, h⟩ => by cases h) (not_not.mpr ⟨value, rfl⟩)
  rw [hfails, renderValue_ok]
  constructor
  · exact reaches_of_not_renders
  · rintro ⟨placeholder, hreaches, hfaulty⟩
    exact not_renders_of_reaches hreaches hfaulty

end Failures

/-! ## Rendering -/

theorem means_plain {json : SerdeJson} {ctx : RenderContext} {text : String} {rendered : Rendered}
    (hplain : ¬ ['$', '{'] <:+: text.toList) :
    Means json ctx (.string text) rendered ↔ rendered = .value (.string text) := by
  have hmixed : ∀ expr, ¬ Sole text.toList expr := by
    rintro expr ⟨lead, trail, -, -, htext, -⟩
    refine hplain ⟨lead, expr ++ '}' :: trail, ?_⟩
    rw [htext]
    simp only [List.append_assoc, List.cons_append, List.nil_append]
  constructor
  · intro h
    cases h with
    | sole hsole _ => exact absurd hsole (hmixed _)
    | text _ hmeans => rw [(textMeans_plain hplain).mp hmeans, String.ofList_toList]
  · rintro rfl
    have hmeans := Means.text hmixed (@TextMeans.literal json ctx _ hplain)
    rwa [String.ofList_toList] at hmeans

theorem renderValue_iff {json : SerdeJson} {ctx : RenderContext} {template : Value}
    (hordered : template.Ordered) {value : Value} :
    renderValue json template ctx = .ok value ↔
      Means json ctx template (.value value) ∨
        Means json ctx template .omitted ∧ value = .null := by
  rw [← renderInner_iff hordered, ← renderInner_iff hordered]
  unfold renderValue
  cases renderInner json template ctx with
  | error error =>
    refine iff_of_false (fun h => by cases h) fun h => ?_
    rcases h with h | ⟨h, -⟩
    · cases h
    · cases h
  | ok rendered =>
    cases rendered with
    | value found =>
      refine ⟨fun h => .inl ?_, fun h => ?_⟩
      · cases h
        rfl
      · rcases h with h | ⟨h, -⟩
        · cases h
          rfl
        · cases h
    | omitted =>
      refine ⟨fun h => .inr ?_, fun h => ?_⟩
      · cases h
        exact ⟨rfl, rfl⟩
      · rcases h with h | ⟨-, rfl⟩
        · cases h
        · rfl

end Templating
end RustMcpCore
