import RustMcpCore.Engine.Resources
import RustMcpCore.Engine.Handlers
import RustMcpCore.Library.Patterns
import RustMcpCore.Maps

/-! # URI templates

What a template says is a pattern whose holes are the variables. The matcher fills it from
the left and keeps the last value of each variable.
-/
namespace RustMcpCore
open Library

/-- Text without braces, and variables that have a name. -/
def IsTemplatePiece : Piece String → Prop
  | .text segment => '{' ∉ segment ∧ '}' ∉ segment
  | .hole name => name ≠ "" ∧ '}' ∉ name.toList

structure UriTemplate where
  pieces : List (Piece String)
  tidy : Piece.Tidy pieces
  proper : ∀ piece ∈ pieces, IsTemplatePiece piece

def spellPieces : List (Piece String) → List Char
  | [] => []
  | .text segment :: pieces => segment ++ spellPieces pieces
  | .hole name :: pieces => '{' :: (name.toList ++ '}' :: spellPieces pieces)

namespace UriTemplate
variable (template : UriTemplate)

def text : String := .ofList (spellPieces template.pieces)

def varNames : List String := Piece.holes template.pieces

/-- The URI with the value of its variable at every place. -/
def substitute (values : String → String) : String :=
  .ofList (Piece.expand (fun name => (values name).toList) template.pieces)

def Binds (args : Map) (values : String → String) : Prop :=
  ∀ name, args.lookup name =
    if name ∈ template.varNames then some (.string (values name)) else none

end UriTemplate

/-! ## The tokens of a template -/

def tokenOf : Piece String → UriToken
  | .text segment => .literal segment
  | .hole name => .var name

theorem templateTokens_literal {segment : List Char} (h : '{' ∉ segment) (lead rest : List Char) :
    templateTokens lead none (segment ++ rest) = templateTokens (lead ++ segment) none rest := by
  induction segment generalizing lead with
  | nil => rw [List.nil_append, List.append_nil]
  | cons c segment ih =>
    obtain ⟨hc, hrest⟩ := List.ne_and_not_mem_of_not_mem_cons h
    rw [List.cons_append, templateTokens, if_neg hc.symm, ih hrest, List.append_assoc]
    rfl

theorem templateTokens_name {name : List Char} (h : '}' ∉ name) {lead : List Char}
    (hnonempty : lead ++ name ≠ []) (literal rest : List Char) :
    templateTokens literal (some lead) (name ++ '}' :: rest) =
      (templateTokens [] none rest).map (.var (.ofList (lead ++ name)) :: ·) := by
  induction name generalizing lead with
  | nil =>
    rw [List.append_nil] at hnonempty
    have hlead : lead.isEmpty = false := List.isEmpty_eq_false_iff.mpr hnonempty
    rw [List.nil_append, List.append_nil, templateTokens, if_pos rfl, hlead]
    rfl
  | cons c name ih =>
    obtain ⟨hc, hrest⟩ := List.ne_and_not_mem_of_not_mem_cons h
    rw [List.cons_append, templateTokens, if_neg hc.symm,
      ih hrest (by rwa [List.append_assoc]), List.append_assoc]
    rfl

theorem templateTokens_hole {name : String} (hproper : IsTemplatePiece (.hole name))
    (lead rest : List Char) : templateTokens lead none ('{' :: (name.toList ++ '}' :: rest)) =
      (templateTokens [] none rest).map fun tokens => literalOf lead ++ .var name :: tokens := by
  have hnonempty : [] ++ name.toList ≠ [] := fun h => hproper.1 (String.toList_eq_nil_iff.mp h)
  rw [templateTokens, if_pos rfl, templateTokens_name hproper.2 hnonempty, Option.map_map,
    List.nil_append, String.ofList_toList]
  rfl

/-- The tokens are the pieces that the template spells. -/
theorem templateTokens_spell {pieces : List (Piece String)} (htidy : Piece.Tidy pieces)
    (hproper : ∀ piece ∈ pieces, IsTemplatePiece piece) :
    templateTokens [] none (spellPieces pieces) = some (pieces.map tokenOf) := by
  induction htidy with
  | nil => rfl
  | hole _ ih =>
    obtain ⟨hhole, hmore⟩ := List.forall_mem_cons.mp hproper
    rw [spellPieces, templateTokens_hole hhole, ih hmore]
    rfl
  | @last segment nonempty =>
    have hplain := (List.forall_mem_singleton.mp hproper).1
    have hliteral : segment.isEmpty = false := List.isEmpty_eq_false_iff.mpr nonempty
    rw [spellPieces, templateTokens_literal hplain, List.nil_append, spellPieces, templateTokens,
      literalOf, hliteral]
    rfl
  | @text segment name pieces nonempty _ ih =>
    obtain ⟨hplain, hmore⟩ := List.forall_mem_cons.mp hproper
    have hliteral : segment.isEmpty = false := List.isEmpty_eq_false_iff.mpr nonempty
    have hhole := (List.forall_mem_cons.mp hmore).1
    have hrest := ih hmore
    rw [spellPieces, templateTokens_hole hhole] at hrest
    obtain ⟨tokens, htokens, hwhole⟩ := Option.map_eq_some_iff.mp hrest
    rw [spellPieces, templateTokens_literal hplain.1, spellPieces, List.nil_append,
      templateTokens_hole hhole, htokens, literalOf, hliteral, List.map_cons, ← hwhole]
    rfl

/-! ## What is accepted spells a template -/

/-- One more character of text before a template. -/
theorem exists_template_char (template : UriTemplate) {c : Char} (hopen : c ≠ '{')
    (hclose : c ≠ '}') :
    ∃ more : UriTemplate, spellPieces more.pieces = c :: spellPieces template.pieces := by
  obtain ⟨pieces, htidy, hproper⟩ := template
  have hc : IsTemplatePiece (.text [c]) :=
    ⟨fun h => hopen (List.mem_singleton.mp h).symm, fun h => hclose (List.mem_singleton.mp h).symm⟩
  have hlonger : ∀ {segment}, IsTemplatePiece (.text segment) →
      IsTemplatePiece (.text (c :: segment)) := fun h =>
    ⟨List.not_mem_cons_of_ne_of_not_mem hopen.symm h.1,
      List.not_mem_cons_of_ne_of_not_mem hclose.symm h.2⟩
  cases htidy with
  | nil =>
    exact ⟨⟨[.text [c]], .last (List.cons_ne_nil _ _), List.forall_mem_singleton.mpr hc⟩, rfl⟩
  | @hole name pieces more =>
    exact ⟨⟨.text [c] :: .hole name :: pieces, .text (List.cons_ne_nil _ _) (.hole more),
      List.forall_mem_cons.mpr ⟨hc, hproper⟩⟩, rfl⟩
  | @last segment nonempty =>
    have hsegment := List.forall_mem_singleton.mp hproper
    exact ⟨⟨[.text (c :: segment)], .last (List.cons_ne_nil _ _),
      List.forall_mem_singleton.mpr (hlonger hsegment)⟩, rfl⟩
  | @text segment name pieces nonempty more =>
    obtain ⟨hsegment, hmore⟩ := List.forall_mem_cons.mp hproper
    exact ⟨⟨.text (c :: segment) :: .hole name :: pieces, .text (List.cons_ne_nil _ _) more,
      List.forall_mem_cons.mpr ⟨hlonger hsegment, hmore⟩⟩, rfl⟩

theorem exists_template_hole (template : UriTemplate) {name : String}
    (hname : IsTemplatePiece (.hole name)) : ∃ more : UriTemplate,
      spellPieces more.pieces = '{' :: (name.toList ++ '}' :: spellPieces template.pieces) :=
  ⟨⟨.hole name :: template.pieces, .hole template.tidy,
    List.forall_mem_cons.mpr ⟨hname, template.proper⟩⟩, rfl⟩

/-- What is left of a template behind the start of a name. -/
def SpellsBehind (name text : List Char) : Prop :=
  ∃ (rest : List Char) (template : UriTemplate), IsTemplatePiece (.hole (.ofList (name ++ rest))) ∧
    text = rest ++ '}' :: spellPieces template.pieces

theorem spellsBehind_close (template : UriTemplate) {name : List Char} (hnonempty : name ≠ [])
    (hname : '}' ∉ name) : SpellsBehind name ('}' :: spellPieces template.pieces) := by
  refine ⟨[], template, ⟨?_, ?_⟩, rfl⟩
  · rw [List.append_nil]
    exact fun h => hnonempty (String.ofList_eq_empty_iff.mp h)
  · rwa [List.append_nil, String.toList_ofList]

/-- What is normalized without a brace left spells a template, from within a name too. -/
theorem exists_spelled (text : List Char) {normalized : List Char} (hopen : '{' ∉ normalized)
    (hclose : '}' ∉ normalized) :
    (normalizeTemplate none text = some normalized →
      ∃ template : UriTemplate, spellPieces template.pieces = text) ∧
    ∀ name, normalizeTemplate (some name) text = some normalized → '}' ∉ name →
      SpellsBehind name text := by
  induction text generalizing normalized with
  | nil => exact ⟨fun _ => ⟨⟨[], .nil, List.forall_mem_nil _⟩, rfl⟩, fun _ h => by cases h⟩
  | cons c text ih =>
    constructor
    · intro h
      rw [normalizeTemplate] at h
      split at h
      · rename_i hc
        obtain ⟨name, template, hname, rfl⟩ := (ih hopen hclose).2 [] h List.not_mem_nil
        obtain ⟨more, hmore⟩ := exists_template_hole template hname
        rw [String.toList_ofList] at hmore
        exact ⟨more, by rw [hmore, hc]; rfl⟩
      · rename_i hc
        obtain ⟨rest, hrest, rfl⟩ := Option.map_eq_some_iff.mp h
        obtain ⟨-, hopen⟩ := List.ne_and_not_mem_of_not_mem_cons hopen
        obtain ⟨hbrace, hclose⟩ := List.ne_and_not_mem_of_not_mem_cons hclose
        obtain ⟨template, rfl⟩ := (ih hopen hclose).1 hrest
        exact exists_template_char template hc hbrace.symm
    · intro name h hname
      rw [normalizeTemplate] at h
      split at h
      · rename_i hc
        split at h
        · cases h
        · rename_i hnonempty
          obtain ⟨rest, hrest, rfl⟩ := Option.map_eq_some_iff.mp h
          obtain ⟨-, hopen⟩ := List.ne_and_not_mem_of_not_mem_cons hopen
          obtain ⟨-, hclose⟩ := List.ne_and_not_mem_of_not_mem_cons hclose
          obtain ⟨template, rfl⟩ := (ih hopen hclose).1 hrest
          rw [hc]
          exact spellsBehind_close template (mt List.isEmpty_iff.mpr hnonempty) hname
      · rename_i hc
        have hlonger : '}' ∉ name ++ [c] := by
          intro h
          rcases List.mem_append.mp h with h | h
          · exact hname h
          · exact hc (List.mem_singleton.mp h).symm
        obtain ⟨rest, template, hhole, rfl⟩ := (ih hopen hclose).2 (name ++ [c]) h hlonger
        rw [List.append_assoc] at hhole
        exact ⟨c :: rest, template, hhole, rfl⟩

theorem exists_template {parsers : Parsers} {uriTemplate : String}
    (h : validateResourceTemplateUri parsers uriTemplate = .ok ()) :
    ∃ template : UriTemplate, template.text = uriTemplate := by
  unfold validateResourceTemplateUri at h
  split at h
  · cases h
  · rename_i normalized hnormalized
    split at h
    · cases h
    · rename_i hbraces
      rw [not_or] at hbraces
      obtain ⟨template, hspell⟩ :=
        (exists_spelled uriTemplate.toList hbraces.1 hbraces.2).1 hnormalized
      exact ⟨template, by rw [UriTemplate.text, hspell, String.ofList_toList]⟩

/-! ## Matching -/

/-- The arguments with the values of all holes, of which those to the right come last. -/
def bindings (pieces : List (Piece String)) (values : List (List Char)) : List (String × Value) :=
  ((Piece.holes pieces).zip values).map fun held => (held.1, .string (.ofList held.2))

theorem mem_bindings {pieces : List (Piece String)} {values : List (List Char)} {name : String}
    {value : Value} : (name, value) ∈ bindings pieces values ↔
      ∃ held, (name, held) ∈ (Piece.holes pieces).zip values ∧ value = .string (.ofList held) := by
  constructor
  · intro h
    obtain ⟨⟨found, held⟩, hheld, heq⟩ := List.mem_map.mp h
    cases heq
    exact ⟨held, hheld, rfl⟩
  · rintro ⟨held, hheld, rfl⟩
    exact List.mem_map.mpr ⟨(name, held), hheld, rfl⟩

theorem nextLiteral_tokens (pieces : List (Piece String)) :
    nextLiteral (pieces.map tokenOf) = Piece.nextText pieces := by
  induction pieces with
  | nil => rfl
  | cons piece pieces ih =>
    cases piece with
    | text segment => rfl
    | hole name => exact ih

/-- The tokens are matched as the pieces are filled from the left. -/
theorem matchTokens_pieces (pieces : List (Piece String)) (args : Map) (uri : List Char) :
    matchTokens (pieces.map tokenOf) args uri =
      (Piece.leftmost pieces uri).map fun values => Map.overlay args (bindings pieces values) := by
  induction pieces generalizing args uri with
  | nil =>
    rw [List.map_nil, matchTokens, Piece.leftmost]
    split
    · rfl
    · rfl
  | cons piece pieces ih =>
    cases piece with
    | text segment =>
      rw [List.map_cons, tokenOf, matchTokens, Piece.leftmost]
      split
      · exact ih args _
      · rfl
    | hole name =>
      rw [List.map_cons, tokenOf, matchTokens, Piece.leftmost, nextLiteral_tokens]
      cases Piece.nextText pieces with
      | none =>
        simp only [ih, Option.map_map]
        rfl
      | some segment =>
        cases hcut : Text.cut segment uri with
        | none => simp only [hcut, Option.bind_none, Option.map_none]
        | some parts =>
          simp only [hcut, Option.bind_some, ih, Option.map_map]
          rfl

theorem matchUriTemplate_text (template : UriTemplate) (uri : String) :
    matchUriTemplate template.text uri = (Piece.leftmost template.pieces uri.toList).map fun values =>
      Map.overlay [] (bindings template.pieces values) := by
  rw [matchUriTemplate, UriTemplate.text, String.toList_ofList,
    templateTokens_spell template.tidy template.proper, Option.bind_some, matchTokens_pieces]

theorem fills_values {pieces : List (Piece String)} {values : List (List Char)} {uri : List Char}
    (h : Piece.Fills pieces values uri) : (Piece.holes pieces).length = values.length := by
  induction h with
  | nil => rfl
  | text _ ih => exact ih
  | hole _ ih => exact congrArg (· + 1) ih

theorem chosen_of_lookup {pieces : List (Piece String)} {values : List (List Char)}
    {choice : String → String}
    (h : ∀ name ∈ Piece.holes pieces, (Map.overlay [] (bindings pieces values)).lookup name =
      some (.string (choice name))) :
    Piece.Chosen (fun name => (choice name).toList) pieces values := by
  intro name hname
  obtain ⟨held, hheld, hvalue⟩ := mem_bindings.mp (Map.mem_of_lookup_overlay (h name hname))
  have hchoice : (choice name).toList = held := by
    rw [Value.string.inj hvalue, String.toList_ofList]
  rw [← hchoice] at hheld
  exact hheld

theorem exists_choice {pieces : List (Piece String)} {values : List (List Char)} {uri : List Char}
    (hfills : Piece.Fills pieces values uri) : ∃ choice : String → String, ∀ name,
      (Map.overlay [] (bindings pieces values)).lookup name =
        if name ∈ Piece.holes pieces then some (.string (choice name)) else none := by
  have hheld : ∀ name, ∃ value : String,
      (Map.overlay [] (bindings pieces values)).lookup name =
        if name ∈ Piece.holes pieces then some (.string value) else none := by
    intro name
    by_cases hname : name ∈ Piece.holes pieces
    · obtain ⟨value, hvalue⟩ : ∃ value, (name, value) ∈ (Piece.holes pieces).zip values := by
        rw [← List.map_fst_zip (fills_values hfills).le] at hname
        obtain ⟨⟨found, value⟩, hmem, rfl⟩ := List.mem_map.mp hname
        exact ⟨value, hmem⟩
      obtain ⟨found, hfound⟩ := Map.exists_lookup_overlay (mem_bindings.mpr ⟨value, hvalue, rfl⟩)
      obtain ⟨held, -, rfl⟩ := mem_bindings.mp (Map.mem_of_lookup_overlay hfound)
      exact ⟨.ofList held, by rw [if_pos hname, hfound]⟩
    · refine ⟨"", ?_⟩
      rw [if_neg hname, Option.eq_none_iff_forall_ne_some]
      intro found hfound
      obtain ⟨held, hheld, -⟩ := mem_bindings.mp (Map.mem_of_lookup_overlay hfound)
      exact hname (List.of_mem_zip hheld).1
  exact ⟨fun name => (hheld name).choose, fun name => (hheld name).choose_spec⟩

/-- The arguments give the URI back where no variable that takes a value stands twice. -/
theorem matched_iff (template : UriTemplate) :
    (∀ uri args, matchUriTemplate template.text uri = some args →
      ∃ values, template.Binds args values ∧ template.substitute values = uri) ↔
      Piece.LeadsOnce template.pieces := by
  constructor
  · intro h
    by_contra hlead
    obtain ⟨input, values, hfound, hlost⟩ := Piece.exists_lost template.tidy hlead
    have hmatch : matchUriTemplate template.text (.ofList input) =
        some (Map.overlay [] (bindings template.pieces values)) := by
      rw [matchUriTemplate_text, String.toList_ofList, hfound]
      rfl
    obtain ⟨choice, hbinds, hsubstitute⟩ := h _ _ hmatch
    refine hlost _ (chosen_of_lookup fun name hname => (hbinds name).trans (if_pos hname)) ?_
    exact String.ofList_injective hsubstitute
  · intro hlead uri args hmatch
    rw [matchUriTemplate_text] at hmatch
    obtain ⟨values, hfound, rfl⟩ := Option.map_eq_some_iff.mp hmatch
    have hfills := Piece.fills_of_leftmost template.tidy hfound
    obtain ⟨choice, hbinds⟩ := exists_choice hfills
    have hchosen := chosen_of_lookup fun name hname => (hbinds name).trans (if_pos hname)
    have hexpand := Piece.expand_of_leadsOnce hlead hfills
      (Piece.quiet_of_leftmost template.tidy hfound).1 hchosen
    refine ⟨choice, hbinds, ?_⟩
    rw [UriTemplate.substitute, hexpand, String.ofList_toList]

/-- Of an accepted template the matched arguments give the URI back exactly if no variable at
the start or behind text has another place. -/
theorem match_sound_iff {parsers : Parsers} {uriTemplate : String}
    (haccepted : validateResourceTemplateUri parsers uriTemplate = .ok ()) :
    (∃ template : UriTemplate, template.text = uriTemplate) ∧
    ∀ template : UriTemplate, template.text = uriTemplate →
      ((∀ uri args, matchUriTemplate uriTemplate uri = some args →
        ∃ values, template.Binds args values ∧ template.substitute values = uri) ↔
        Piece.LeadsOnce template.pieces) := by
  refine ⟨exists_template haccepted, ?_⟩
  rintro template rfl
  exact matched_iff template

/-- Parsers that take every URL, and no time. -/
def anyUrl : Parsers where
  url _ := .ok ()
  rfc3339 _ := .error "premature end of input"

/-- The template `x://{a}/{a}`. -/
def repeated : UriTemplate where
  pieces := [.text ['x', ':', '/', '/'], .hole "a", .text ['/'], .hole "a"]
  tidy := .text (List.cons_ne_nil _ _) (.hole (.text (List.cons_ne_nil _ _) (.hole .nil)))
  proper := by simp [IsTemplatePiece]

theorem match_sound_iff_repeated : ¬ ∀ uri args,
    matchUriTemplate "x://{a}/{a}" uri = some args →
      ∃ values, repeated.Binds args values ∧ repeated.substitute values = uri := by
  have haccepted : validateResourceTemplateUri anyUrl "x://{a}/{a}" = .ok () := rfl
  have hlead : ¬ Piece.LeadsOnce repeated.pieces := by decide
  exact mt ((match_sound_iff haccepted).2 repeated rfl).mp hlead

theorem repeated_variable_lost :
    validateResourceTemplateUri anyUrl "x://{a}/{a}" = .ok () ∧ repeated.text = "x://{a}/{a}" ∧
    matchUriTemplate "x://{a}/{a}" "x://1/2" = some [("a", .string "2")] ∧
    ¬ ∃ values, repeated.Binds [("a", .string "2")] values ∧
      repeated.substitute values = "x://1/2" := by
  refine ⟨rfl, rfl, rfl, ?_⟩
  rintro ⟨values, hbinds, hsubstitute⟩
  have hvalue : values "a" = "2" := by
    have hlookup := hbinds "a"
    simpa [UriTemplate.varNames, repeated, Piece.holes] using hlookup.symm
  simp [UriTemplate.substitute, repeated, Piece.expand, hvalue] at hsubstitute

/-! ## Expansions -/

/-- No shorter start of a URI fits the template, with any value at each place. -/
def UriTemplate.EndsFirst (template : UriTemplate) (uri : String) : Prop :=
  ∀ part, part <+: uri.toList → Piece.Fits template.pieces part → part = uri.toList

theorem expansion_matched_iff (template : UriTemplate) (values : String → String) :
    (∃ args, matchUriTemplate template.text (template.substitute values) = some args) ↔
      Piece.EndsOpen template.pieces ∨ template.EndsFirst (template.substitute values) := by
  have hfits : Piece.Fits template.pieces (template.substitute values).toList := by
    rw [UriTemplate.substitute, String.toList_ofList]
    exact ⟨_, Piece.fills_expand _⟩
  have hfound : (∃ args, matchUriTemplate template.text (template.substitute values) = some args) ↔
      ∃ found, Piece.leftmost template.pieces (template.substitute values).toList = some found := by
    rw [matchUriTemplate_text]
    simp only [Option.map_eq_some_iff]
    constructor
    · rintro ⟨args, found, hfound, -⟩
      exact ⟨found, hfound⟩
    · rintro ⟨found, hfound⟩
      exact ⟨_, found, hfound, rfl⟩
  rw [hfound, Piece.leftmost_iff template.tidy, and_iff_right hfits]
  exact Iff.rfl

theorem matchTemplates_isSome {uri : String} {templates : List ResolvedResourceTemplate}
    {template : ResolvedResourceTemplate} (hmem : template ∈ templates) {args : Map}
    (h : matchUriTemplate template.template.raw.uriTemplate uri = some args) :
    (Dispatch.matchTemplates uri templates).isSome := by
  rw [Dispatch.matchTemplates, List.findSome?_isSome_iff]
  exact ⟨template, List.mem_reverse.mpr hmem, by rw [h]; rfl⟩

/-- An expansion of an accepted template is matched exactly if the template ends with a
variable, or fits no shorter part of it. -/
theorem match_complete_iff {parsers : Parsers} {uriTemplate : String}
    (haccepted : validateResourceTemplateUri parsers uriTemplate = .ok ()) :
    (∃ template : UriTemplate, template.text = uriTemplate) ∧
    ∀ template : UriTemplate, template.text = uriTemplate → ∀ values,
      ((∃ args, matchUriTemplate uriTemplate (template.substitute values) = some args) ↔
        Piece.EndsOpen template.pieces ∨ template.EndsFirst (template.substitute values)) ∧
      (Piece.EndsOpen template.pieces ∨ template.EndsFirst (template.substitute values) →
        ∀ templates, ∀ resolved ∈ templates, resolved.template.raw.uriTemplate = uriTemplate →
          (Dispatch.matchTemplates (template.substitute values) templates).isSome) := by
  refine ⟨exists_template haccepted, ?_⟩
  rintro template rfl values
  refine ⟨expansion_matched_iff template values, fun hends templates resolved hmem htext => ?_⟩
  obtain ⟨args, hmatch⟩ := (expansion_matched_iff template values).mpr hends
  exact matchTemplates_isSome hmem (by rw [htext]; exact hmatch)

theorem match_complete_iff_repeated :
    ∃ args, matchUriTemplate "x://{a}/{a}" (repeated.substitute fun _ => "1") = some args := by
  have haccepted : validateResourceTemplateUri anyUrl "x://{a}/{a}" = .ok () := rfl
  exact (((match_complete_iff haccepted).2 repeated rfl fun _ => "1").1).mpr (.inl ⟨"a", rfl⟩)

/-- The template `x://{a}/end`. -/
def closed : UriTemplate where
  pieces := [.text ['x', ':', '/', '/'], .hole "a", .text ['/', 'e', 'n', 'd']]
  tidy := .text (List.cons_ne_nil _ _) (.hole (.last (List.cons_ne_nil _ _)))
  proper := by simp [IsTemplatePiece]

theorem repeated_end_missed :
    validateResourceTemplateUri anyUrl "x://{a}/end" = .ok () ∧ closed.text = "x://{a}/end" ∧
    closed.substitute (fun _ => "1/end2") = "x://1/end2/end" ∧
    matchUriTemplate "x://{a}/end" "x://1/end2/end" = none := by
  exact ⟨rfl, rfl, rfl, rfl⟩

end RustMcpCore
