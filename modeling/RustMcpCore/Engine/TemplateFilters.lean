import RustMcpCore.Engine.TemplateMeaning

/-! # The filters of an expression

A default is written as JSON inside an expression, which the scanner ends at a brace and
the parser cuts at a bar before the JSON is read. What is null counts as absent, unless
the first filter makes text of it.
-/
namespace RustMcpCore.Templating
open Library

/-- A character inside a string, as `serde_json` writes it. -/
def escapeChar (c : Char) : List Char :=
  if c = '"' then ['\\', '"']
  else if c = '\\' then ['\\', '\\']
  else if c.toNat = 0x08 then ['\\', 'b']
  else if c.toNat = 0x09 then ['\\', 't']
  else if c.toNat = 0x0A then ['\\', 'n']
  else if c.toNat = 0x0C then ['\\', 'f']
  else if c.toNat = 0x0D then ['\\', 'r']
  else if c.toNat < 0x20 then
    ['\\', 'u', '0', '0', Nat.digitChar (c.toNat / 16), Nat.digitChar (c.toNat % 16)]
  else [c]

/-- What `serde_json` documents of the compact text of a value, and of reading it. -/
structure CompactText (json : SerdeJson) (value : Value) : Prop where
  string : ∀ text, value = .string text →
    (json.toString value).toList = '"' :: text.toList.flatMap escapeChar ++ ['"'] ∧
      json.fromStr (json.toString value) = .ok value
  first : ∃ c rest, (json.toString value).toList = c :: rest ∧ Text.isWhitespace c = false ∧ c ≠ ')'
  last : ∀ c ∈ (json.toString value).toList.getLast?, Text.isWhitespace c = false
  /-- A text with such a character is that of a string, an array or an object. -/
  incomplete : '}' ∈ (json.toString value).toList ∨ '|' ∈ (json.toString value).toList →
    ∀ part, part <+: (json.toString value).toList → part ≠ (json.toString value).toList →
      ∃ error, json.fromStr (.ofList part) = .error error

/-- The path of an argument, as an expression can name it. -/
structure ArgumentPath (path : String) : Prop where
  nonempty : path ≠ ""
  trimmed : Text.trim path = path
  noBar : '|' ∉ path.toList
  noBrace : '}' ∉ path.toList
  noOpen : ¬ ['$', '{'] <:+: path.toList
  argument : path ≠ "$" ∧ Text.stripPrefix path "$." = none

def defaultTemplate (path literal : String) : String :=
  "$\x7b" ++ path ++ "|default(" ++ literal ++ ")\x7d"

/-- The text of a default reaches the parser whole, and what it gives keeps its type. -/
def Survives (json : SerdeJson) (value : Value) : Prop :=
  json.fromStr (json.toString value) = .ok value ∧ '}' ∉ (json.toString value).toList ∧
    '|' ∉ (json.toString value).toList ∧
    (¬ ['$', '{'] <:+: (json.toString value).toList ∨ ∃ text, value = .string text)

/-! ## Reading the expression -/

theorem escapeChar_ne_nil (c : Char) : escapeChar c ≠ [] := by
  unfold escapeChar
  split_ifs <;> exact List.cons_ne_nil _ _

/-- White space and brackets are written as themselves, and nothing else is written so. -/
theorem eq_of_mem_escapeChar {c stop : Char} (hstop : Text.isWhitespace stop = true ∨ stop = ')')
    (h : stop ∈ escapeChar c) : c = stop := by
  have hother : ∀ d ∈ ['\\', '"', 'b', 't', 'n', 'f', 'r', 'u', '0'], d ≠ stop := by
    rintro d hd rfl
    have hnone : ['\\', '"', 'b', 't', 'n', 'f', 'r', 'u', '0'].all
      (fun d => decide ¬ (Text.isWhitespace d = true ∨ d = ')')) = true := by decide
    exact of_decide_eq_true (List.all_eq_true.mp hnone d hd) hstop
  have hdigit : ∀ n < 16, Nat.digitChar n ≠ stop := by
    rintro n hn rfl
    have hnone : ∀ n < 16, ¬ (Text.isWhitespace (Nat.digitChar n) = true ∨
      Nat.digitChar n = ')') := by decide
    exact hnone n hn hstop
  have hpair : ∀ d ∈ ['\\', '"', 'b', 't', 'n', 'f', 'r', 'u', '0'], stop ∉ ['\\', d] := by
    intro d hd hmem
    rcases List.mem_pair.mp hmem with h | h
    · exact hother '\\' (by decide) h.symm
    · exact hother d hd h.symm
  unfold escapeChar at h
  split at h
  · exact absurd h (hpair '"' (by decide))
  split at h
  · exact absurd h (hpair '\\' (by decide))
  split at h
  · exact absurd h (hpair 'b' (by decide))
  split at h
  · exact absurd h (hpair 't' (by decide))
  split at h
  · exact absurd h (hpair 'n' (by decide))
  split at h
  · exact absurd h (hpair 'f' (by decide))
  split at h
  · exact absurd h (hpair 'r' (by decide))
  split at h
  · rename_i hcontrol
    simp only [List.mem_cons, List.not_mem_nil, or_false] at h
    rcases h with h | h | h | h | h | h
    · exact absurd h.symm (hother _ (by decide))
    · exact absurd h.symm (hother _ (by decide))
    · exact absurd h.symm (hother _ (by decide))
    · exact absurd h.symm (hother _ (by decide))
    · exact absurd h.symm (hdigit _ (by omega))
    · exact absurd h.symm (hdigit _ (by omega))
  · exact (List.mem_singleton.mp h).symm

theorem rdropWhile_append {p : Char → Bool} {l before : List Char} {c : Char} (hc : p c = false) :
    (before ++ [c] ++ l).rdropWhile p = before ++ [c] ++ l.rdropWhile p := by
  rw [List.append_assoc, List.append_assoc]
  exact Text.rdropWhile_append_cons hc

/-- The first segment of a text ends where the separator stands for the first time. -/
theorem splitOn_eq_cons (c : Char) (text : List Char) :
    ∃ rest, text.splitOn c = text.takeWhile (· ≠ c) :: rest := by
  by_cases hc : c ∈ text
  · obtain ⟨before, after, rfl, hbefore⟩ := List.eq_append_cons_of_mem hc
    refine ⟨after.splitOn c, ?_⟩
    rw [List.splitOn_append_cons_self_of_not_mem hbefore]
    have hkeep : ∀ d ∈ before, decide (d ≠ c) = true := fun d hd =>
      decide_eq_true fun h => hbefore (h ▸ hd)
    rw [List.takeWhile_append_of_pos hkeep, List.takeWhile_cons_of_neg (by simp), List.append_nil]
  · refine ⟨[], ?_⟩
    have hkeep : ∀ d ∈ text, decide (d ≠ c) = true := fun d hd =>
      decide_eq_true fun h => hc (h ▸ hd)
    rw [List.splitOn_eq_singleton hc, List.takeWhile_eq_self_iff.mpr hkeep]

/-- What stands before a default in an expression. -/
def lead (path : String) : List Char := path.toList ++ '|' :: "default(".toList

theorem lead_eq (path : String) : lead path = path.toList ++ "|default".toList ++ ['('] := by
  rw [lead, List.append_assoc]
  rfl

/-- What the parser sees of the text behind the lead. -/
def kept (tail : List Char) : List Char :=
  (tail.rdropWhile Text.isWhitespace).rdropWhile (· = '?')

section Reading
variable {json : SerdeJson} {path : String} (hpath : ArgumentPath path)
include hpath

theorem head_path : ∃ c rest, path.toList = c :: rest ∧ Text.isWhitespace c = false := by
  cases hlist : path.toList with
  | nil => exact absurd (String.toList_eq_nil_iff.mp hlist) hpath.nonempty
  | cons c rest =>
    refine ⟨c, rest, rfl, Bool.eq_false_iff.mpr fun hspace => ?_⟩
    -- Trimming would make the path shorter.
    have hlength := congrArg (List.length ∘ String.toList) hpath.trimmed
    have htrim :=
      (List.rdropWhile_prefix Text.isWhitespace (l := rest.dropWhile Text.isWhitespace)).length_le
    have hdrop := (List.dropWhile_suffix (l := rest) Text.isWhitespace).length_le
    rw [Function.comp_apply, Function.comp_apply, Text.trim, String.toList_ofList, hlist,
      List.dropWhile_cons_of_pos hspace, List.length_cons] at hlength
    omega

/-- Trimming an expression leaves its lead. -/
theorem trim_lead (tail : List Char) :
    (Text.trim (.ofList (lead path ++ tail))).toList =
      lead path ++ tail.rdropWhile Text.isWhitespace := by
  obtain ⟨c, rest, hc, hspace⟩ := head_path hpath
  have hstart : (lead path ++ tail).dropWhile Text.isWhitespace = lead path ++ tail := by
    refine Text.dropWhile_of_head fun d hd => ?_
    rw [lead, hc] at hd
    cases hd
    exact hspace
  rw [Text.trim, String.toList_ofList, String.toList_ofList, hstart, lead_eq]
  exact rdropWhile_append rfl

theorem parseExpression_lead (tail : List Char) : ∃ optional rest,
    parseExpression json (.ofList (lead path ++ tail)) = (do
      let filter ← parseFilter json
        (.ofList ("default(".toList ++ (kept tail).takeWhile (· ≠ '|')))
      let filters ← rest.mapM (parseFilter json)
      return (path, optional, filter :: filters)) ∧
    ('|' ∉ kept tail → rest = []) := by
  have hkept : Text.trimEndMatches (Text.trim (.ofList (lead path ++ tail))) '?' =
      .ofList (lead path ++ kept tail) := by
    rw [Text.trimEndMatches, trim_lead hpath, lead_eq, rdropWhile_append (by decide)]
    rfl
  obtain ⟨rest, hrest⟩ := splitOn_eq_cons '|' ("default(".toList ++ kept tail)
  have hfirst : ("default(".toList ++ kept tail).takeWhile (· ≠ '|') =
      "default(".toList ++ (kept tail).takeWhile (· ≠ '|') :=
    List.takeWhile_append_of_pos (List.all_eq_true.mp rfl)
  have hsplit : Text.split (.ofList (lead path ++ kept tail)) '|' =
      path :: .ofList ("default(".toList ++ (kept tail).takeWhile (· ≠ '|')) ::
        rest.map .ofList := by
    rw [Text.split, String.toList_ofList, lead, List.append_assoc, List.cons_append,
      List.splitOn_append_cons_self_of_not_mem hpath.noBar, hrest, hfirst, List.map_cons,
      List.map_cons, String.ofList_toList]
  refine ⟨(Text.trim (.ofList (lead path ++ tail))).toList.getLast? = some '?',
    rest.map .ofList, ?_, fun hbar => ?_⟩
  · unfold parseExpression
    simp only [hkept, hsplit, hpath.trimmed, if_neg hpath.nonempty, List.mapM_cons]
    rw [bind_assoc]
    refine congrArg _ (funext fun filter => ?_)
    rw [bind_assoc]
    rfl
  · have hwhole : '|' ∉ "default(".toList ++ kept tail := fun h => by
      rcases List.mem_append.mp h with h | h
      · exact absurd h (by decide)
      · exact hbar h
    rw [List.splitOn_eq_singleton hwhole] at hrest
    rw [← (List.cons.inj hrest).2]
    rfl

end Reading

section Filters
variable {json : SerdeJson}

theorem stripSuffix_eq_some_iff {text inner last : String} :
    Text.stripSuffix text last = some inner ↔ text = inner ++ last := by
  unfold Text.stripSuffix
  split
  · rename_i hsuffix
    obtain ⟨before, hbefore⟩ := List.isSuffixOf_iff_suffix.mp hsuffix
    rw [← hbefore, List.length_append, Nat.add_sub_cancel, List.take_left, Option.some.injEq]
    constructor
    · rintro rfl
      rw [← String.toList_inj, String.toList_append, String.toList_ofList, hbefore]
    · rintro rfl
      rw [String.toList_append] at hbefore
      rw [List.append_cancel_right hbefore, String.ofList_toList]
  · rename_i hsuffix
    refine iff_of_false (fun h => by cases h) ?_
    rintro rfl
    rw [String.toList_append] at hsuffix
    exact hsuffix (List.isSuffixOf_iff_suffix.mpr (List.suffix_append _ _))

theorem parseFilter_default (part : List Char) :
    parseFilter json (.ofList ("default(".toList ++ part)) =
      match Text.stripSuffix (.ofList (part.rdropWhile Text.isWhitespace)) ")" with
      | some inner => .ok (.default (parseDefaultLiteral json inner))
      | none =>
        let trimmed := Text.trim (.ofList ("default(".toList ++ part))
        .error (.invalidParams s!"unsupported filter '{trimmed}'" none) := by
  have htrim : Text.trim (.ofList ("default(".toList ++ part)) =
      "default(" ++ .ofList (part.rdropWhile Text.isWhitespace) := by
    have hstart : ("default(".toList ++ part).dropWhile Text.isWhitespace =
        "default(".toList ++ part := Text.dropWhile_of_head fun c hc => by
      cases hc
      rfl
    have hlead : "default(".toList = "default".toList ++ ['('] := rfl
    rw [Text.trim, String.toList_ofList, hstart, hlead, rdropWhile_append rfl, String.ofList_append]
    rfl
  have hcsv : Text.eqIgnoreAsciiCase ("default(" ++ .ofList (part.rdropWhile Text.isWhitespace)) "csv" =
      false := by
    refine decide_eq_false fun h => ?_
    have hhead := congrArg (fun text => text.toList.head?) h
    simp only [Text.toAsciiLowercase, String.toList_ofList, String.toList_append, List.map_append]
      at hhead
    cases hhead
  unfold parseFilter
  simp only
  rw [htrim, hcsv, Text.stripPrefix_append]
  rfl

end Filters

/-! ## What the default gives -/

section Defaults
variable {json : SerdeJson} {ctx : RenderContext} {path : String} {value : Value}

/-- Text is left as it is by each filter. -/
theorem foldl_text (text : String) (filters : List Filter) :
    filters.foldl (applyFilter json) (some (.string text)) = some (.string text) := by
  induction filters with
  | nil => rfl
  | cons filter filters ih =>
    rw [List.foldl_cons]
    cases filter with
    | default => exact ih
    | csv => exact ih

theorem found_default (hmissing : isMissing (resolveBase path ctx) = true) (text : String)
    (filters : List Filter) :
    found json ctx path (.default (.string text) :: filters) = some (.string text) := by
  unfold found
  rw [List.foldl_cons, applyFilter, if_pos hmissing, foldl_text]

theorem resolveBase_path (hpath : ArgumentPath path) :
    resolveBase path ctx = selectPath ctx.args path := by
  unfold resolveBase
  rw [if_neg hpath.argument.1, hpath.argument.2]

/-- Text that begins like the value does in JSON, up to a bracket or white space, is not
that value. -/
theorem ne_of_begins (hjson : CompactText json value) {part out : List Char} {stop : Char}
    (hstop : Text.isWhitespace stop = true ∨ stop = ')')
    (hpart : part ++ [stop] <+: (json.toString value).toList) :
    value ≠ .string (.ofList (part ++ out)) := by
  intro hvalue
  rw [(hjson.string _ hvalue).1, String.toList_ofList] at hpart
  refine Text.not_prefix_of_quoted escapeChar_ne_nil (fun c => eq_of_mem_escapeChar hstop) ?_
    (List.prefix_append part out) hpart
  rintro rfl
  exact absurd hstop (by decide)

theorem renderValue_string {text : String} (hvalue : value ≠ .null) :
    renderValue json (.string text) ctx = .ok value ↔
      Means json ctx (.string text) (.value value) := by
  rw [renderValue_iff (.string text)]
  exact or_iff_left fun h => hvalue h.2

/-- A start of the value's text up to a parenthesis is read as a text that begins like it. -/
theorem parseDefaultLiteral_cut (hjson : CompactText json value)
    (hmark : '}' ∈ (json.toString value).toList ∨ '|' ∈ (json.toString value).toList)
    {inner : String} (hwithin : inner.toList ++ [')'] <+: (json.toString value).toList) :
    ∃ part stop, (Text.isWhitespace stop = true ∨ stop = ')') ∧
      part ++ [stop] <+: (json.toString value).toList ∧
      parseDefaultLiteral json inner = .string (.ofList part) := by
  obtain ⟨c, after, htext, hspace, hclose⟩ := hjson.first
  have hfirst : ∀ d ∈ inner.toList.head?, Text.isWhitespace d = false := by
    intro d hd
    cases hchars : inner.toList with
    | nil =>
      rw [hchars] at hd
      cases hd
    | cons e chars =>
      rw [hchars, htext] at hwithin
      rw [hchars] at hd
      cases hd
      rw [(List.cons_prefix_cons.mp hwithin).1]
      exact hspace
  obtain ⟨stop, hstop, hnext⟩ := @Text.trim_stop inner ')' hfirst
  have hbegin := hnext.trans hwithin
  refine ⟨(Text.trim inner).toList, stop, hstop, hbegin, ?_⟩
  have hnonempty : Text.trim inner ≠ "" := by
    intro hempty
    rw [hempty, htext] at hbegin
    have hstopc : stop = c := (List.cons_prefix_cons.mp hbegin).1
    rcases hstop with hstop | hstop
    · rw [hstopc, hspace] at hstop
      cases hstop
    · exact hclose (hstopc.symm.trans hstop)
  have hpart : (Text.trim inner).toList <+: (json.toString value).toList :=
    (List.prefix_append _ _).trans hbegin
  have hproper : (Text.trim inner).toList ≠ (json.toString value).toList := by
    intro heq
    have hle := hbegin.length_le
    rw [heq, List.length_append, List.length_singleton] at hle
    omega
  obtain ⟨error, herror⟩ := hjson.incomplete hmark _ hpart hproper
  rw [String.ofList_toList] at herror ⊢
  simp only [parseDefaultLiteral, if_neg hnonempty, herror]

/-- What a filter holds is a start of the text behind its parenthesis, without a bar. -/
theorem inner_of_stripSuffix {tail : List Char} {inner : String}
    (h : Text.stripSuffix (.ofList (((kept tail).takeWhile (· ≠ '|')).rdropWhile Text.isWhitespace))
      ")" = some inner) : inner.toList ++ [')'] <+: tail ∧ '|' ∉ inner.toList := by
  have hlast := congrArg String.toList (stripSuffix_eq_some_iff.mp h)
  rw [String.toList_ofList, String.toList_append] at hlast
  have hhead : inner.toList ++ [')'] <+: (kept tail).takeWhile (· ≠ '|') := by
    have hdrop := List.rdropWhile_prefix Text.isWhitespace (l := (kept tail).takeWhile (· ≠ '|'))
    rw [hlast] at hdrop
    exact hdrop
  refine ⟨((hhead.trans (List.takeWhile_prefix _)).trans (List.rdropWhile_prefix _ _)).trans
    (List.rdropWhile_prefix _ _), fun hmem => ?_⟩
  have hkeep := List.mem_takeWhile_imp (hhead.subset (List.mem_append_left _ hmem))
  simp at hkeep

variable (hpath : ArgumentPath path) (hmissing : isMissing (resolveBase path ctx) = true)
include hpath

theorem parseExpression_cut (hjson : CompactText json value)
    (hmark : '}' ∈ (json.toString value).toList ∨ '|' ∈ (json.toString value).toList)
    {tail : List Char} (htail : ∀ inner, inner ++ [')'] <+: tail → '|' ∉ inner →
      inner ++ [')'] <+: (json.toString value).toList) {parsed : String × Bool × List Filter}
    (h : parseExpression json (.ofList (lead path ++ tail)) = .ok parsed) :
    ∃ optional part stop filters, (Text.isWhitespace stop = true ∨ stop = ')') ∧
      part ++ [stop] <+: (json.toString value).toList ∧
      parsed = (path, optional, .default (.string (.ofList part)) :: filters) := by
  obtain ⟨optional, rest, hparse, -⟩ := @parseExpression_lead json path hpath tail
  rw [hparse] at h
  obtain ⟨filter, hfilter, hparsed⟩ := bind_eq_ok h
  obtain ⟨filters, -, hparsed⟩ := bind_eq_ok hparsed
  cases hparsed
  rw [parseFilter_default] at hfilter
  split at hfilter
  · rename_i inner hinner
    cases hfilter
    obtain ⟨hkept, hbar⟩ := inner_of_stripSuffix hinner
    obtain ⟨part, stop, hstop, hbegin, hliteral⟩ :=
      parseDefaultLiteral_cut hjson hmark (htail _ hkept hbar)
    exact ⟨optional, part, stop, filters, hstop, hbegin, by rw [hliteral]⟩
  · cases hfilter

include hmissing

/-- What is cut off inside the text of a default is read as text. -/
theorem evaluates_cut (hjson : CompactText json value)
    (hmark : '}' ∈ (json.toString value).toList ∨ '|' ∈ (json.toString value).toList)
    {tail : List Char} (htail : ∀ inner, inner ++ [')'] <+: tail → '|' ∉ inner →
      inner ++ [')'] <+: (json.toString value).toList) {rendered : Rendered}
    (h : Evaluates json ctx (lead path ++ tail) rendered) :
    ∃ part stop, (Text.isWhitespace stop = true ∨ stop = ')') ∧
      part ++ [stop] <+: (json.toString value).toList ∧
      rendered = .value (.string (.ofList part)) := by
  cases h with
  | value hparsed hthere _ =>
    obtain ⟨optional, part, stop, filters, hstop, hbegin, heq⟩ :=
      parseExpression_cut hpath hjson hmark htail hparsed
    cases heq
    rw [found_default hmissing] at hthere
    cases hthere
    exact ⟨part, stop, hstop, hbegin, rfl⟩
  | omitted hparsed hnothing =>
    obtain ⟨optional, part, stop, filters, hstop, hbegin, heq⟩ :=
      parseExpression_cut hpath hjson hmark htail hparsed
    cases heq
    rw [found_default hmissing] at hnothing
    cases hnothing

omit hmissing in
/-- A text without marks is read as a whole. -/
theorem parseExpression_whole
    (hbar : '|' ∉ (json.toString value).toList) :
    ∃ optional, parseExpression json (.ofList (lead path ++ ((json.toString value).toList ++ [')']))) =
      .ok (path, optional, [.default (parseDefaultLiteral json (json.toString value))]) := by
  obtain ⟨optional, rest, hparse, hrest⟩ :=
    @parseExpression_lead json path hpath ((json.toString value).toList ++ [')'])
  have hkept : kept ((json.toString value).toList ++ [')']) = (json.toString value).toList ++ [')'] := by
    rw [kept, List.rdropWhile_concat_neg _ _ _ (by decide), List.rdropWhile_concat_neg _ _ _ (by decide)]
  have hplain : '|' ∉ (json.toString value).toList ++ [')'] := fun h => by
    rcases List.mem_append.mp h with h | h
    · exact hbar h
    · exact absurd h (by decide)
  have htake : ((json.toString value).toList ++ [')']).takeWhile (· ≠ '|') =
      (json.toString value).toList ++ [')'] :=
    List.takeWhile_eq_self_iff.mpr fun c hc => decide_eq_true fun h => hplain (h ▸ hc)
  have hsuffix : Text.stripSuffix
      (.ofList (((json.toString value).toList ++ [')']).rdropWhile Text.isWhitespace)) ")" =
        some (json.toString value) := by
    rw [stripSuffix_eq_some_iff, List.rdropWhile_concat_neg _ _ _ (by decide), ← String.toList_inj,
      String.toList_ofList, String.toList_append]
    rfl
  rw [hkept] at hrest
  refine ⟨optional, ?_⟩
  rw [hparse, hkept, htake, parseFilter_default, hsuffix, hrest hplain]
  rfl

theorem evaluates_whole (hbar : '|' ∉ (json.toString value).toList) {result : Value} :
    Evaluates json ctx (lead path ++ ((json.toString value).toList ++ [')'])) (.value result) ↔
      parseDefaultLiteral json (json.toString value) = result ∧ result ≠ .null := by
  obtain ⟨optional, hparse⟩ := parseExpression_whole hpath hbar
  have hfound : found json ctx path [.default (parseDefaultLiteral json (json.toString value))] =
      some (parseDefaultLiteral json (json.toString value)) := by
    simp only [found, List.foldl_cons, List.foldl_nil, applyFilter, hmissing, if_true]
  constructor
  · intro h
    cases h with
    | value hparsed hthere hpresent =>
      cases hparse.symm.trans hparsed
      rw [hfound] at hthere
      exact ⟨Option.some.inj hthere, hpresent⟩
  · rintro ⟨heq, hpresent⟩
    exact .value hparse (hfound.trans (congrArg some heq)) hpresent

omit hpath hmissing in
theorem parseDefaultLiteral_eq_iff (hjson : CompactText json value) :
    parseDefaultLiteral json (json.toString value) = value ↔
      json.fromStr (json.toString value) = .ok value := by
  obtain ⟨c, rest, htext, hspace, -⟩ := hjson.first
  have htrim : Text.trim (json.toString value) = json.toString value := by
    refine Text.trim_eq_self (fun d hd => ?_) hjson.last
    rw [htext] at hd
    cases hd
    exact hspace
  have hnonempty : json.toString value ≠ "" := by
    intro h
    rw [h] at htext
    cases htext
  simp only [parseDefaultLiteral, htrim, if_neg hnonempty]
  cases hread : json.fromStr (json.toString value) with
  | ok read => exact ⟨congrArg Except.ok, Except.ok.inj⟩
  | error error =>
    refine iff_of_false (fun h => ?_) (fun h => by cases h)
    cases ((hjson.string _ h.symm).2.symm.trans hread)

omit hmissing in
theorem not_open_expression (hopen : ¬ ['$', '{'] <:+: (json.toString value).toList) :
    ¬ ['$', '{'] <:+: lead path ++ ((json.toString value).toList ++ [')']) := by
  have hclose : ['$', '{'] <:+: (json.toString value).toList ++ ')' :: [] ↔ _ :=
    Text.mark_infix_append (by decide) (by decide)
  have hbracket : ['$', '{'] <:+: "default".toList ++ '(' ::
      ((json.toString value).toList ++ [')']) ↔ _ :=
    Text.mark_infix_append (by decide) (by decide)
  have hbar : ['$', '{'] <:+: path.toList ++ '|' ::
      ("default".toList ++ '(' :: ((json.toString value).toList ++ [')'])) ↔ _ :=
    Text.mark_infix_append (by decide) (by decide)
  intro h
  rw [lead, List.append_assoc, List.cons_append] at h
  rcases hbar.mp h with h | h
  · exact hpath.noOpen h
  · rcases hbracket.mp h with h | h
    · exact absurd h (by decide)
    · rcases hclose.mp h with h | h
      · exact hopen h
      · exact List.cons_ne_nil _ _ (List.infix_nil.mp h)

end Defaults

/-- Where a bar or a brace stands in the text of a default, the value is not read back. -/
theorem not_means_of_mark {json : SerdeJson} {ctx : RenderContext} {path : String} {value : Value}
    (hjson : CompactText json value) (hpath : ArgumentPath path)
    (hmissing : isMissing (resolveBase path ctx) = true)
    (hmark : '}' ∈ (json.toString value).toList ∨ '|' ∈ (json.toString value).toList)
    {text : String} {tail after : List Char}
    (htext : text.toList = '$' :: '{' :: (lead path ++ tail ++ '}' :: after))
    (hend : '}' ∉ lead path ++ tail) (htail : ∀ inner, inner ++ [')'] <+: tail → '|' ∉ inner →
      inner ++ [')'] <+: (json.toString value).toList) :
    ¬ Means json ctx (.string text) (.value value) := by
  have hclose := cut_close hend after
  intro h
  cases h with
  | sole hsole hevaluates =>
    rw [sole_unique hsole htext hclose] at hevaluates
    obtain ⟨part, stop, hstop, hbegin, heq⟩ :=
      evaluates_cut hpath hmissing hjson hmark htail hevaluates
    rw [← List.append_nil part] at heq
    exact ne_of_begins hjson hstop hbegin (Rendered.value.inj heq)
  | text _ hmeans =>
    rw [htext] at hmeans
    obtain ⟨rendered, rest, hevaluates, -, rfl⟩ :=
      (textMeans_iff (cut_open not_open_nil _) hclose).mp hmeans
    obtain ⟨part, stop, hstop, hbegin, rfl⟩ :=
      evaluates_cut hpath hmissing hjson hmark htail hevaluates
    have hout : textOf json (.value (.string (.ofList part))) = part := String.toList_ofList
    have hne := @ne_of_begins _ _ hjson part rest stop hstop hbegin
    rw [List.nil_append, hout] at hne
    exact hne rfl

theorem toList_defaultTemplate {json : SerdeJson} (path : String) (value : Value) :
    (defaultTemplate path (json.toString value)).toList =
      '$' :: '{' :: (lead path ++ ((json.toString value).toList ++ [')']) ++ '}' :: []) := by
  simp only [defaultTemplate, lead, String.toList_append, List.append_assoc, List.cons_append]
  rfl

theorem not_brace_lead {path : String} (hpath : ArgumentPath path) : '}' ∉ lead path := by
  intro h
  rcases List.mem_append.mp h with h | h
  · exact hpath.noBrace h
  · exact absurd h (by decide)

theorem not_brace_whole {json : SerdeJson} {path : String} {value : Value}
    (hpath : ArgumentPath path) (hbrace : '}' ∉ (json.toString value).toList) :
    '}' ∉ lead path ++ ((json.toString value).toList ++ [')']) := by
  intro h
  rcases List.mem_append.mp h with h | h
  · exact not_brace_lead hpath h
  · rcases List.mem_append.mp h with h | h
    · exact hbrace h
    · exact absurd h (by decide)

/-- With an opening mark in it the text of the value is put together as text. -/
theorem means_of_open {json : SerdeJson} {ctx : RenderContext} {path : String} {value : Value}
    (hjson : CompactText json value) (hvalue : value ≠ .null) (hpath : ArgumentPath path)
    (hmissing : isMissing (resolveBase path ctx) = true)
    (hbrace : '}' ∉ (json.toString value).toList) (hbar : '|' ∉ (json.toString value).toList)
    (hopen : ['$', '{'] <:+: (json.toString value).toList) :
    Means json ctx (.string (defaultTemplate path (json.toString value))) (.value value) ↔
      json.fromStr (json.toString value) = .ok value ∧ ∃ content, value = .string content := by
  have htext := @toList_defaultTemplate json path value
  have hclose := cut_close (not_brace_whole hpath hbrace) []
  have hstart : Text.cut ['$', '{'] ('$' :: '{' :: (lead path ++
      ((json.toString value).toList ++ [')']) ++ '}' :: [])) = some ([], _) :=
    cut_open not_open_nil _
  have hmixed : ∀ expr, ¬ Sole (defaultTemplate path (json.toString value)).toList expr := by
    intro expr hsole
    have heq := sole_unique hsole htext hclose
    obtain ⟨_, _, _, _, _, hplain, _⟩ := hsole
    refine hplain ?_
    rw [heq, ← List.append_assoc]
    exact (hopen.trans List.infix_append_right).trans List.infix_append_left
  rw [means_mixed hmixed, htext]
  simp only [textMeans_iff hstart hclose, textMeans_plain not_open_nil]
  constructor
  · rintro ⟨_, ⟨rendered, rest, hevaluates, rfl, rfl⟩, heq⟩
    cases heq
    exact ⟨(hjson.string _ rfl).2, _, rfl⟩
  · rintro ⟨hread, content, rfl⟩
    refine ⟨content.toList, ⟨.value (.string content), [], ?_, rfl, ?_⟩, ?_⟩
    · exact (evaluates_whole hpath hmissing hbar).mpr
        ⟨(parseDefaultLiteral_eq_iff hjson).mpr hread, hvalue⟩
    · rw [List.nil_append, List.append_nil]
      rfl
    · rw [String.ofList_toList]

/-- A default is read back exactly if its text holds no brace or bar of an expression, and,
where it is not text itself, no opening mark. -/
theorem default_round_trip_iff {json : SerdeJson} {ctx : RenderContext} {path : String}
    {value : Value} (hjson : CompactText json value) (hvalue : value ≠ .null)
    (hpath : ArgumentPath path) (hmissing : isMissing (selectPath ctx.args path) = true) :
    renderValue json (.string (defaultTemplate path (json.toString value))) ctx = .ok value ↔
      Survives json value := by
  rw [← resolveBase_path hpath] at hmissing
  rw [renderValue_string hvalue]
  have htext := @toList_defaultTemplate json path value
  by_cases hbrace : '}' ∈ (json.toString value).toList
  · -- The scanner ends the expression inside the default.
    refine iff_of_false ?_ fun h => h.2.1 hbrace
    obtain ⟨first, last, hsplit, hfirst⟩ := List.eq_append_cons_of_mem hbrace
    have hend : '}' ∉ lead path ++ first :=
      fun h => (List.mem_append.mp h).elim (not_brace_lead hpath) hfirst
    refine @not_means_of_mark json ctx path value hjson hpath hmissing (.inl hbrace) _ first
      (last ++ [')', '}']) ?_ hend ?_
    · rw [htext, hsplit]
      simp only [List.append_assoc, List.cons_append, List.nil_append]
    · intro inner hinner _
      rw [hsplit]
      exact hinner.trans (List.prefix_append _ _)
  · have hend := @not_brace_whole json path value hpath hbrace
    by_cases hbar : '|' ∈ (json.toString value).toList
    · -- The parser cuts the default.
      refine iff_of_false ?_ fun h => h.2.2.1 hbar
      refine not_means_of_mark hjson hpath hmissing (.inr hbar) htext hend ?_
      intro inner hinner hplain
      rcases List.prefix_concat_iff.mp hinner with heq | hinner
      · rw [List.append_cancel_right heq] at hplain
        exact absurd hbar hplain
      · exact hinner
    · by_cases hopen : ['$', '{'] <:+: (json.toString value).toList
      · rw [means_of_open hjson hvalue hpath hmissing hbrace hbar hopen]
        constructor
        · rintro ⟨hread, hstring⟩
          exact ⟨hread, hbrace, hbar, .inr hstring⟩
        · rintro ⟨hread, -, -, hstring⟩
          exact ⟨hread, hstring.resolve_left (not_not_intro hopen)⟩
      · have hsole : Sole (defaultTemplate path (json.toString value)).toList
            (lead path ++ ((json.toString value).toList ++ [')'])) :=
          ⟨[], [], rfl, rfl, htext, not_open_expression hpath hopen, hend⟩
        rw [means_sole hsole, evaluates_whole hpath hmissing hbar, parseDefaultLiteral_eq_iff hjson]
        constructor
        · rintro ⟨hread, -⟩
          exact ⟨hread, hbrace, hbar, .inl hopen⟩
        · rintro ⟨hread, -⟩
          exact ⟨hread, hvalue⟩

/-- A parser and a printer that know one value. -/
def jsonOf (value : Value) (text : String) : SerdeJson where
  fromStr read := if read = text then .ok value else .error "expected value"
  toString _ := text

theorem default_list_survives :
    renderValue (jsonOf (.array [.bool true]) "[true]")
      (.string (defaultTemplate "f"
        ((jsonOf (.array [.bool true]) "[true]").toString (.array [.bool true]))))
      ⟨.object [], none⟩ = .ok (.array [.bool true]) := by
  have hjson : CompactText (jsonOf (.array [.bool true]) "[true]") (.array [.bool true]) :=
    { string := fun text h => by cases h
      first := ⟨'[', "true]".toList, rfl, rfl, by decide⟩
      last := fun c hc => by
        cases hc
        rfl
      incomplete := fun h => absurd h (by decide) }
  have hpath : ArgumentPath "f" :=
    { nonempty := by decide
      trimmed := rfl
      noBar := by decide
      noBrace := by decide
      noOpen := by decide
      argument := ⟨by decide, rfl⟩ }
  exact (default_round_trip_iff hjson (fun h => by cases h) hpath rfl).mpr
    ⟨rfl, by decide, by decide, .inl (by decide)⟩

/-- An empty object is not read back: the expression ends at its brace. -/
theorem default_object_lost :
    renderValue (jsonOf (.object []) "\x7b\x7d")
      (.string (defaultTemplate "f" ((jsonOf (.object []) "\x7b\x7d").toString (.object []))))
      ⟨.object [], none⟩ ≠ .ok (.object []) := by
  intro h
  cases h

/-! ## Null and absent -/

section Null
variable {json : SerdeJson} {expr : String} {present absent : RenderContext}

/-- The filters of an expression begin with `csv`. -/
def CsvFirst (json : SerdeJson) (expr : String) : Prop :=
  ∃ base optional rest, parseExpression json expr = .ok (base, optional, .csv :: rest)

theorem found_default_eq {base : String} {value : Value} {filters : List Filter}
    (hpresent : isMissing (resolveBase base present) = true)
    (habsent : isMissing (resolveBase base absent) = true) :
    found json present base (.default value :: filters) =
      found json absent base (.default value :: filters) := by
  unfold found
  rw [List.foldl_cons, List.foldl_cons, applyFilter, applyFilter, if_pos hpresent, if_pos habsent]

theorem renderExpression_congr {base : String} {optional : Bool} {filters : List Filter}
    (hparse : parseExpression json expr = .ok (base, optional, filters))
    (hfound : found json present base filters = found json absent base filters) :
    renderExpression json expr present = renderExpression json expr absent := by
  unfold found at hfound
  unfold renderExpression
  rw [hparse]
  simp only [bind, Except.bind, hfound]

/-- Null means absent in an expression, whatever it is, unless `csv` is its first filter and
makes text of the null. -/
theorem null_as_absent
    (hbase : ∀ base optional filters, parseExpression json expr = .ok (base, optional, filters) →
      resolveBase base present = some .null ∧ resolveBase base absent = none) :
    (¬ CsvFirst json expr → renderExpression json expr present = renderExpression json expr absent) ∧
      (CsvFirst json expr → renderExpression json expr present = .ok (.value (.string "null"))) := by
  constructor
  · intro hfirst
    cases hparse : parseExpression json expr with
    | error error =>
      unfold renderExpression
      rw [hparse]
      rfl
    | ok parsed =>
      obtain ⟨base, optional, filters⟩ := parsed
      obtain ⟨hpresent, habsent⟩ := hbase base optional filters hparse
      have hnull : isMissing (resolveBase base present) = true := by rw [hpresent]; rfl
      have hnone : isMissing (resolveBase base absent) = true := by rw [habsent]; rfl
      cases filters with
      | nil => rw [renderExpression_missing hparse hnull, renderExpression_missing hparse hnone]
      | cons filter rest =>
        cases filter with
        | default value => exact renderExpression_congr hparse (found_default_eq hnull hnone)
        | csv => exact absurd ⟨base, optional, rest, hparse⟩ hfirst
  · rintro ⟨base, optional, rest, hparse⟩
    have hfound : found json present base (.csv :: rest) = some (.string "null") := by
      unfold found
      rw [List.foldl_cons, (hbase base optional _ hparse).1]
      exact foldl_text "null" rest
    exact renderExpression_present hparse hfound fun h => by cases h

/-- A default stands for a null as it does for what is absent. -/
theorem null_as_absent_default :
    renderExpression ⟨fun _ => .error "expected value", fun _ => "null"⟩ "name|default(x)"
        ⟨.object [("name", .null)], none⟩ =
      renderExpression ⟨fun _ => .error "expected value", fun _ => "null"⟩ "name|default(x)"
        ⟨.object [], none⟩ := by
  refine (@null_as_absent _ _ ⟨.object [("name", .null)], none⟩ ⟨.object [], none⟩ ?_).1 ?_
  · intro base optional filters hparse
    cases hparse
    exact ⟨rfl, rfl⟩
  · rintro ⟨base, optional, rest, hparse⟩
    cases hparse

/-- A list of flags that is null is sent as text, and one that is absent is missing. -/
theorem csv_null_differs :
    renderExpression ⟨fun _ => .error "expected value", fun _ => "null"⟩ "flag|csv"
        ⟨.object [("flag", .null)], none⟩ ≠
      renderExpression ⟨fun _ => .error "expected value", fun _ => "null"⟩ "flag|csv"
        ⟨.object [], none⟩ := by
  intro h
  cases h

end Null

end RustMcpCore.Templating
