import Mathlib

/-! # Challenges of HTTP authentication

A challenge is a scheme with parameters, whose values are tokens or quoted strings.
In a quoted string a backslash stands before a character that is taken as it is. A
header value has no control characters but tabs; the characters beyond ASCII, whose
bytes all have their first bit set, are the `obs-text` of the grammar.
-/
namespace RustMcpCore.Library.Challenge

def isHeaderChar (c : Char) : Bool := (0x20 ≤ c.toNat && c.toNat ≠ 0x7F) || c.toNat = 0x09

/-- The characters of a token. -/
def isTchar (c : Char) : Bool :=
  c.isAlphanum || c.toNat = 0x60 || "!#$%&'*+-.^_|~".toList.contains c

def isBlank (c : Char) : Bool := c.toNat = 0x20 || c.toNat = 0x09

/-- The characters that stand for themselves in a quoted string. -/
def isQdtext (c : Char) : Bool := isHeaderChar c && c ≠ '"' && c ≠ '\\'

/-- What stands up to the closing quote, and what follows. -/
def quotedText : List Char → Option (List Char × List Char)
  | [] => none
  | c :: rest =>
    if c = '"' then some ([], rest)
    else if c = '\\' then
      match rest with
      | [] => none
      | d :: rest =>
        if isHeaderChar d then (quotedText rest).map fun read => (d :: read.1, read.2) else none
    else if isQdtext c then (quotedText rest).map fun read => (c :: read.1, read.2)
    else none

abbrev Parameter := List Char × List Char

/-- A value is a quoted string or a token. -/
def value (input : List Char) : Option (List Char × List Char) :=
  match input with
  | '"' :: rest => quotedText rest
  | _ =>
    if input.takeWhile isTchar = [] then none
    else some (input.takeWhile isTchar, input.dropWhile isTchar)

def parameter (input : List Char) : Option (Parameter × List Char) :=
  if input.takeWhile isTchar = [] then none
  else
    match (input.dropWhile isTchar).dropWhile isBlank with
    | '=' :: rest =>
      (value (rest.dropWhile isBlank)).map fun read => ((input.takeWhile isTchar, read.1), read.2)
    | _ => none

/-- Parameters between commas. The number bounds how many there are. -/
def parameters : ℕ → List Char → Option (List Parameter)
  | 0, _ => none
  | bound + 1, input =>
    (parameter input).bind fun read =>
      match read.2.dropWhile isBlank with
      | [] => some [read.1]
      | ',' :: rest => (parameters bound (rest.dropWhile isBlank)).map (read.1 :: ·)
      | _ => none

def parseChars (input : List Char) : Option (List Char × List Parameter) :=
  if input.takeWhile isTchar = [] then none
  else
    match input.dropWhile isTchar with
    | [] => some (input.takeWhile isTchar, [])
    | ' ' :: rest =>
      (parameters rest.length (rest.dropWhile (· = ' '))).map (input.takeWhile isTchar, ·)
    | _ => none

/-- The scheme and the parameters of a header value. -/
def parse (header : String) : Option (String × List (String × String)) :=
  (parseChars header.toList).map fun read =>
    (.ofList read.1, read.2.map fun param => (.ofList param.1, .ofList param.2))

/-! ## Reading back -/

def Token (name : List Char) : Prop := name ≠ [] ∧ ∀ c ∈ name, isTchar c = true

instance (name : List Char) : Decidable (Token name) :=
  decidable_of_iff (name ≠ [] ∧ name.all isTchar = true) (and_congr_right' List.all_eq_true)

/-- Every character stands for itself. -/
def Plain (text : List Char) : Prop := ∀ c ∈ text, isQdtext c = true

instance (text : List Char) : Decidable (Plain text) :=
  decidable_of_iff (text.all isQdtext = true) List.all_eq_true

/-- The reader of quoted strings, case by case. -/
theorem quotedText_cons {c : Char} {input read after : List Char}
    (h : quotedText (c :: input) = some (read, after)) :
    (c = '"' ∧ read = [] ∧ after = input) ∨
    (c = '\\' ∧ ∃ d rest more, input = d :: rest ∧ read = d :: more ∧
      quotedText rest = some (more, after)) ∨
    (isQdtext c = true ∧ ∃ more, read = c :: more ∧ quotedText input = some (more, after)) := by
  rw [quotedText.eq_def] at h
  simp only at h
  split at h
  · rename_i hc
    cases h
    exact .inl ⟨hc, rfl, rfl⟩
  · split at h
    · rename_i hc
      split at h
      · cases h
      · split at h
        · obtain ⟨⟨more, _⟩, hrest, heq⟩ := Option.map_eq_some_iff.mp h
          cases heq
          exact .inr (.inl ⟨hc, _, _, more, rfl, rfl, hrest⟩)
        · cases h
    · split at h
      · rename_i hc
        obtain ⟨⟨more, _⟩, hrest, heq⟩ := Option.map_eq_some_iff.mp h
        cases heq
        exact .inr (.inr ⟨hc, more, rfl, hrest⟩)
      · cases h

theorem quotedText_quote (rest : List Char) : quotedText ('"' :: rest) = some ([], rest) := by
  rw [quotedText.eq_def]
  rfl

theorem quotedText_plain {text : List Char} (h : Plain text) (rest : List Char) :
    quotedText (text ++ '"' :: rest) = some (text, rest) := by
  induction text with
  | nil => exact quotedText_quote rest
  | cons c text ih =>
    have hc : isQdtext c = true := h c List.mem_cons_self
    have hquote : c ≠ '"' := by
      rintro rfl
      exact absurd hc (by decide)
    have hescape : c ≠ '\\' := by
      rintro rfl
      exact absurd hc (by decide)
    rw [List.cons_append, quotedText.eq_def]
    simp only [hquote, hescape, hc, if_true, if_false]
    rw [ih fun d hd => h d (List.mem_cons_of_mem _ hd)]
    rfl

/-- Reading does not add backslashes in front of a text. -/
theorem quotedText_ne_escaped {text rest read after : List Char} {k : ℕ}
    (h : quotedText (text ++ '"' :: rest) = some (read, after)) :
    read ≠ List.replicate (k + 1) '\\' ++ text := by
  induction hn : text.length using Nat.strongRecOn generalizing text read k with
  | _ n ih =>
    subst hn
    intro hread
    rw [List.replicate_succ, List.cons_append] at hread
    cases text with
    | nil =>
      rw [List.nil_append, quotedText_quote] at h
      cases h
      cases hread
    | cons c text =>
      rcases quotedText_cons h with ⟨_, rfl, _⟩ | ⟨rfl, d, more, tail, hinput, rfl, hmore⟩ |
        ⟨hc, tail, rfl, _⟩
      · cases hread
      · obtain ⟨rfl, htail⟩ := List.cons.inj hread
        cases text with
        | nil => cases hinput
        | cons e text =>
          obtain ⟨rfl, rfl⟩ := List.cons.inj hinput
          refine ih text.length (by simp only [List.length_cons]; omega) (k := k + 1) hmore rfl ?_
          rw [htail, List.replicate_succ', List.replicate_succ']
          simp only [List.append_assoc, List.cons_append, List.nil_append]
      · obtain ⟨rfl, _⟩ := List.cons.inj hread
        exact absurd hc (by decide)

/-- Quoted as it is, a text is read back only if every character stands for itself. -/
theorem plain_of_quotedText {text rest after : List Char}
    (h : quotedText (text ++ '"' :: rest) = some (text, after)) : Plain text ∧ after = rest := by
  induction text with
  | nil =>
    rw [List.nil_append, quotedText_quote] at h
    cases h
    exact ⟨nofun, rfl⟩
  | cons c text ih =>
    rcases quotedText_cons h with ⟨_, hread, _⟩ | ⟨rfl, d, more, tail, hinput, hread, hmore⟩ |
      ⟨hc, tail, hread, hmore⟩
    · cases hread
    · obtain ⟨rfl, rfl⟩ := List.cons.inj hread
      cases text with
      | nil => cases hinput
      | cons e text =>
        obtain ⟨rfl, rfl⟩ := List.cons.inj hinput
        exact absurd rfl (quotedText_ne_escaped (k := 0) hmore)
    · obtain ⟨_, rfl⟩ := List.cons.inj hread
      obtain ⟨hplain, hafter⟩ := ih hmore
      exact ⟨List.forall_mem_cons.mpr ⟨hc, hplain⟩, hafter⟩

/-! ## Lists of parameters -/

/-- A parameter whose value stands between quotes as it is. -/
def Parameter.quoted (param : Parameter) (rest : List Char) : List Char :=
  param.1 ++ '=' :: '"' :: (param.2 ++ '"' :: rest)

def quotedAll : List Parameter → List Char
  | [] => []
  | [param] => param.quoted []
  | param :: next :: params => param.quoted (',' :: ' ' :: quotedAll (next :: params))

theorem takeWhile_token {name rest : List Char} {c : Char} (h : Token name)
    (hc : isTchar c = false) :
    (name ++ c :: rest).takeWhile isTchar = name ∧
      (name ++ c :: rest).dropWhile isTchar = c :: rest := by
  constructor
  · rw [List.takeWhile_append_of_pos h.2, List.takeWhile_cons_of_neg (by rw [hc]; decide),
      List.append_nil]
  · rw [List.dropWhile_append_of_pos h.2, List.dropWhile_cons_of_neg (by rw [hc]; decide)]

theorem parameter_quoted {param : Parameter} (h : Token param.1) (rest : List Char) :
    parameter (param.quoted rest) =
      (quotedText (param.2 ++ '"' :: rest)).map fun read => ((param.1, read.1), read.2) := by
  have hname := @takeWhile_token param.1 ('"' :: (param.2 ++ '"' :: rest)) '=' h (by decide)
  unfold parameter Parameter.quoted
  rw [hname.1, hname.2, if_neg h.1, List.dropWhile_cons_of_neg (by decide)]
  simp only [List.dropWhile_cons_of_neg (show ¬ isBlank '"' = true by decide), value]

/-- What follows the first parameter. -/
def afterParameter (bound : ℕ) (param : Parameter) (rest : List Char) : Option (List Parameter) :=
  match rest.dropWhile isBlank with
  | [] => some [param]
  | ',' :: rest => (parameters bound (rest.dropWhile isBlank)).map (param :: ·)
  | _ => none

theorem parameters_succ (bound : ℕ) (input : List Char) :
    parameters (bound + 1) input =
      (parameter input).bind fun read => afterParameter bound read.1 read.2 := rfl

theorem head_of_afterParameter {bound : ℕ} {param first : Parameter} {rest : List Char}
    {params : List Parameter} (h : afterParameter bound param rest = some (first :: params)) :
    param = first := by
  unfold afterParameter at h
  split at h
  · cases h
    rfl
  · obtain ⟨more, _, heq⟩ := Option.map_eq_some_iff.mp h
    exact (List.cons.inj heq).1
  · cases h

theorem parameters_quoted {param : Parameter} {params : List Parameter} {bound : ℕ}
    {rest : List Char} (h : Token param.1) :
    parameters (bound + 1) (param.quoted rest) = some (param :: params) ↔
      Plain param.2 ∧ afterParameter bound param rest = some (param :: params) := by
  rw [parameters_succ, parameter_quoted h]
  constructor
  · intro hread
    obtain ⟨⟨first, after⟩, hfirst, hafter⟩ := Option.bind_eq_some_iff.mp hread
    obtain ⟨⟨text, tail⟩, htext, heq⟩ := Option.map_eq_some_iff.mp hfirst
    cases heq
    have hhead : (param.1, text) = param := head_of_afterParameter hafter
    have hvalue : text = param.2 := congrArg Prod.snd hhead
    subst hvalue
    obtain ⟨hplain, rfl⟩ := plain_of_quotedText htext
    exact ⟨hplain, hafter⟩
  · rintro ⟨hplain, hafter⟩
    rw [quotedText_plain hplain]
    exact hafter

theorem not_isBlank_of_isTchar {c : Char} (h : isTchar c = true) : isBlank c = false := by
  cases hblank : isBlank c with
  | false => rfl
  | true =>
    simp only [isBlank, Bool.or_eq_true, decide_eq_true_eq] at hblank
    rcases hblank with hblank | hblank
    · obtain rfl : c = ' ' := Char.toNat_inj.mp hblank
      exact absurd h (by decide)
    · obtain rfl : c = '\t' := Char.toNat_inj.mp hblank
      exact absurd h (by decide)

theorem dropWhile_quotedAll {params : List Parameter} {p : Char → Bool}
    (hp : ∀ c, isTchar c = true → p c = false) (h : ∀ param ∈ params, Token param.1) :
    (quotedAll params).dropWhile p = quotedAll params := by
  have hquoted : ∀ param rest, Token param.1 →
      (Parameter.quoted param rest).dropWhile p = Parameter.quoted param rest := by
    rintro ⟨name, text⟩ rest ⟨hne, hname⟩
    cases name with
    | nil => exact absurd rfl hne
    | cons c name =>
      refine List.dropWhile_cons_of_neg ?_
      rw [hp c (hname c List.mem_cons_self)]
      exact Bool.false_ne_true
  cases params with
  | nil => rfl
  | cons param params =>
    have hparam := h param List.mem_cons_self
    cases params with
    | nil => exact hquoted param _ hparam
    | cons next params => exact hquoted param _ hparam

theorem length_le_quotedAll (params : List Parameter) : params.length ≤ (quotedAll params).length := by
  induction params with
  | nil => exact Nat.le_refl 0
  | cons param params ih =>
    cases params with
    | nil => simp only [quotedAll, Parameter.quoted, List.length_append, List.length_cons]; omega
    | cons next params =>
      rw [quotedAll, Parameter.quoted]
      simp only [List.length_append, List.length_cons] at ih ⊢
      omega

/-- The parameters are read back as they were if and only if in their values every
character stands for itself. -/
theorem parameters_quotedAll {params : List Parameter} {bound : ℕ}
    (htoken : ∀ param ∈ params, Token param.1) (hne : params ≠ []) (hbound : params.length ≤ bound) :
    parameters bound (quotedAll params) = some params ↔ ∀ param ∈ params, Plain param.2 := by
  induction params generalizing bound with
  | nil => exact absurd rfl hne
  | cons param params ih =>
    obtain ⟨hfirst, hrest⟩ := List.forall_mem_cons.mp htoken
    obtain ⟨bound, rfl⟩ : ∃ b, bound = b + 1 :=
      Nat.exists_eq_add_one_of_ne_zero (by rintro rfl; cases hbound)
    cases params with
    | nil =>
      rw [quotedAll, parameters_quoted hfirst, List.forall_mem_singleton]
      exact and_iff_left rfl
    | cons next params =>
      have hlength : (next :: params).length ≤ bound := Nat.le_of_succ_le_succ hbound
      rw [quotedAll, parameters_quoted hfirst, List.forall_mem_cons,
        ← ih hrest (List.cons_ne_nil _ _) hlength]
      have hafter : afterParameter bound param (',' :: ' ' :: quotedAll (next :: params)) =
          (parameters bound (quotedAll (next :: params))).map (param :: ·) := by
        unfold afterParameter
        rw [List.dropWhile_cons_of_neg (by decide)]
        simp only [List.dropWhile_cons_of_pos (show isBlank ' ' = true by decide),
          dropWhile_quotedAll (fun _ => not_isBlank_of_isTchar) hrest]
      rw [hafter, Option.map_eq_some_iff]
      simp only [List.cons.injEq, true_and, exists_eq_right]

/-! ## Header values -/

theorem isHeaderChar_of_isTchar {c : Char} (h : isTchar c = true) : isHeaderChar c = true := by
  have hrange : ∀ n : ℕ, 0x20 ≤ n → n ≤ 0x7E → c.toNat = n → isHeaderChar c = true := by
    intro n hlow hhigh hn
    simp only [isHeaderChar, hn, Bool.or_eq_true, Bool.and_eq_true, decide_eq_true_eq]
    exact .inl ⟨hlow, fun hdel => absurd (hdel ▸ hhigh) (by decide)⟩
  simp only [isTchar, Char.isAlphanum, Char.isAlpha, Char.isUpper, Char.isLower, Char.isDigit,
    Bool.or_eq_true, Bool.and_eq_true, decide_eq_true_eq] at h
  rcases h with (((⟨hlow, hhigh⟩ | ⟨hlow, hhigh⟩) | ⟨hlow, hhigh⟩) | heq) | hmem
  · exact hrange c.toNat (Nat.le_trans (by decide) hlow) (Nat.le_trans hhigh (by decide)) rfl
  · exact hrange c.toNat (Nat.le_trans (by decide) hlow) (Nat.le_trans hhigh (by decide)) rfl
  · exact hrange c.toNat (Nat.le_trans (by decide) hlow) (Nat.le_trans hhigh (by decide)) rfl
  · exact hrange 0x60 (by decide) (by decide) heq
  · have hall : "!#$%&'*+-.^_|~".toList.all isHeaderChar = true := by decide
    exact List.all_eq_true.mp hall c (List.contains_iff_mem.mp hmem)

theorem isHeaderChar_of_isQdtext {c : Char} (h : isQdtext c = true) : isHeaderChar c = true := by
  simp only [isQdtext, Bool.and_eq_true] at h
  exact h.1.1

theorem isHeaderChar_quotedAll {params : List Parameter} (htoken : ∀ param ∈ params, Token param.1)
    (hplain : ∀ param ∈ params, Plain param.2) : ∀ c ∈ quotedAll params, isHeaderChar c = true := by
  have hquoted : ∀ param rest, Token param.1 → Plain param.2 → (∀ c ∈ rest, isHeaderChar c = true) →
      ∀ c ∈ Parameter.quoted param rest, isHeaderChar c = true := by
    intro param rest hname htext hrest c hc
    simp only [Parameter.quoted, List.mem_append, List.mem_cons] at hc
    rcases hc with hc | rfl | rfl | hc | rfl | hc
    · exact isHeaderChar_of_isTchar (hname.2 c hc)
    · decide
    · decide
    · exact isHeaderChar_of_isQdtext (htext c hc)
    · decide
    · exact hrest c hc
  induction params with
  | nil => exact nofun
  | cons param params ih =>
    obtain ⟨hname, hnames⟩ := List.forall_mem_cons.mp htoken
    obtain ⟨htext, htexts⟩ := List.forall_mem_cons.mp hplain
    cases params with
    | nil => exact hquoted param [] hname htext nofun
    | cons next params =>
      refine hquoted param _ hname htext fun c hc => ?_
      rcases List.mem_cons.mp hc with rfl | hc
      · decide
      · rcases List.mem_cons.mp hc with rfl | hc
        · decide
        · exact ih hnames htexts c hc

/-- A parameter with its value between quotes. -/
def quote (name value : String) : String := name ++ "=\"" ++ value ++ "\""

def ofStrings (param : String × String) : Parameter := (param.1.toList, param.2.toList)

def toStrings (param : Parameter) : String × String := (.ofList param.1, .ofList param.2)

theorem toStrings_ofStrings (param : String × String) : toStrings (ofStrings param) = param := by
  simp [toStrings, ofStrings]

theorem ofStrings_toStrings (param : Parameter) : ofStrings (toStrings param) = param := by
  simp [toStrings, ofStrings]

theorem toList_quote (param : String × String) (rest : List Char) :
    (quote param.1 param.2).toList ++ rest = (ofStrings param).quoted rest := by
  simp [quote, ofStrings, Parameter.quoted]

theorem toList_intercalate_quote (params : List (String × String)) :
    (", ".intercalate (params.map fun param => quote param.1 param.2)).toList =
      quotedAll (params.map ofStrings) := by
  induction params with
  | nil => rfl
  | cons param params ih =>
    cases params with
    | nil =>
      have h := toList_quote param []
      rw [List.append_nil] at h
      simpa [quotedAll] using h
    | cons next params =>
      simp only [List.map_cons] at ih ⊢
      rw [quotedAll, ← ih, ← toList_quote, String.intercalate_cons_cons]
      simp only [String.toList_append, List.append_assoc]
      rfl

theorem toList_challenge (scheme : String) (params : List (String × String)) :
    (scheme ++ " " ++ ", ".intercalate (params.map fun param => quote param.1 param.2)).toList =
      scheme.toList ++ ' ' :: quotedAll (params.map ofStrings) := by
  rw [String.toList_append, String.toList_append, toList_intercalate_quote, List.append_assoc]
  rfl

theorem isHeaderChar_challenge {scheme : String} {params : List (String × String)}
    (hscheme : Token scheme.toList) (htoken : ∀ param ∈ params, Token param.1.toList)
    (hplain : ∀ param ∈ params, Plain param.2.toList) :
    (scheme ++ " " ++ ", ".intercalate
      (params.map fun param => quote param.1 param.2)).toList.all isHeaderChar = true := by
  rw [toList_challenge, List.all_eq_true]
  intro c hc
  rcases List.mem_append.mp hc with hc | hc
  · exact isHeaderChar_of_isTchar (hscheme.2 c hc)
  · rcases List.mem_cons.mp hc with rfl | hc
    · decide
    · refine isHeaderChar_quotedAll ?_ ?_ c hc
      · exact List.forall_mem_map.mpr htoken
      · exact List.forall_mem_map.mpr hplain

/-- A challenge whose values stand between quotes as they are is read back if and only
if in each of them every character stands for itself. -/
theorem parse_quoted {scheme : String} {params : List (String × String)}
    (hscheme : Token scheme.toList) (htoken : ∀ param ∈ params, Token param.1.toList)
    (hne : params ≠ []) :
    parse (scheme ++ " " ++ ", ".intercalate (params.map fun param => quote param.1 param.2)) =
        some (scheme, params) ↔ ∀ param ∈ params, Plain param.2.toList := by
  have htokens : ∀ param ∈ params.map ofStrings, Token param.1 := List.forall_mem_map.mpr htoken
  have hlength : (params.map ofStrings).length ≤ (quotedAll (params.map ofStrings)).length :=
    length_le_quotedAll _
  have hread : parseChars (scheme.toList ++ ' ' :: quotedAll (params.map ofStrings)) =
      (parameters (quotedAll (params.map ofStrings)).length
        (quotedAll (params.map ofStrings))).map (scheme.toList, ·) := by
    have hsplit := @takeWhile_token _ (quotedAll (params.map ofStrings)) ' ' hscheme (by decide)
    have hspace : ∀ c, isTchar c = true → decide (c = ' ') = false := by
      intro c hc
      refine decide_eq_false ?_
      rintro rfl
      exact absurd hc (by decide)
    unfold parseChars
    rw [hsplit.1, hsplit.2, if_neg hscheme.1]
    simp only
    rw [dropWhile_quotedAll hspace htokens]
  have hback : (params.map ofStrings).map toStrings = params := by
    rw [List.map_map]
    exact (List.map_congr_left fun param _ => toStrings_ofStrings param).trans (List.map_id _)
  have hiff := parameters_quotedAll htokens (List.map_eq_nil_iff.not.mpr hne) hlength
  rw [List.forall_mem_map] at hiff
  rw [parse, toList_challenge, hread, Option.map_map, Option.map_eq_some_iff]
  refine Iff.trans ?_ hiff
  constructor
  · rintro ⟨read, hparams, heq⟩
    have hstrings : read.map toStrings = params := congrArg Prod.snd heq
    rw [hparams, ← hstrings, List.map_map]
    exact congrArg some
      ((List.map_congr_left fun param _ => ofStrings_toStrings param).trans (List.map_id _)).symm
  · intro hparams
    refine ⟨_, hparams, ?_⟩
    simp only [Function.comp_apply, String.ofList_toList]
    exact congrArg (scheme, ·) hback

end RustMcpCore.Library.Challenge
