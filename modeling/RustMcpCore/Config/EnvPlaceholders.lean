import RustMcpCore.Config.Upstream
import RustMcpCore.Errors
import RustMcpCore.Library.Scanning

/-! # Environment placeholders in configuration text

The scanner reads a placeholder up to the first closing brace. What is not of the
environment it keeps, and does not look inside.
-/
namespace RustMcpCore.Loader
open Library

section Expansion
variable (surroundings : Surroundings)

/-- The value of a variable of the environment, or `null`. -/
def envValue (envKey : String) : String :=
  match surroundings.envVar envKey with
  | .ok value => value
  | .error _ => "null"

def expandPlaceholder (key : String) : Except McpError String :=
  match Text.stripPrefix key "env:" with
  | some envKey =>
    if envKey.isEmpty then
      .error (.invalidRequest
        "malformed env placeholder: empty env var name in `$\x7benv:\x7d`" none)
    else .ok (envValue surroundings envKey)
  | none => .ok ("$\x7b" ++ key ++ "\x7d")

/-- The rest of a text, from within a placeholder with the key read so far or from outside. -/
def scanEnv : Option (List Char) → List Char → Except McpError (List Char)
  | none, [] => .ok []
  | some key, [] =>
    let key := String.ofList key
    .error (.invalidRequest
      s!"malformed env placeholder: missing closing `\x7d` for `$\x7b{key}\x7d`" none)
  | none, '$' :: '{' :: rest => scanEnv (some []) rest
  | none, c :: rest => (scanEnv none rest).map (c :: ·)
  | some key, c :: rest =>
    if c = '}' then do
      let value ← expandPlaceholder surroundings (.ofList key)
      (scanEnv none rest).map (value.toList ++ ·)
    else scanEnv (some (key ++ [c])) rest

def expandEnvVars (content : String) : Except McpError String :=
  (scanEnv surroundings none content.toList).map .ofList

end Expansion

/-! ## The meaning -/

def envLead : List Char := ['e', 'n', 'v', ':']

def envMark : List Char := '$' :: '{' :: envLead

/-- A name in an environment placeholder, at the start of a text with more behind it. -/
structure Occurs (text name rest : List Char) : Prop where
  spelled : text = envMark ++ name ++ '}' :: rest
  named : name ≠ []
  inside : '}' ∉ name

/-- Each occurrence has the value of its variable in its place, and nothing else changes. -/
inductive Replaces (surroundings : Surroundings) : List Char → List Char → Prop
  | nil : Replaces surroundings [] []
  | occurrence {text name rest out : List Char} (occurs : Occurs text name rest)
      (more : Replaces surroundings rest out) :
      Replaces surroundings text ((envValue surroundings (.ofList name)).toList ++ out)
  | copy {c : Char} {rest out : List Char} (absent : ∀ name more, ¬ Occurs (c :: rest) name more)
      (more : Replaces surroundings rest out) : Replaces surroundings (c :: rest) (c :: out)

/-! ## What the scanner sees -/

inductive Segment
  | char (c : Char)
  | placeholder (key : List Char)

/-- The characters and placeholders of a text, where each placeholder ends with the first
closing brace. -/
inductive Segments : List Segment → List Char → Prop
  | nil : Segments [] []
  | char {c : Char} {rest : List Char} {segments : List Segment}
      (plain : ¬ ['$', '{'] <+: c :: rest) (more : Segments segments rest) :
      Segments (.char c :: segments) (c :: rest)
  | placeholder {key rest : List Char} {segments : List Segment} (inside : '}' ∉ key)
      (more : Segments segments rest) :
      Segments (.placeholder key :: segments) ('$' :: '{' :: (key ++ '}' :: rest))

def spellSegment : Segment → List Char
  | .char c => [c]
  | .placeholder key => '$' :: '{' :: (key ++ ['}'])

def expandSegment (surroundings : Surroundings) : Segment → List Char
  | .char c => [c]
  | .placeholder key =>
    match Text.stripPrefix (.ofList key) "env:" with
    | some envKey => (envValue surroundings envKey).toList
    | none => spellSegment (.placeholder key)

def emptyName : Segment := .placeholder envLead

/-- A placeholder that is not one of the environment, with one of the environment in it. -/
def Nests (key : List Char) : Prop :=
  ¬ envLead <+: key ∧ ∃ before name, key = before ++ envMark ++ name ∧ name ≠ []

/-- Some placeholder of a well-formed text hides one of the environment. -/
def HidesEnv (text : List Char) : Prop :=
  ∃ segments key, Segments segments text ∧ emptyName ∉ segments ∧
    .placeholder key ∈ segments ∧ Nests key

variable {surroundings : Surroundings}

theorem scanEnv_key {key : List Char} (hkey : '}' ∉ key) (lead rest : List Char) :
    scanEnv surroundings (some lead) (key ++ '}' :: rest) =
      (expandPlaceholder surroundings (.ofList (lead ++ key))).bind fun value =>
        (scanEnv surroundings none rest).map (value.toList ++ ·) := by
  induction key generalizing lead with
  | nil =>
    rw [List.nil_append, List.append_nil, scanEnv, if_pos rfl]
    rfl
  | cons c key ih =>
    obtain ⟨hc, hkey⟩ := List.ne_and_not_mem_of_not_mem_cons hkey
    rw [List.cons_append, scanEnv, if_neg hc.symm, ih hkey, List.append_assoc]
    rfl

theorem scanEnv_unclosed {text : List Char} (h : '}' ∉ text) (lead : List Char) :
    ∃ error, scanEnv surroundings (some lead) text = .error error := by
  induction text generalizing lead with
  | nil => exact ⟨_, rfl⟩
  | cons c text ih =>
    obtain ⟨hc, htext⟩ := List.ne_and_not_mem_of_not_mem_cons h
    rw [scanEnv, if_neg hc.symm]
    exact ih htext _

theorem scanEnv_char {c : Char} {rest : List Char} (h : ¬ ['$', '{'] <+: c :: rest) :
    scanEnv surroundings none (c :: rest) = (scanEnv surroundings none rest).map (c :: ·) := by
  rw [scanEnv]
  rintro tail rfl rfl
  exact h ⟨tail, rfl⟩

theorem stripPrefix_key {key : List Char} {envKey : String} :
    Text.stripPrefix (.ofList key) "env:" = some envKey ↔ key = envLead ++ envKey.toList := by
  rw [Text.stripPrefix_eq_some_iff, ← String.toList_inj, String.toList_ofList,
    String.toList_append]
  exact Iff.rfl

theorem stripPrefix_env (name : List Char) :
    Text.stripPrefix (.ofList (envLead ++ name)) "env:" = some (.ofList name) :=
  stripPrefix_key.mpr (by rw [String.toList_ofList])

theorem stripPrefix_other {key : List Char} (h : ¬ envLead <+: key) :
    Text.stripPrefix (.ofList key) "env:" = none := by
  rw [Option.eq_none_iff_forall_ne_some]
  intro envKey hkey
  exact h ⟨envKey.toList, (stripPrefix_key.mp hkey).symm⟩

theorem expandSegment_env (name : List Char) :
    expandSegment surroundings (.placeholder (envLead ++ name)) =
      (envValue surroundings (.ofList name)).toList := by
  rw [expandSegment, stripPrefix_env]

theorem expandSegment_other {key : List Char} (h : ¬ envLead <+: key) :
    expandSegment surroundings (.placeholder key) = '$' :: '{' :: (key ++ ['}']) := by
  rw [expandSegment, stripPrefix_other h]
  rfl

theorem expandPlaceholder_eq_ok {key : List Char} {value : String} :
    expandPlaceholder surroundings (.ofList key) = .ok value ↔
      key ≠ envLead ∧ value.toList = expandSegment surroundings (.placeholder key) := by
  by_cases hkey : envLead <+: key
  · obtain ⟨name, rfl⟩ := hkey
    rw [expandPlaceholder, stripPrefix_env, expandSegment_env]
    by_cases hname : name = []
    · rw [hname, List.append_nil]
      exact iff_of_false (fun h => by cases h) fun h => h.1 rfl
    · have hnonempty : (String.ofList name).isEmpty = false := by
        rw [String.isEmpty_eq_false_iff, Ne, String.ofList_eq_empty_iff]
        exact hname
      have hne : envLead ++ name ≠ envLead := fun h => hname (List.append_right_eq_self.mp h)
      simp only [hnonempty, Bool.false_eq_true, if_false, Except.ok.injEq, ne_eq, hne,
        not_false_eq_true, true_and, String.toList_inj]
      exact eq_comm
  · rw [expandPlaceholder, stripPrefix_other hkey, expandSegment_other hkey]
    have hne : key ≠ envLead := by
      rintro rfl
      exact hkey List.prefix_rfl
    have htext : ("$\x7b" ++ String.ofList key ++ "\x7d").toList =
        '$' :: '{' :: (key ++ ['}']) := by
      rw [String.toList_append, String.toList_append, @String.toList_ofList key]
      rfl
    rw [← htext, String.toList_inj, Except.ok.injEq, and_iff_right hne]
    exact eq_comm

theorem length_lt_placeholder (key rest : List Char) :
    rest.length < ('$' :: '{' :: (key ++ '}' :: rest)).length := by
  simp only [List.length_cons, List.length_append]
  omega

theorem not_mem_cons_segments {segment : Segment} {segments : List Segment}
    (h : segment ≠ emptyName) (hsegments : emptyName ∉ segments) :
    emptyName ∉ segment :: segments :=
  List.not_mem_cons_of_ne_of_not_mem h.symm hsegments

theorem segments_of_scan {text out : List Char} (h : scanEnv surroundings none text = .ok out) :
    ∃ segments, Segments segments text ∧ emptyName ∉ segments ∧
      out = segments.flatMap (expandSegment surroundings) := by
  induction hlength : text.length using Nat.strongRecOn generalizing text out with
  | _ length ih =>
    cases text with
    | nil =>
      cases h
      exact ⟨[], .nil, List.not_mem_nil, rfl⟩
    | cons c rest =>
      by_cases hopen : ['$', '{'] <+: c :: rest
      · obtain ⟨rest, heq⟩ := hopen
        cases heq
        have hscan : scanEnv surroundings (some []) rest = .ok out := h
        by_cases hclose : '}' ∈ rest
        · obtain ⟨key, rest, rfl, hkey⟩ := List.eq_append_cons_of_mem hclose
          rw [scanEnv_key hkey, List.nil_append] at hscan
          obtain ⟨value, hvalue, hrest⟩ := bind_eq_ok hscan
          obtain ⟨more, hmore, rfl⟩ := except_map_eq_ok hrest
          obtain ⟨hnamed, hvalue⟩ := expandPlaceholder_eq_ok.mp hvalue
          obtain ⟨segments, hsegments, hnames, rfl⟩ :=
            ih rest.length (hlength ▸ length_lt_placeholder key rest) hmore rfl
          refine ⟨.placeholder key :: segments, .placeholder hkey hsegments,
            not_mem_cons_segments (fun h => hnamed (Segment.placeholder.inj h)) hnames, ?_⟩
          rw [List.flatMap_cons, hvalue]
        · obtain ⟨error, herror⟩ := @scanEnv_unclosed surroundings _ hclose []
          rw [herror] at hscan
          cases hscan
      · rw [scanEnv_char hopen] at h
        obtain ⟨more, hmore, rfl⟩ := except_map_eq_ok h
        obtain ⟨segments, hsegments, hnames, rfl⟩ :=
          ih rest.length (hlength ▸ Nat.lt_succ_self rest.length) hmore rfl
        exact ⟨.char c :: segments, .char hopen hsegments,
          not_mem_cons_segments (fun h => by cases h) hnames, rfl⟩

theorem scan_of_segments {segments : List Segment} {text : List Char}
    (h : Segments segments text) (hnamed : emptyName ∉ segments) :
    scanEnv surroundings none text = .ok (segments.flatMap (expandSegment surroundings)) := by
  induction h with
  | nil => rfl
  | char plain _ ih =>
    rw [scanEnv_char plain, ih fun h => hnamed (List.mem_cons_of_mem _ h)]
    rfl
  | @placeholder key rest segments inside _ ih =>
    have hkey : key ≠ envLead := by
      rintro rfl
      exact hnamed List.mem_cons_self
    have hvalue : expandPlaceholder surroundings (.ofList key) =
        .ok (.ofList (expandSegment surroundings (.placeholder key))) :=
      expandPlaceholder_eq_ok.mpr ⟨hkey, String.toList_ofList⟩
    change scanEnv surroundings (some []) (key ++ '}' :: rest) = _
    rw [scanEnv_key inside, List.nil_append, hvalue,
      ih fun h => hnamed (List.mem_cons_of_mem _ h), List.flatMap_cons]
    change Except.ok _ = _
    rw [String.toList_ofList]

/-- What is expanded is the text, segment by segment. -/
theorem scanEnv_iff {text out : List Char} : scanEnv surroundings none text = .ok out ↔
    ∃ segments, Segments segments text ∧ emptyName ∉ segments ∧
      out = segments.flatMap (expandSegment surroundings) := by
  constructor
  · exact segments_of_scan
  · rintro ⟨segments, hsegments, hnamed, rfl⟩
    exact scan_of_segments hsegments hnamed

/-! ## Occurrences -/

theorem occurs_key {key rest name more : List Char} (hkey : '}' ∉ key)
    (h : Occurs (key ++ '}' :: rest) name more) : key = envMark ++ name ∧ rest = more := by
  have hmark : '}' ∉ envMark ++ name := by
    intro hmem
    rcases List.mem_append.mp hmem with hmem | hmem
    · revert hmem
      decide
    · exact h.inside hmem
  have hcut := Text.cut_char_eq_some_iff.mpr ⟨h.spelled, hmark⟩
  rw [Text.cut_char_eq_some_iff.mpr ⟨rfl, hkey⟩] at hcut
  exact Prod.mk.inj (Option.some.inj hcut)

theorem not_occurs_plain {c : Char} {rest name more : List Char} (h : ¬ ['$', '{'] <+: c :: rest) :
    ¬ Occurs (c :: rest) name more :=
  fun hoccurs => h (by rw [hoccurs.spelled, List.append_assoc]; exact List.prefix_append _ _)

/-- What holds no occurrence is copied up to its closing brace. -/
theorem replaces_keep {text rest out : List Char} (htext : '}' ∉ text)
    (habsent : ∀ before name, text = before ++ envMark ++ name → name = [])
    (hrest : Replaces surroundings rest out) :
    Replaces surroundings (text ++ '}' :: rest) (text ++ '}' :: out) := by
  induction text with
  | nil =>
    refine .copy (fun name more hoccurs => ?_) hrest
    have hmark := (@occurs_key [] _ _ _ List.not_mem_nil hoccurs).1
    cases hmark
  | cons c text ih =>
    obtain ⟨-, hinside⟩ := List.ne_and_not_mem_of_not_mem_cons htext
    refine .copy (fun name more hoccurs => ?_) (ih hinside fun before name heq => ?_)
    · exact hoccurs.named (habsent [] name (occurs_key htext hoccurs).1)
    · exact habsent (c :: before) name (congrArg (c :: ·) heq)

theorem absent_of_not_nests {key : List Char} (hkey : ¬ envLead <+: key) (h : ¬ Nests key) :
    ∀ before name, '$' :: '{' :: key = before ++ envMark ++ name → name = [] := by
  intro before name heq
  by_contra hname
  cases before with
  | nil =>
    cases heq
    exact hkey (List.prefix_append _ _)
  | cons b before =>
    cases before with
    | nil => cases heq
    | cons b' before =>
      cases heq
      exact h ⟨hkey, before, name, rfl, hname⟩

/-- Where no placeholder hides another, what the scanner sees is all there is to replace. -/
theorem replaces_segments {segments : List Segment} {text : List Char}
    (h : Segments segments text) (hnamed : emptyName ∉ segments)
    (hplain : ∀ key, .placeholder key ∈ segments → ¬ Nests key) :
    Replaces surroundings text (segments.flatMap (expandSegment surroundings)) := by
  induction h with
  | nil => exact .nil
  | char plain _ ih =>
    have hrest := ih (fun h => hnamed (List.mem_cons_of_mem _ h))
      fun key h => hplain key (List.mem_cons_of_mem _ h)
    exact .copy (fun _ _ => not_occurs_plain plain) hrest
  | @placeholder key rest segments inside _ ih =>
    have hrest := ih (fun h => hnamed (List.mem_cons_of_mem _ h))
      fun key h => hplain key (List.mem_cons_of_mem _ h)
    rw [List.flatMap_cons]
    by_cases hkey : envLead <+: key
    · obtain ⟨name, rfl⟩ := hkey
      have hname : name ≠ [] := by
        rintro rfl
        exact hnamed (List.mem_cons.mpr (.inl (by rw [List.append_nil]; rfl)))
      rw [expandSegment_env]
      refine .occurrence ⟨?_, hname, fun h => inside (List.mem_append_right _ h)⟩ hrest
      rfl
    · rw [expandSegment_other hkey]
      have hinside : '}' ∉ '$' :: '{' :: key := by
        simpa using inside
      have hkept := replaces_keep hinside
        (absent_of_not_nests hkey (hplain key List.mem_cons_self)) hrest
      simpa using hkept

/-! ## What is hidden -/

/-- Text up to a closing brace is an occurrence, or its first character is copied. -/
theorem replaces_cases {c : Char} {text rest out : List Char} (htext : '}' ∉ c :: text)
    (h : Replaces surroundings (c :: text ++ '}' :: rest) out) :
    (∃ name more, c :: text = envMark ++ name ∧ Replaces surroundings rest more ∧
      out = (envValue surroundings (.ofList name)).toList ++ more) ∨
    (∀ name, c :: text = envMark ++ name → name = []) ∧
      ∃ more, Replaces surroundings (text ++ '}' :: rest) more ∧ out = c :: more := by
  generalize hwhole : c :: text ++ '}' :: rest = whole at h
  cases h with
  | nil => cases hwhole
  | occurrence occurs more =>
    rw [← hwhole] at occurs
    obtain ⟨hmark, rfl⟩ := occurs_key htext occurs
    exact .inl ⟨_, _, hmark, more, rfl⟩
  | copy absent more =>
    cases hwhole
    refine .inr ⟨fun name heq => ?_, _, more, rfl⟩
    by_contra hname
    refine absent name rest ⟨?_, hname, fun h => htext (heq ▸ List.mem_append_right _ h)⟩
    rw [← heq]
    rfl

section Unset
variable (hnull : ∀ name, envValue surroundings name = "null")
include hnull

theorem length_null (name : List Char) (more : List Char) :
    ((envValue surroundings (.ofList name)).toList ++ more).length = 4 + more.length := by
  rw [List.length_append, hnull]
  rfl

/-- Where every variable is unset, an occurrence makes a text shorter. -/
theorem length_of_replaces {text rest out : List Char} (htext : '}' ∉ text)
    (h : Replaces surroundings (text ++ '}' :: rest) out) :
    ∃ more, Replaces surroundings rest more ∧ out.length ≤ text.length + 1 + more.length ∧
      ((∃ before name, text = before ++ envMark ++ name ∧ name ≠ []) →
        out.length < text.length + 1 + more.length) := by
  induction text generalizing out with
  | nil =>
    cases h with
    | occurrence occurs =>
      cases (@occurs_key [] _ _ _ List.not_mem_nil occurs).1
    | @copy _ _ out _ more =>
      have hlength : ('}' :: out).length ≤ ([] : List Char).length + 1 + out.length := by
        rw [List.length_cons, List.length_nil]
        omega
      refine ⟨out, more, hlength, ?_⟩
      rintro ⟨before, name, heq, -⟩
      cases before with
      | nil => cases heq
      | cons => cases heq
  | cons c text ih =>
    obtain ⟨-, hinside⟩ := List.ne_and_not_mem_of_not_mem_cons htext
    rcases replaces_cases htext h with
      ⟨name, more, hmark, hmore, rfl⟩ | ⟨habsent, later, hlater, rfl⟩
    · have hlength := congrArg List.length hmark
      have hlong : envMark.length = 6 := rfl
      rw [List.length_append, hlong] at hlength
      have hshort : ((envValue surroundings (.ofList name)).toList ++ more).length <
          (c :: text).length + 1 + more.length := by
        rw [length_null hnull, hlength]
        omega
      exact ⟨more, hmore, hshort.le, fun _ => hshort⟩
    · obtain ⟨more, hmore, hle, hlt⟩ := ih hinside hlater
      refine ⟨more, hmore, by simp only [List.length_cons]; omega, ?_⟩
      rintro ⟨before, name, heq, hname⟩
      cases before with
      | nil => exact absurd (habsent name heq) hname
      | cons b before =>
        have hshort := hlt ⟨before, name, (List.cons.inj heq).2, hname⟩
        simp only [List.length_cons]
        omega

theorem length_of_placeholder {key rest out : List Char} (hkey : '}' ∉ key)
    (hnamed : key ≠ envLead)
    (h : Replaces surroundings ('$' :: '{' :: key ++ '}' :: rest) out) :
    ∃ more, Replaces surroundings rest more ∧
      out.length ≤ (expandSegment surroundings (.placeholder key)).length + more.length ∧
      (Nests key →
        out.length < (expandSegment surroundings (.placeholder key)).length + more.length) := by
  have hinside : '}' ∉ '$' :: '{' :: key := by simpa using hkey
  by_cases hlead : envLead <+: key
  · obtain ⟨name, rfl⟩ := hlead
    rcases replaces_cases hinside h with ⟨found, more, hmark, hmore, rfl⟩ | ⟨habsent, -⟩
    · have hvalue : (envValue surroundings (.ofList found)).toList.length =
          (expandSegment surroundings (.placeholder (envLead ++ name))).length := by
        rw [expandSegment_env, hnull, hnull]
      refine ⟨more, hmore, by rw [List.length_append, hvalue], fun hnests => ?_⟩
      exact absurd (List.prefix_append _ _) hnests.1
    · have hname : name = [] := habsent name rfl
      exact absurd (by rw [hname, List.append_nil]) hnamed
  · obtain ⟨more, hmore, hle, hlt⟩ := length_of_replaces hnull hinside h
    have hlength : (expandSegment surroundings (.placeholder key)).length =
        ('$' :: '{' :: key).length + 1 := by
      rw [expandSegment_other hlead]
      simp only [List.length_cons, List.length_append, List.length_nil]
    rw [hlength]
    refine ⟨more, hmore, hle, ?_⟩
    rintro ⟨-, before, name, rfl, hname⟩
    exact hlt ⟨'$' :: '{' :: before, name, rfl, hname⟩

theorem length_of_hidden {segments : List Segment} {text out : List Char}
    (hsegments : Segments segments text) (hnamed : emptyName ∉ segments)
    (h : Replaces surroundings text out) :
    out.length ≤ (segments.flatMap (expandSegment surroundings)).length ∧
      ∀ key, .placeholder key ∈ segments → Nests key →
        out.length < (segments.flatMap (expandSegment surroundings)).length := by
  induction hsegments generalizing out with
  | nil =>
    cases h with
    | nil => exact ⟨le_rfl, fun _ hmem => by cases hmem⟩
    | occurrence occurs => cases occurs.spelled
  | @char c rest segments plain _ ih =>
    cases h with
    | occurrence occurs => exact absurd occurs (not_occurs_plain plain)
    | copy _ more =>
      obtain ⟨hle, hlt⟩ := ih (fun h => hnamed (List.mem_cons_of_mem _ h)) more
      have hone : (expandSegment surroundings (.char c)).length = 1 := rfl
      rw [List.flatMap_cons, List.length_append, hone, List.length_cons]
      refine ⟨by omega, fun key hmem hnests => ?_⟩
      have hshort := hlt key (List.mem_of_ne_of_mem (fun h => by cases h) hmem) hnests
      omega
  | @placeholder key rest segments inside _ ih =>
    have hkey : key ≠ envLead := by
      rintro rfl
      exact hnamed List.mem_cons_self
    obtain ⟨more, hmore, hle, hlt⟩ := length_of_placeholder hnull inside hkey h
    obtain ⟨hmoreLe, hmoreLt⟩ := ih (fun h => hnamed (List.mem_cons_of_mem _ h)) hmore
    rw [List.flatMap_cons, List.length_append]
    refine ⟨by omega, fun hidden hmem hnests => ?_⟩
    rcases List.mem_cons.mp hmem with heq | hmem
    · cases heq
      have hshort := hlt hnests
      omega
    · have hshort := hmoreLt hidden hmem hnests
      omega

end Unset

/-! ## Text without placeholders of the environment -/

/-- Every placeholder of a text is closed. -/
def Closed (text : List Char) : Prop :=
  ∀ before after, text = before ++ '$' :: '{' :: after → '}' ∈ after

theorem exists_segments {text : List Char} (h : Closed text) :
    ∃ segments, Segments segments text := by
  induction hlength : text.length using Nat.strongRecOn generalizing text with
  | _ length ih =>
    cases text with
    | nil => exact ⟨[], .nil⟩
    | cons c rest =>
      by_cases hopen : ['$', '{'] <+: c :: rest
      · obtain ⟨rest, heq⟩ := hopen
        cases heq
        obtain ⟨key, rest, rfl, hkey⟩ := List.eq_append_cons_of_mem (h [] rest rfl)
        have hclosed : Closed rest := fun before after heq =>
          h ('$' :: '{' :: (key ++ '}' :: before)) after (by rw [heq]; simp)
        obtain ⟨segments, hsegments⟩ :=
          ih rest.length (hlength ▸ length_lt_placeholder key rest) hclosed rfl
        exact ⟨_, .placeholder hkey hsegments⟩
      · have hclosed : Closed rest :=
          fun before after heq => h (c :: before) after (by rw [heq]; rfl)
        obtain ⟨segments, hsegments⟩ :=
          ih rest.length (hlength ▸ Nat.lt_succ_self rest.length) hclosed rfl
        exact ⟨_, .char hopen hsegments⟩

theorem flatMap_of_unmarked {segments : List Segment} {text : List Char}
    (h : Segments segments text) (hmark : ¬ envMark <:+: text) :
    emptyName ∉ segments ∧ segments.flatMap (expandSegment surroundings) = text := by
  induction h with
  | nil => exact ⟨List.not_mem_nil, rfl⟩
  | @char c rest segments _ _ ih =>
    obtain ⟨hnamed, hrest⟩ := ih fun h => hmark (h.trans (List.suffix_cons c rest).isInfix)
    refine ⟨not_mem_cons_segments (fun h => by cases h) hnamed, ?_⟩
    rw [List.flatMap_cons, hrest]
    rfl
  | @placeholder key rest segments _ _ ih =>
    have hrest : rest <:+: '$' :: '{' :: (key ++ '}' :: rest) :=
      ⟨'$' :: '{' :: (key ++ ['}']), [], by simp⟩
    have hkey : ¬ envLead <+: key := by
      rintro ⟨name, rfl⟩
      exact hmark ⟨[], name ++ '}' :: rest, by simp [envMark]⟩
    obtain ⟨hnamed, htext⟩ := ih fun h => hmark (h.trans hrest)
    have hname : Segment.placeholder key ≠ emptyName := fun h =>
      hkey (Segment.placeholder.inj h ▸ List.prefix_rfl)
    refine ⟨not_mem_cons_segments hname hnamed, ?_⟩
    rw [List.flatMap_cons, htext, expandSegment_other hkey]
    simp

/-- An environment without variables. -/
def unset : Surroundings where
  envVar _ := .error "environment variable not found"
  readToString _ := .error "No such file or directory (os error 2)"

/-- The expansion replaces every occurrence in all surroundings exactly if no placeholder
hides one, and leaves text alone that has none. -/
theorem expansion_exact_iff (text : String) :
    ((∀ surroundings out, expandEnvVars surroundings text = .ok out →
      Replaces surroundings text.toList out.toList) ↔ ¬ HidesEnv text.toList) ∧
    (∀ surroundings, ¬ envMark <:+: text.toList → Closed text.toList →
      expandEnvVars surroundings text = .ok text) := by
  refine ⟨⟨?_, ?_⟩, ?_⟩
  · rintro h ⟨segments, key, hsegments, hnamed, hmem, hnests⟩
    have hscan : scanEnv unset none text.toList =
        .ok (segments.flatMap (expandSegment unset)) :=
      scanEnv_iff.mpr ⟨segments, hsegments, hnamed, rfl⟩
    have hreplaces := h unset (.ofList (segments.flatMap (expandSegment unset)))
      (by rw [expandEnvVars, hscan]; rfl)
    rw [String.toList_ofList] at hreplaces
    have hshort := (length_of_hidden (fun _ => rfl) hsegments hnamed hreplaces).2 key hmem hnests
    exact lt_irrefl _ hshort
  · intro hhidden surroundings out h
    obtain ⟨expanded, hscan, rfl⟩ := except_map_eq_ok h
    obtain ⟨segments, hsegments, hnamed, rfl⟩ := scanEnv_iff.mp hscan
    rw [String.toList_ofList]
    exact replaces_segments hsegments hnamed fun key hmem hnests =>
      hhidden ⟨segments, key, hsegments, hnamed, hmem, hnests⟩
  · intro surroundings hmark hclosed
    obtain ⟨segments, hsegments⟩ := exists_segments hclosed
    obtain ⟨hnamed, htext⟩ := @flatMap_of_unmarked surroundings _ _ hsegments hmark
    rw [expandEnvVars, scanEnv_iff.mpr ⟨segments, hsegments, hnamed, htext.symm⟩]
    exact congrArg Except.ok String.ofList_toList

/-- The placeholder of the environment inside another one is kept. -/
theorem nested_env_kept : expandEnvVars unset "${q ${env:X}}" = .ok "${q ${env:X}}" ∧
    ¬ Replaces unset "${q ${env:X}}".toList "${q ${env:X}}".toList := by
  have hsegments : Segments
      [.placeholder ['q', ' ', '$', '{', 'e', 'n', 'v', ':', 'X'], .char '}']
      "${q ${env:X}}".toList :=
    .placeholder (by decide) (.char (by decide) .nil)
  have hnests : Nests ['q', ' ', '$', '{', 'e', 'n', 'v', ':', 'X'] :=
    ⟨by decide, ['q', ' '], ['X'], rfl, List.cons_ne_nil _ _⟩
  have hnamed : emptyName ∉
      [Segment.placeholder ['q', ' ', '$', '{', 'e', 'n', 'v', ':', 'X'], .char '}'] := by
    simp [emptyName, envLead]
  refine ⟨rfl, fun h => ?_⟩
  have hshort := (length_of_hidden (fun _ => rfl) hsegments hnamed h).2 _ List.mem_cons_self hnests
  exact lt_irrefl _ hshort

end RustMcpCore.Loader
