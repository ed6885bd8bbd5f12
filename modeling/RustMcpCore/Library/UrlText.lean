import Mathlib.Data.List.Forall2
import RustMcpCore.Library.Scanning

/-! # The parts of a URL

Texts of `http` and `https` URLs, read as the WHATWG URL grammar reads them. A text is a list of
symbols that write one character each, or stand for a text that is not known yet and counts as
an ordinary character.
-/
namespace RustMcpCore.Library.UrlText

/-- The C0 controls and the space, dropped at both ends. -/
def isTrimmed (c : Char) : Bool := c.toNat ≤ 0x20

/-- Tabs and line ends, dropped everywhere. -/
def isDropped (c : Char) : Bool := c = '\t' || c = '\n' || c = '\r'

/-- Special URLs are also separated by the backslash. -/
def isSlash (c : Char) : Bool := c = '/' || c = '\\'

def endsPath (c : Char) : Bool := c = '?' || c = '#'

def endsAuthority (c : Char) : Bool := isSlash c || endsPath c

theorem isTrimmed_of_isDropped {c : Char} (h : isDropped c = true) : isTrimmed c = true := by
  rw [isDropped, Bool.or_eq_true, Bool.or_eq_true, decide_eq_true_eq, decide_eq_true_eq,
    decide_eq_true_eq] at h
  rcases h with (rfl | rfl) | rfl
  · rfl
  · rfl
  · rfl

theorem not_isTrimmed_of_endsAuthority {c : Char} (h : endsAuthority c = true) :
    isTrimmed c = false := by
  simp only [endsAuthority, isSlash, endsPath, Bool.or_eq_true, decide_eq_true_eq] at h
  rcases h with (rfl | rfl) | rfl | rfl
  · rfl
  · rfl
  · rfl
  · rfl

theorem endsAuthority_of_isSlash {c : Char} (h : isSlash c = true) : endsAuthority c = true := by
  rw [endsAuthority, h, Bool.true_or]

theorem not_isDropped_of_endsAuthority {c : Char} (h : endsAuthority c = true) :
    isDropped c = false := by
  refine Bool.eq_false_iff.mpr fun hdropped => ?_
  have htrimmed := isTrimmed_of_isDropped hdropped
  rw [not_isTrimmed_of_endsAuthority h] at htrimmed
  cases htrimmed

/-- The parts of the text, with the segments of the path as they are written. -/
structure Target (A : Type) where
  scheme : List Char
  authority : List A
  written : List (List A)
  query : Option (List A)
  fragment : Option (List A)

variable {A : Type} (view : A → Option Char)

/-- The symbol writes such a character. -/
def Is (p : Char → Bool) (a : A) : Bool := (view a).any p

def clean (text : List A) : List A :=
  ((text.dropWhile (Is view isTrimmed)).rdropWhile (Is view isTrimmed)).filter
    fun a => !Is view isDropped a

/-! ## The reader -/

def isHttp (scheme : List Char) : Bool := scheme = "http".toList || scheme = "https".toList

/-- The query state and the fragment state, from the mark on. -/
def readEnding : List A → Option (List A) × Option (List A)
  | [] => (none, none)
  | mark :: rest =>
    if Is view (· = '#') mark then (none, some rest)
    else
      let query := rest.takeWhile fun a => !Is view (· = '#') a
      match rest.dropWhile fun a => !Is view (· = '#') a with
      | [] => (some query, none)
      | _ :: fragment => (some query, some fragment)

/-- The path start state and the path state, and what follows. -/
def readPath (scheme : List Char) (authority rest : List A) : Target A :=
  let path := rest.takeWhile fun a => !Is view endsPath a
  let (query, fragment) := readEnding view (rest.dropWhile fun a => !Is view endsPath a)
  { scheme, authority, written := (path.drop 1).splitOnP (Is view isSlash), query, fragment }

/-- The states from the scheme to the authority. All slashes before the authority are ignored. -/
def read (text : List A) : Option (Target A) :=
  let text := clean view text
  match (text.takeWhile fun a => !Is view (· = ':') a).mapM view,
      text.dropWhile fun a => !Is view (· = ':') a with
  | some lead, _ :: rest =>
    let scheme := lead.map Text.asciiLower
    let rest := rest.dropWhile (Is view isSlash)
    let authority := rest.takeWhile fun a => !Is view endsAuthority a
    if isHttp scheme && !authority.isEmpty then
      some (readPath view scheme authority (rest.dropWhile fun a => !Is view endsAuthority a))
    else none
  | _, _ => none

/-! ## The grammar -/

/-- Segments with one separator between each two. -/
inductive Joined (sep : A → Bool) : List A → List (List A) → Prop
  | last {segment : List A} (plain : ∀ a ∈ segment, sep a = false) : Joined sep segment [segment]
  | cons {segment text : List A} {slash : A} {rest : List (List A)}
      (plain : ∀ a ∈ segment, sep a = false) (separates : sep slash = true)
      (joined : Joined sep text rest) : Joined sep (segment ++ slash :: text) (segment :: rest)

/-- A path begins with a separator, if it has any text. -/
inductive Path : List A → List (List A) → Prop
  | empty : Path [] [[]]
  | slash {slash : A} {text : List A} {written : List (List A)}
      (begins : Is view isSlash slash = true) (joined : Joined (Is view isSlash) text written) :
      Path (slash :: text) written

inductive Ending : List A → Option (List A) → Option (List A) → Prop
  | none : Ending [] none none
  | fragment {mark : A} {text : List A} (marks : view mark = some '#') :
      Ending (mark :: text) none (some text)
  | query {mark : A} {query : List A} (marks : view mark = some '?')
      (plain : ∀ a ∈ query, Is view (· = '#') a = false) : Ending (mark :: query) (some query) none
  | both {mark hash : A} {query text : List A} (marks : view mark = some '?')
      (plain : ∀ a ∈ query, Is view (· = '#') a = false) (hashes : view hash = some '#') :
      Ending (mark :: (query ++ hash :: text)) (some query) (some text)

/-- A text with nothing to drop, and the parts it writes. -/
inductive Writes : List A → Target A → Prop
  | mk {lead slashes authority path ending : List A} {colon : A} {scheme : List Char}
      {written : List (List A)} {query fragment : Option (List A)}
      (names : lead.mapM view = some scheme) (http : isHttp (scheme.map Text.asciiLower) = true)
      (plain : ∀ a ∈ lead, Is view (· = ':') a = false) (colons : view colon = some ':')
      (ignored : ∀ a ∈ slashes, Is view isSlash a = true)
      (host : ∀ a ∈ authority, Is view endsAuthority a = false) (named : authority ≠ [])
      (before : ∀ a ∈ path, Is view endsPath a = false) (follows : Path view path written)
      (ends : Ending view ending query fragment) :
      Writes (lead ++ colon :: (slashes ++ (authority ++ (path ++ ending))))
        ⟨scheme.map Text.asciiLower, authority, written, query, fragment⟩

/-! ### What is read is what is written -/

section Spans
variable {p : A → Bool} {first rest : List A}
  (hfirst : ∀ a ∈ first, p a = true) (hrest : ∀ a ∈ rest.head?, p a = false)
include hfirst hrest

theorem takeWhile_span : (first ++ rest).takeWhile p = first := by
  rw [List.takeWhile_append_of_pos hfirst]
  cases rest with
  | nil => rw [List.takeWhile_nil, List.append_nil]
  | cons a rest =>
    rw [List.takeWhile_cons_of_neg (Bool.eq_false_iff.mp (hrest a rfl)), List.append_nil]

theorem dropWhile_span : (first ++ rest).dropWhile p = rest := by
  rw [List.dropWhile_append_of_pos hfirst]
  exact Text.dropWhile_of_head hrest

end Spans

/-- What is dropped comes after what is taken, and the first symbol of it stops the taking. -/
theorem exists_span (p : A → Bool) (text : List A) : ∃ first rest, text = first ++ rest ∧
    text.takeWhile p = first ∧ text.dropWhile p = rest ∧ (∀ a ∈ first, p a = true) ∧
      ∀ a ∈ rest.head?, p a = false := by
  refine ⟨_, _, List.takeWhile_append_dropWhile.symm, rfl, rfl, ?_, ?_⟩
  · exact fun a ha => List.all_eq_true.mp List.all_takeWhile a ha
  · intro a ha
    have hstop := List.head?_dropWhile_not p text
    rw [Option.mem_def.mp ha] at hstop
    exact hstop

/-- Reading up to a mark. -/
theorem exists_mark (p : A → Bool) (text : List A) : ∃ first rest, text = first ++ rest ∧
    (text.takeWhile fun a => !p a) = first ∧ (text.dropWhile fun a => !p a) = rest ∧
      (∀ a ∈ first, p a = false) ∧ ∀ a ∈ rest.head?, p a = true := by
  obtain ⟨first, rest, htext, htake, hdrop, hfirst, hrest⟩ := exists_span (fun a => !p a) text
  refine ⟨first, rest, htext, htake, hdrop, fun a ha => ?_, fun a ha => ?_⟩
  · exact (Bool.not_eq_true' _).mp (hfirst a ha)
  · exact (Bool.not_eq_false' _).mp (hrest a ha)

section Marks
variable {p : A → Bool} {first rest : List A}
  (hfirst : ∀ a ∈ first, p a = false) (hrest : ∀ a ∈ rest.head?, p a = true)
include hfirst hrest

theorem takeWhile_mark : ((first ++ rest).takeWhile fun a => !p a) = first :=
  takeWhile_span (fun a ha => (Bool.not_eq_true' _).mpr (hfirst a ha))
    fun a ha => (Bool.not_eq_false' _).mpr (hrest a ha)

theorem dropWhile_mark : ((first ++ rest).dropWhile fun a => !p a) = rest :=
  dropWhile_span (fun a ha => (Bool.not_eq_true' _).mpr (hfirst a ha))
    fun a ha => (Bool.not_eq_false' _).mpr (hrest a ha)

end Marks

theorem joined_splitOnP (sep : A → Bool) (text : List A) :
    Joined sep text (text.splitOnP sep) := by
  induction text with
  | nil => exact .last (List.forall_mem_nil _)
  | cons a text ih =>
    rw [List.splitOnP_cons_eq_if_modifyHead]
    split
    · rename_i ha
      exact .cons (List.forall_mem_nil _) ha ih
    · rename_i ha
      generalize text.splitOnP sep = segments at ih
      cases ih with
      | last hplain =>
        exact .last (List.forall_mem_cons.mpr ⟨Bool.eq_false_iff.mpr ha, hplain⟩)
      | cons hplain hsep hjoined =>
        exact .cons (List.forall_mem_cons.mpr ⟨Bool.eq_false_iff.mpr ha, hplain⟩) hsep hjoined

theorem joined_iff {sep : A → Bool} {text : List A} {segments : List (List A)} :
    Joined sep text segments ↔ text.splitOnP sep = segments := by
  constructor
  · intro h
    induction h with
    | last hplain => exact List.splitOnP_eq_singleton hplain
    | cons hplain hsep _ ih => rw [List.splitOnP_append_cons_of_forall_mem hplain _ hsep, ih]
  · rintro rfl
    exact joined_splitOnP sep text

section Read
variable {view}

theorem is_eq_true_iff {p : Char → Bool} {a : A} :
    Is view p a = true ↔ ∃ c, view a = some c ∧ p c = true := by
  unfold Is
  rw [Option.any_eq_true]

theorem is_char_iff {c : Char} {a : A} : Is view (· = c) a = true ↔ view a = some c := by
  rw [is_eq_true_iff]
  constructor
  · rintro ⟨d, hd, h⟩
    rw [hd, of_decide_eq_true h]
  · exact fun h => ⟨c, h, decide_eq_true rfl⟩

theorem is_endsAuthority (a : A) :
    Is view endsAuthority a = (Is view isSlash a || Is view endsPath a) := by
  unfold Is
  cases view a with
  | none => rfl
  | some c => rfl

theorem endsPath_iff {a : A} :
    Is view endsPath a = true ↔ view a = some '?' ∨ view a = some '#' := by
  rw [is_eq_true_iff]
  constructor
  · rintro ⟨c, hc, h⟩
    rw [endsPath, Bool.or_eq_true, decide_eq_true_eq, decide_eq_true_eq] at h
    rcases h with rfl | rfl
    · exact .inl hc
    · exact .inr hc
  · rintro (h | h)
    · exact ⟨_, h, rfl⟩
    · exact ⟨_, h, rfl⟩

theorem readEnding_of_ending {text : List A} {query fragment : Option (List A)}
    (h : Ending view text query fragment) : readEnding view text = (query, fragment) := by
  have hquery : ∀ {mark : A}, view mark = some '?' → ¬ Is view (· = '#') mark = true := by
    intro mark hmark hhash
    cases hmark.symm.trans (is_char_iff.mp hhash)
  cases h with
  | none => rfl
  | fragment hmark => exact if_pos (is_char_iff.mpr hmark)
  | query hmark hplain =>
    have hstop : ∀ a ∈ ([] : List A).head?, Is view (· = '#') a = true := fun a ha => by cases ha
    have htake := takeWhile_mark hplain hstop
    have hdrop := dropWhile_mark hplain hstop
    rw [List.append_nil] at htake hdrop
    unfold readEnding
    simp only [if_neg (hquery hmark), htake, hdrop]
  | both hmark hplain hhash =>
    have hstop : ∀ {hash : A} {text : List A}, view hash = some '#' →
        ∀ a ∈ (hash :: text).head?, Is view (· = '#') a = true := by
      rintro hash text hhash a ⟨⟩
      exact is_char_iff.mpr hhash
    unfold readEnding
    simp only [if_neg (hquery hmark), takeWhile_mark hplain (hstop hhash),
      dropWhile_mark hplain (hstop hhash)]

theorem ending_readEnding {text : List A} (hbegins : ∀ a ∈ text.head?, Is view endsPath a = true)
    {query fragment : Option (List A)} (h : readEnding view text = (query, fragment)) :
    Ending view text query fragment := by
  cases text with
  | nil =>
    cases h
    exact .none
  | cons mark rest =>
    unfold readEnding at h
    simp only at h
    split at h
    · rename_i hhash
      cases h
      exact .fragment (is_char_iff.mp hhash)
    · rename_i hhash
      have hmark := (endsPath_iff.mp (hbegins mark rfl)).resolve_right (mt is_char_iff.mpr hhash)
      obtain ⟨first, after, rfl, htake, hdrop, hfirst, hafter⟩ :=
        exists_mark (Is view (· = '#')) rest
      rw [htake, hdrop] at h
      cases after with
      | nil =>
        cases h
        rw [List.append_nil]
        exact .query hmark hfirst
      | cons hash after =>
        cases h
        exact .both hmark hfirst (is_char_iff.mp (hafter hash rfl))

theorem writes_of_read {text : List A} {target : Target A} (h : read view text = some target) :
    Writes view (clean view text) target := by
  obtain ⟨lead, rest, htext, htake, hdrop, hlead, hcolon⟩ :=
    exists_mark (Is view (· = ':')) (clean view text)
  unfold read at h
  rw [htext]
  simp only [htake, hdrop] at h
  split at h
  · rename_i scheme colon after hscheme
    split at h
    · rename_i hnamed
      rw [Bool.and_eq_true, Bool.not_eq_true', List.isEmpty_eq_false_iff] at hnamed
      obtain ⟨slashes, after', rfl, -, hafter, hslashes, -⟩ := exists_span (Is view isSlash) after
      rw [hafter] at h hnamed
      obtain ⟨authority, tail, rfl, hhost, hpath, hauthority, hends⟩ :=
        exists_mark (Is view endsAuthority) after'
      rw [hhost, hpath] at h
      rw [hhost] at hnamed
      obtain ⟨path, ending, rfl, hwritten, hending, hplain, hbegins⟩ :=
        exists_mark (Is view endsPath) tail
      unfold readPath at h
      rw [hwritten, hending] at h
      cases h
      have hcolons := is_char_iff.mp (hcolon colon rfl)
      have hfollows : Path view path ((path.drop 1).splitOnP (Is view isSlash)) := by
        cases path with
        | nil => exact .empty
        | cons slash path =>
          have hslash := hends slash rfl
          rw [is_endsAuthority, hplain slash List.mem_cons_self, Bool.or_false] at hslash
          exact .slash hslash (joined_splitOnP _ path)
      exact .mk hscheme hnamed.1 hlead hcolons hslashes hauthority hnamed.2 hplain hfollows
        (ending_readEnding hbegins rfl)
    · cases h
  · cases h

theorem Ending.begins {text : List A} {query fragment : Option (List A)}
    (h : Ending view text query fragment) : ∀ a ∈ text.head?, Is view endsPath a = true := by
  intro a ha
  cases h with
  | none => cases ha
  | fragment hmark =>
    cases ha
    exact endsPath_iff.mpr (.inr hmark)
  | query hmark _ =>
    cases ha
    exact endsPath_iff.mpr (.inl hmark)
  | both hmark _ _ =>
    cases ha
    exact endsPath_iff.mpr (.inl hmark)

theorem Path.begins {text : List A} {written : List (List A)} (h : Path view text written) :
    ∀ a ∈ text.head?, Is view isSlash a = true := by
  intro a ha
  cases h with
  | empty => cases ha
  | slash hslash _ =>
    cases ha
    exact hslash

theorem Path.splitOnP {text : List A} {written : List (List A)} (h : Path view text written) :
    (text.drop 1).splitOnP (Is view isSlash) = written := by
  cases h with
  | empty => rfl
  | slash _ hjoined => exact joined_iff.mp hjoined

theorem read_of_writes {text : List A} {target : Target A} (h : Writes view (clean view text) target) :
    read view text = some target := by
  unfold read
  generalize clean view text = text at h
  cases h with
  | @mk lead slashes authority path ending colon scheme written query fragment hnames hhttp hplain
      hcolons hignored hhost hnamed hbefore hfollows hends =>
    have hcolon : ∀ a ∈ (colon :: (slashes ++ (authority ++ (path ++ ending)))).head?,
        Is view (· = ':') a = true := by
      rintro a ⟨⟩
      exact is_char_iff.mpr hcolons
    have hafter : ∀ a ∈ (path ++ ending).head?, Is view endsAuthority a = true := by
      intro a ha
      rw [List.head?_append, Option.mem_def, Option.or_eq_some_iff] at ha
      rw [is_endsAuthority, Bool.or_eq_true]
      rcases ha with ha | ⟨-, ha⟩
      · exact .inl (hfollows.begins a ha)
      · exact .inr (hends.begins a ha)
    have hslashes : ∀ a ∈ (authority ++ (path ++ ending)).head?, Is view isSlash a = false := by
      intro a ha
      obtain ⟨first, rest, rfl⟩ := List.exists_cons_of_ne_nil hnamed
      cases ha
      have hfirst := hhost _ List.mem_cons_self
      rw [is_endsAuthority, Bool.or_eq_false_iff] at hfirst
      exact hfirst.1
    have hempty : authority.isEmpty = false := List.isEmpty_eq_false_iff.mpr hnamed
    simp only [takeWhile_mark hplain hcolon, dropWhile_mark hplain hcolon, hnames,
      dropWhile_span hignored hslashes, takeWhile_mark hhost hafter, dropWhile_mark hhost hafter,
      hhttp, hempty, readPath, takeWhile_mark hbefore hends.begins,
      dropWhile_mark hbefore hends.begins, readEnding_of_ending hends, hfollows.splitOnP]
    rfl

/-- The reader finds the parts that the text writes. -/
theorem read_eq_some_iff {text : List A} {target : Target A} :
    read view text = some target ↔ Writes view (clean view text) target :=
  ⟨writes_of_read, read_of_writes⟩

end Read

/-! ## Longer texts

What comes after the authority has no say in which server a text names.
-/

section Longer
variable {view} {front slashes rest : List A} {slash : A} {root : Target A}

theorem not_isTrimmed_of_slash (h : Is view isSlash slash = true) :
    Is view isTrimmed slash = false := by
  obtain ⟨c, hc, hslash⟩ := is_eq_true_iff.mp h
  rw [Is, hc]
  exact not_isTrimmed_of_endsAuthority (endsAuthority_of_isSlash hslash)

theorem not_isDropped_of_slash (h : Is view isSlash slash = true) :
    Is view isDropped slash = false := by
  obtain ⟨c, hc, hslash⟩ := is_eq_true_iff.mp h
  rw [Is, hc]
  exact not_isDropped_of_endsAuthority (endsAuthority_of_isSlash hslash)

theorem dropWhile_append_kept {p : A → Bool} (h : ∀ a ∈ rest.head?, p a = false) :
    (front ++ rest).dropWhile p = front.dropWhile p ++ rest := by
  rw [List.dropWhile_append]
  split
  · rename_i hempty
    rw [List.isEmpty_iff.mp hempty, Text.dropWhile_of_head h]
    rfl
  · rfl

/-- What is in front of a slash is cleaned for itself. -/
theorem clean_append_slash (hslash : Is view isSlash slash = true) :
    ∃ more, clean view (front ++ slash :: rest) =
      (front.dropWhile (Is view isTrimmed)).filter (fun a => !Is view isDropped a) ++
        slash :: more := by
  have hkept : ∀ a ∈ (slash :: rest).head?, Is view isTrimmed a = false := by
    rintro a ⟨⟩
    exact not_isTrimmed_of_slash hslash
  unfold clean
  rw [dropWhile_append_kept hkept, Text.rdropWhile_append_cons (not_isTrimmed_of_slash hslash),
    List.filter_append, List.filter_cons, not_isDropped_of_slash hslash]
  exact ⟨_, rfl⟩

theorem clean_append_slashes (hslashes : ∀ a ∈ slashes, Is view isSlash a = true)
    (hlast : ∀ a ∈ (front ++ slashes).getLast?, Is view isTrimmed a = false) :
    clean view (front ++ slashes) =
      (front.dropWhile (Is view isTrimmed)).filter (fun a => !Is view isDropped a) ++ slashes := by
  have hkept : ∀ a ∈ slashes.head?, Is view isTrimmed a = false := fun a ha =>
    not_isTrimmed_of_slash (hslashes a (List.mem_of_mem_head? ha))
  have hends : ((front ++ slashes).dropWhile (Is view isTrimmed)).rdropWhile (Is view isTrimmed) =
      (front ++ slashes).dropWhile (Is view isTrimmed) := by
    refine List.rdropWhile_eq_self_iff.mpr fun hnonempty => ?_
    have hsuffix := List.dropWhile_suffix (l := front ++ slashes) (Is view isTrimmed)
    rw [hsuffix.getLast hnonempty, Bool.not_eq_true]
    exact hlast _ (List.getLast?_eq_some_getLast _)
  have hslashed : slashes.filter (fun a => !Is view isDropped a) = slashes := by
    refine List.filter_eq_self.mpr fun a ha => ?_
    rw [not_isDropped_of_slash (hslashes a ha), Bool.not_false]
  unfold clean
  rw [hends, dropWhile_append_kept hkept, List.filter_append, hslashed]

theorem path_of_begins {path : List A} (h : ∀ a ∈ path.head?, Is view isSlash a = true) :
    Path view path ((path.drop 1).splitOnP (Is view isSlash)) := by
  cases path with
  | nil => exact .empty
  | cons slash path => exact .slash (h slash rfl) (joined_splitOnP _ path)

/-- The authority ends before the slashes that the text ends in. -/
theorem authority_in_front {lead authority after : List A}
    (h : front ++ slashes = lead ++ authority ++ after) (hnamed : authority ≠ [])
    (hslashes : ∀ a ∈ slashes, Is view isSlash a = true)
    (hhost : ∀ a ∈ authority, Is view endsAuthority a = false) :
    ∃ tail, front = lead ++ authority ++ tail ∧ tail <+: after := by
  rcases List.append_eq_append_iff.mp h with ⟨excess, hexcess, hrest⟩ | ⟨tail, hfront, hrest⟩
  · rcases List.eq_nil_or_concat excess with rfl | ⟨init, last, rfl⟩
    · refine ⟨[], ?_, List.nil_prefix⟩
      rw [hexcess, List.append_nil, List.append_nil]
    · have hlast : authority.getLast? = some last := by
        have hlasts := congrArg List.getLast? hexcess
        rw [List.concat_eq_append, ← List.append_assoc, List.getLast?_concat, List.getLast?_append,
          List.getLast?_eq_some_getLast hnamed, Option.some_or] at hlasts
        rw [List.getLast?_eq_some_getLast hnamed, hlasts]
      have hends := hslashes last (by
        rw [hrest, List.concat_eq_append]
        exact List.mem_append_left _ List.mem_concat_self)
      have hplain := hhost last (List.mem_of_getLast? hlast)
      rw [is_endsAuthority, hends, Bool.true_or] at hplain
      cases hplain
  · exact ⟨tail, hfront, _, hrest.symm⟩

theorem Writes.longer (h : Writes view (front ++ slashes) root)
    (hslashes : ∀ a ∈ slashes, Is view isSlash a = true) (hslash : Is view isSlash slash = true)
    (rest : List A) :
    ∃ target, Writes view (front ++ slash :: rest) target ∧ target.scheme = root.scheme ∧
      target.authority = root.authority := by
  generalize htext : front ++ slashes = text at h
  cases h with
  | @mk lead ignored authority path ending colon scheme written query fragment hnames hhttp hplain
      hcolons hignored hhost hnamed hbefore hfollows hends =>
    have hsplit : front ++ slashes =
        (lead ++ colon :: ignored) ++ authority ++ (path ++ ending) := by
      rw [htext]
      simp only [List.append_assoc, List.cons_append]
    obtain ⟨tail, hfront, after, htail⟩ := authority_in_front hsplit hnamed hslashes hhost
    have hmark : ∀ a ∈ (tail ++ slash :: rest).head?, Is view endsAuthority a = true := by
      intro a ha
      rw [is_endsAuthority, Bool.or_eq_true]
      cases tail with
      | nil =>
        cases ha
        exact .inl hslash
      | cons b tail =>
        have hfirst : a ∈ (path ++ ending).head? := by
          rw [← htail]
          exact ha
        rw [List.head?_append, Option.mem_def, Option.or_eq_some_iff] at hfirst
        rcases hfirst with hfirst | ⟨-, hfirst⟩
        · exact .inl (hfollows.begins a hfirst)
        · exact .inr (hends.begins a hfirst)
    obtain ⟨path', ending', hrest, -, -, hplain', hbegins⟩ :=
      exists_mark (Is view endsPath) (tail ++ slash :: rest)
    rw [hrest] at hmark
    have hslashed : ∀ a ∈ path'.head?, Is view isSlash a = true := by
      intro a ha
      have hfirst := hmark a (List.mem_head?_append_of_mem_head? ha)
      rw [is_endsAuthority, hplain' a (List.mem_of_mem_head? ha), Bool.or_false] at hfirst
      exact hfirst
    have htext' : front ++ slash :: rest =
        lead ++ colon :: (ignored ++ (authority ++ (path' ++ ending'))) := by
      rw [hfront, List.append_assoc, hrest]
      simp only [List.append_assoc, List.cons_append]
    rw [htext']
    exact ⟨_, .mk hnames hhttp hplain hcolons hignored hhost hnamed hplain' (path_of_begins hslashed)
      (ending_readEnding hbegins rfl), rfl, rfl⟩

/-- A text that leads to a server leads there with any path put after it. -/
theorem exists_read_longer (hread : read view (front ++ slashes) = some root)
    (hslashes : ∀ a ∈ slashes, Is view isSlash a = true) (hslash : Is view isSlash slash = true)
    (hlast : ∀ a ∈ (front ++ slashes).getLast?, Is view isTrimmed a = false) (rest : List A) :
    ∃ target, read view (front ++ slash :: rest) = some target ∧ target.scheme = root.scheme ∧
      target.authority = root.authority := by
  have hroot := writes_of_read hread
  rw [clean_append_slashes hslashes hlast] at hroot
  obtain ⟨more, hmore⟩ := @clean_append_slash A view front rest slash hslash
  obtain ⟨target, htarget, hsame⟩ := hroot.longer hslashes hslash more
  rw [← hmore] at htarget
  exact ⟨target, read_of_writes htarget, hsame⟩

end Longer

/-! ## Dot segments -/

inductive Dots
  | none
  | single
  | double
  deriving DecidableEq

/-- Dots may be percent-encoded. -/
def dotsOf (segment : List A) : Dots :=
  match (segment.mapM view).map (List.map Text.asciiLower) with
  | some text =>
    if text ∈ [['.'], ['%', '2', 'e']] then .single
    else if text ∈ [['.', '.'], ['.', '%', '2', 'e'], ['%', '2', 'e', '.'],
        ['%', '2', 'e', '%', '2', 'e']] then .double
    else .none
  | none => .none

/-- The segments that are left of a path when its dot segments are resolved, after `path`. -/
def resolve {S : Type} (dots : S → Dots) (blank : S) : List S → List S → List S
  | path, [] => path
  | path, [last] =>
    match dots last with
    | .none => path ++ [last]
    | .single => path ++ [blank]
    | .double => path.dropLast ++ [blank]
  | path, segment :: next :: rest =>
    match dots segment with
    | .none => resolve dots blank (path ++ [segment]) (next :: rest)
    | .single => resolve dots blank path (next :: rest)
    | .double => resolve dots blank path.dropLast (next :: rest)

def Target.path (target : Target A) : List (List A) := resolve (dotsOf view) [] [] target.written

/-- How many segments are left when `depth` stand before them. -/
def leftOver : ℕ → List Dots → ℕ
  | depth, [] => depth
  | depth, [.double] => depth - 1 + 1
  | depth, [_] => depth + 1
  | depth, .none :: next :: rest => leftOver (depth + 1) (next :: rest)
  | depth, .single :: next :: rest => leftOver depth (next :: rest)
  | depth, .double :: next :: rest => leftOver (depth - 1) (next :: rest)

theorem length_resolve {S : Type} {dots : S → Dots} {blank : S} {path segments : List S} :
    (resolve dots blank path segments).length = leftOver path.length (segments.map dots) := by
  induction segments generalizing path with
  | nil => rfl
  | cons segment rest ih =>
    cases rest with
    | nil =>
      rw [resolve, List.map_singleton]
      cases dots segment with
      | none => exact List.length_append
      | single => exact List.length_append
      | double =>
        rw [leftOver, List.length_append, List.length_dropLast]
        rfl
    | cons next rest =>
      rw [resolve, List.map_cons]
      cases dots segment with
      | none =>
        rw [ih, List.length_append]
        rfl
      | single => exact ih
      | double =>
        rw [ih, List.length_dropLast]
        rfl

theorem leftOver_le (depth : ℕ) (dots : List Dots) : leftOver depth dots ≤ depth + dots.length := by
  induction dots generalizing depth with
  | nil => exact le_refl _
  | cons dot rest ih =>
    cases rest with
    | nil =>
      cases dot with
      | none => exact le_refl _
      | single => exact le_refl _
      | double => exact Nat.add_le_add_right (Nat.sub_le depth 1) 1
    | cons next rest =>
      rw [List.length_cons]
      cases dot with
      | none =>
        have h := ih (depth + 1)
        rw [leftOver]
        omega
      | single =>
        have h := ih depth
        rw [leftOver]
        omega
      | double =>
        have h := ih (depth - 1)
        rw [leftOver]
        omega

/-- All segments are left exactly if no dots stand before the last one, and a last `..` finds
nothing to take away. -/
theorem leftOver_eq_iff {depth : ℕ} {dots : List Dots} :
    leftOver depth dots = depth + dots.length ↔
      (∀ dot ∈ dots.dropLast, dot = .none) ∧
        (dots.getLast? = some .double → depth + dots.length = 1) := by
  induction dots generalizing depth with
  | nil => exact iff_of_true rfl ⟨List.forall_mem_nil _, fun h => by cases h⟩
  | cons dot rest ih =>
    cases rest with
    | nil =>
      rw [List.dropLast_singleton, and_iff_right (List.forall_mem_nil _)]
      cases dot with
      | none => exact iff_of_true rfl fun h => by cases h
      | single => exact iff_of_true rfl fun h => by cases h
      | double =>
        rw [leftOver, List.length_singleton]
        simp only [List.getLast?_singleton, forall_const]
        omega
    | cons next rest =>
      rw [List.dropLast_cons_cons, List.forall_mem_cons, List.getLast?_cons_cons,
        List.length_cons]
      cases dot with
      | none =>
        rw [leftOver, and_iff_right rfl, ← Nat.add_assoc, Nat.add_right_comm]
        exact ih
      | single =>
        refine iff_of_false (fun h => ?_) fun h => Dots.noConfusion h.1.1
        have hle := leftOver_le depth (next :: rest)
        rw [leftOver] at h
        omega
      | double =>
        refine iff_of_false (fun h => ?_) fun h => Dots.noConfusion h.1.1
        have hle := leftOver_le (depth - 1) (next :: rest)
        rw [leftOver] at h
        omega

section Compare
variable {S T : Type} {Fits : S → T → Prop} {path : List S} {left : List T}

/-- Fewer segments are left, or the same ones. -/
def Behind (Fits : S → T → Prop) (path : List S) (left : List T) : Prop :=
  left.length < path.length ∨ List.Forall₂ Fits path left

theorem Behind.length_le (h : Behind Fits path left) : left.length ≤ path.length := by
  rcases h with h | h
  · exact h.le
  · exact h.length_eq.ge

theorem Behind.forall₂_iff (h : Behind Fits path left) :
    List.Forall₂ Fits path left ↔ left.length = path.length := by
  refine ⟨fun hfits => hfits.length_eq.symm, fun hlength => h.resolve_left ?_⟩
  exact hlength.not_lt

theorem Behind.concat (h : Behind Fits path left) {s : S} {t : T} (hfits : Fits s t) :
    Behind Fits (path ++ [s]) (left ++ [t]) := by
  rcases h with h | h
  · refine .inl ?_
    rw [List.length_append, List.length_append]
    exact Nat.add_lt_add_right h 1
  · exact .inr (List.rel_append h (.cons hfits .nil))

theorem Behind.dropLast (h : Behind Fits path left) : Behind Fits path.dropLast left.dropLast := by
  rcases h with h | h
  · cases left with
    | nil =>
      rcases Nat.eq_zero_or_pos path.dropLast.length with hnil | hpos
      · rw [List.length_eq_zero_iff.mp hnil]
        exact .inr .nil
      · exact .inl hpos
    | cons t left =>
      refine .inl ?_
      rw [List.length_dropLast, List.length_dropLast]
      exact Nat.sub_lt_sub_right (Nat.succ_pos _) h
  · rw [List.dropLast_eq_take, List.dropLast_eq_take, h.length_eq]
    exact .inr (List.forall₂_take _ h)

/-- A segment that one path keeps and the other does not, with what the other drops. -/
theorem Behind.concat_left {kept : List T} (h : Behind Fits path left)
    (hkept : kept.length ≤ left.length) (s : S) : Behind Fits (path ++ [s]) kept := by
  refine .inl ?_
  rw [List.length_append]
  exact Nat.lt_succ_of_le (hkept.trans h.length_le)

/-- As long as dots stay dots, a path with more of them keeps fewer segments or the same. -/
theorem resolve_behind {first : S → Dots} {second : T → Dots} {f : S → T} {empty : S} {blank : T}
    {segments : List S} (hdots : ∀ s ∈ segments, first s ≠ .none → second (f s) = first s)
    (hfits : ∀ s ∈ segments, Fits s (f s)) (hempty : Fits empty blank)
    (hblank : ∀ s ∈ segments, second (f s) ≠ .none → Fits s blank) (h : Behind Fits path left) :
    Behind Fits (resolve first empty path segments)
      (resolve second blank left (segments.map f)) := by
  induction segments generalizing path left with
  | nil => exact h
  | cons s rest ih =>
    obtain ⟨hdot, hdots⟩ := List.forall_mem_cons.mp hdots
    obtain ⟨hfit, hfits⟩ := List.forall_mem_cons.mp hfits
    obtain ⟨hdotted, hblanks⟩ := List.forall_mem_cons.mp hblank
    have ih := fun {path left} => @ih path left hdots hfits hblanks
    cases rest with
    | nil =>
      rw [List.map_singleton, resolve, resolve]
      cases hfirst : first s with
      | none =>
        cases hsecond : second (f s) with
        | none => exact h.concat hfit
        | single =>
          have hs := hdotted (by rw [hsecond]; exact Dots.noConfusion)
          exact h.concat hs
        | double =>
          have hs := hdotted (by rw [hsecond]; exact Dots.noConfusion)
          cases left with
          | nil => exact h.concat hs
          | cons t left =>
            refine h.concat_left ?_ s
            rw [List.length_append, List.length_dropLast]
            exact le_refl _
      | single =>
        rw [hdot (by rw [hfirst]; exact Dots.noConfusion), hfirst]
        exact h.concat hempty
      | double =>
        rw [hdot (by rw [hfirst]; exact Dots.noConfusion), hfirst]
        exact h.dropLast.concat hempty
    | cons next rest =>
      rw [List.map_cons] at ih ⊢
      rw [List.map_cons, resolve, resolve]
      cases hfirst : first s with
      | none =>
        cases hsecond : second (f s) with
        | none => exact ih (h.concat hfit)
        | single => exact ih (h.concat_left (le_refl _) s)
        | double => exact ih (h.concat_left (List.dropLast_prefix left).length_le s)
      | single =>
        rw [hdot (by rw [hfirst]; exact Dots.noConfusion), hfirst]
        exact ih h
      | double =>
        rw [hdot (by rw [hfirst]; exact Dots.noConfusion), hfirst]
        exact ih h.dropLast

end Compare

end RustMcpCore.Library.UrlText
