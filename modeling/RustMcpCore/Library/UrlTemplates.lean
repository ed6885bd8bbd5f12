import RustMcpCore.Library.UrlText

/-! # Texts put into a URL

A URL is written with symbols that stand for texts. What the reader finds once the texts are
known is compared with the parts that the symbols themselves write.
-/
namespace RustMcpCore.Library.UrlText

/-! ## Trimmed lists -/

section Trimmed
variable {A : Type} {p q : A → Bool}

theorem rdropWhile_append_all {first last : List A} (h : ∀ a ∈ last, p a = true) :
    (first ++ last).rdropWhile p = first.rdropWhile p := by
  induction last using List.reverseRecOn with
  | nil => rw [List.append_nil]
  | append_singleton last a ih =>
    rw [← List.append_assoc, List.rdropWhile_concat_pos _ _ _ (h a List.mem_concat_self)]
    exact ih fun b hb => h b (List.mem_append_left _ hb)

theorem mem_rdropWhile {l : List A} {a : A} (ha : a ∈ l) (h : p a = false) :
    a ∈ l.rdropWhile p := by
  obtain ⟨first, last, rfl⟩ := List.append_of_mem ha
  rw [Text.rdropWhile_append_cons h]
  exact List.mem_append_right _ List.mem_cons_self

theorem filter_rdropWhile (h : ∀ a, p a = false → q a = true) (l : List A) :
    (l.rdropWhile p).filter q = (l.filter q).rdropWhile p := by
  induction l using List.reverseRecOn with
  | nil => rfl
  | append_singleton l a ih =>
    rw [List.rdropWhile_concat, List.filter_append]
    cases hp : p a with
    | true =>
      rw [if_pos rfl, ih, rdropWhile_append_all]
      intro b hb
      rw [List.mem_singleton.mp (List.mem_of_mem_filter hb), hp]
    | false =>
      have hone : [a].filter q = [a] := List.filter_cons_of_pos (h a hp)
      rw [if_neg Bool.false_ne_true, List.filter_append, hone, Text.rdropWhile_append_cons hp]
      rfl

end Trimmed

/-! ## Texts in their segments -/

variable {A : Type}

/-- A segment of the path as it is written, and its text once the texts of its symbols are known. -/
structure Segment (A : Type) where
  template : List A
  text : List Char

section Filled
variable (view : A → Option Char) (text : A → List Char)

/-- A symbol that writes a character has that for its text. -/
def Spells : Prop := ∀ a c, view a = some c → text a = [c]

/-- What is left of a symbol's text when the reader has dropped what it drops everywhere. -/
def arriving (a : A) : List Char := (text a).filter fun c => !isDropped c

def fill (symbols : List A) : List Char := symbols.flatMap (arriving text)

/-- The reader trims the text that a URL ends with. -/
def settle (ends : Bool) (last : List Char) : List Char :=
  if ends then last.rdropWhile isTrimmed else last

def segments (ends : Bool) : List (List A) → List (Segment A)
  | [] => []
  | [last] => [⟨last, settle ends (fill text last)⟩]
  | segment :: next :: rest => ⟨segment, fill text segment⟩ :: segments ends (next :: rest)

namespace Target
variable (shape : Target A)

def segments : List (Segment A) :=
  UrlText.segments text (shape.query.isNone && shape.fragment.isNone) shape.written

/-- The same parts, with each text in the segment that its symbol is written in. -/
def filled : Target Char where
  scheme := shape.scheme
  authority := fill text shape.authority
  written := (shape.segments text).map Segment.text
  query := shape.query.map (fill text)
  fragment := shape.fragment.map (fill text)

/-- The segments that are left when the dot segments written in the template are resolved. -/
def left : List (Segment A) :=
  resolve (fun segment => dotsOf view segment.template) ⟨[], []⟩ [] (shape.segments text)

/-- A segment has its own text, or none where that text is dots. -/
def Fits (segment : Segment A) (read : List Char) : Prop :=
  read = segment.text ∨ read = [] ∧ dotsOf some segment.text ≠ .none

/-- All but the segments of the path is written out. -/
structure Fixed : Prop where
  authority : ∀ a ∈ shape.authority, (view a).isSome = true
  query : ∀ query ∈ shape.query, ∀ a ∈ query, (view a).isSome = true
  fragment : ∀ fragment ∈ shape.fragment, ∀ a ∈ fragment, (view a).isSome = true

/-- A URL has the parts that its template writes, each text in its own segment only, and as
many segments are left of it. -/
structure KeptBy (url : List Char) : Prop where
  parts : read some url = some (shape.filled text)
  path : List.Forall₂ Fits (shape.left view text) ((shape.filled text).path some)

end Target

/-- No text brings a separator with it. -/
def Unseparated (symbols : List A) : Prop :=
  ∀ a ∈ symbols, view a = none → ∀ c ∈ text a, endsAuthority c = false

/-- Dots that the texts bring do not take segments away. -/
def Target.Undotted (shape : Target A) : Prop :=
  leftOver 0 ((shape.segments text).map fun segment => dotsOf some segment.text) =
    leftOver 0 ((shape.segments text).map fun segment => dotsOf view segment.template)

end Filled

section Fill
variable {view : A → Option Char} {text : A → List Char}

theorem mem_fill {symbols : List A} {c : Char} :
    c ∈ fill text symbols ↔ ∃ a ∈ symbols, c ∈ text a ∧ isDropped c = false := by
  unfold fill arriving
  simp only [List.mem_flatMap, List.mem_filter, Bool.not_eq_true']

theorem fill_append (first last : List A) :
    fill text (first ++ last) = fill text first ++ fill text last := List.flatMap_append

theorem fill_cons (a : A) (rest : List A) : fill text (a :: rest) = arriving text a ++ fill text rest :=
  List.flatMap_cons

variable (hview : Spells view text)
include hview

theorem arriving_char {a : A} {c : Char} (ha : view a = some c) (hkept : isDropped c = false) :
    arriving text a = [c] := by
  rw [arriving, hview _ _ ha]
  exact List.filter_cons_of_pos (Bool.not_eq_true' _ ▸ hkept)

/-- The characters of a text keep what holds of its symbols, and of the texts they stand for. -/
theorem fill_plain {p : Char → Bool} {symbols : List A} (h : ∀ a ∈ symbols, Is view p a = false)
    (htexts : ∀ a ∈ symbols, view a = none → ∀ c ∈ text a, p c = false) :
    ∀ c ∈ fill text symbols, Is some p c = false := by
  intro c hc
  obtain ⟨a, ha, hc, -⟩ := mem_fill.mp hc
  cases hviewed : view a with
  | none => exact htexts a ha hviewed c hc
  | some d =>
    rw [hview _ _ hviewed, List.mem_singleton] at hc
    have hd := h a ha
    rw [Is, hviewed] at hd
    rw [hc]
    exact hd

end Fill

/-! ## Cleaning -/

section Clean
variable {view : A → Option Char} {text : A → List Char}

theorem is_none {p : Char → Bool} {a : A} (h : view a = none) : Is view p a = false := by
  rw [Is, h]
  rfl

theorem is_some {p : Char → Bool} {a : A} {c : Char} (h : view a = some c) : Is view p a = p c := by
  rw [Is, h]
  rfl

theorem is_isTrimmed_of_isDropped {a : A} (h : Is view isDropped a = true) :
    Is view isTrimmed a = true := by
  obtain ⟨c, hc, hdropped⟩ := is_eq_true_iff.mp h
  exact is_eq_true_iff.mpr ⟨c, hc, isTrimmed_of_isDropped hdropped⟩

/-- What is not dropped anywhere is only dropped at the ends. -/
theorem not_isDropped_of_not_isTrimmed {a : A} (h : Is view isTrimmed a = false) :
    (!Is view isDropped a) = true := by
  rw [Bool.not_eq_true', Bool.eq_false_iff]
  exact fun hdropped => Bool.eq_false_iff.mp h (is_isTrimmed_of_isDropped hdropped)

theorem not_isDropped_of_mem_clean {symbols : List A} {a : A} (h : a ∈ clean view symbols) :
    Is view isDropped a = false :=
  (Bool.not_eq_true' _).mp (List.mem_filter.mp h).2

/-- A symbol that is not trimmed keeps its place. -/
theorem clean_append_cons {first last : List A} {a : A} (h : Is view isTrimmed a = false) :
    clean view (first ++ a :: last) =
      (first.dropWhile (Is view isTrimmed)).filter (fun a => !Is view isDropped a) ++
        a :: (last.rdropWhile (Is view isTrimmed)).filter fun a => !Is view isDropped a := by
  have hdrop : (first ++ a :: last).dropWhile (Is view isTrimmed) =
      first.dropWhile (Is view isTrimmed) ++ a :: last := by
    rw [List.dropWhile_append]
    split
    · rename_i hempty
      rw [List.isEmpty_iff.mp hempty, List.dropWhile_cons_of_neg (Bool.eq_false_iff.mp h)]
      rfl
    · rfl
  rw [clean, hdrop, Text.rdropWhile_append_cons h, List.filter_append]
  exact congrArg _ (List.filter_cons_of_pos (not_isDropped_of_not_isTrimmed h))

theorem mem_clean_of_none {symbols : List A} {a : A} (ha : a ∈ symbols) (h : view a = none) :
    a ∈ clean view symbols := by
  obtain ⟨first, last, rfl⟩ := List.append_of_mem ha
  rw [clean_append_cons (is_none h)]
  exact List.mem_append_right _ List.mem_cons_self

/-- A cleaned text does not end in what is trimmed. -/
theorem not_isTrimmed_of_clean {symbols first : List A} {a : A}
    (h : clean view symbols = first ++ [a]) : Is view isTrimmed a = false := by
  rw [clean, filter_rdropWhile fun _ => not_isDropped_of_not_isTrimmed] at h
  have hne : ((symbols.dropWhile (Is view isTrimmed)).filter fun a => !Is view isDropped a).rdropWhile
      (Is view isTrimmed) ≠ [] := by
    rw [h]
    exact List.append_ne_nil_of_right_ne_nil _ (List.cons_ne_nil a [])
  have hlast := List.rdropWhile_last_not _ _ hne
  simp only [h, List.getLast_append_singleton, Bool.not_eq_true] at hlast
  exact hlast

variable (hview : Spells view text)
include hview

theorem arriving_of_isDropped {a : A} (h : Is view isDropped a = true) : arriving text a = [] := by
  obtain ⟨c, hc, hdropped⟩ := is_eq_true_iff.mp h
  rw [arriving, hview _ _ hc]
  refine List.filter_cons_of_neg ?_
  rw [hdropped]
  exact Bool.false_ne_true

theorem fill_filter (symbols : List A) :
    fill text (symbols.filter fun a => !Is view isDropped a) = fill text symbols := by
  induction symbols with
  | nil => rfl
  | cons a symbols ih =>
    rw [fill_cons, ← ih, List.filter_cons]
    cases ha : Is view isDropped a with
    | true =>
      rw [arriving_of_isDropped hview ha]
      rfl
    | false => exact fill_cons a _

theorem fill_rdropWhile (symbols : List A) :
    (fill text (symbols.rdropWhile (Is view isTrimmed))).rdropWhile isTrimmed =
      (fill text symbols).rdropWhile isTrimmed := by
  have htrimmed : ∀ c ∈ fill text (symbols.rtakeWhile (Is view isTrimmed)), isTrimmed c = true := by
    intro c hc
    obtain ⟨a, ha, hc, -⟩ := mem_fill.mp hc
    obtain ⟨d, hd, htrimmed⟩ := is_eq_true_iff.mp (List.mem_rtakeWhile_imp ha)
    rw [hview _ _ hd, List.mem_singleton] at hc
    rw [hc]
    exact htrimmed
  rw [← rdropWhile_append_all htrimmed, ← fill_append, List.rdropWhile_append_rtakeWhile]

theorem dropWhile_flatMap {symbols : List A}
    (hfirst : ∀ a ∈ (clean view symbols).head?, view a ≠ none) :
    (symbols.flatMap text).dropWhile isTrimmed =
      (symbols.dropWhile (Is view isTrimmed)).flatMap text := by
  obtain ⟨lead, rest, rfl, -, hdrop, hlead, hrest⟩ := exists_span (Is view isTrimmed) symbols
  rw [hdrop, List.flatMap_append]
  refine dropWhile_span ?_ ?_
  · intro c hc
    obtain ⟨a, ha, hc⟩ := List.mem_flatMap.mp hc
    obtain ⟨d, hd, htrimmed⟩ := is_eq_true_iff.mp (hlead a ha)
    rw [hview _ _ hd, List.mem_singleton] at hc
    rw [hc]
    exact htrimmed
  · intro c hc
    cases rest with
    | nil => cases hc
    | cons a rest =>
      have ha := hrest a rfl
      have hhead : a ∈ (clean view (lead ++ a :: rest)).head? := by
        rw [clean_append_cons ha, List.dropWhile_eq_nil_iff.mpr hlead]
        rfl
      obtain ⟨d, hd⟩ := Option.ne_none_iff_exists'.mp (hfirst a hhead)
      rw [List.flatMap_cons, hview _ _ hd] at hc
      cases hc
      rw [is_some hd] at ha
      exact ha

/-- Texts reach the reader cleaned, and the last of them also trimmed. -/
theorem clean_fill {symbols : List A} (hfirst : ∀ a ∈ (clean view symbols).head?, view a ≠ none) :
    clean some (symbols.flatMap text) = (fill text (clean view symbols)).rdropWhile isTrimmed := by
  have hcommute := @filter_rdropWhile Char isTrimmed (fun c => !isDropped c)
    (fun _ => @not_isDropped_of_not_isTrimmed Char some _)
  calc clean some (symbols.flatMap text)
      = (((symbols.flatMap text).dropWhile isTrimmed).rdropWhile isTrimmed).filter
          (fun c => !isDropped c) := rfl
    _ = (((symbols.dropWhile (Is view isTrimmed)).flatMap text).filter
          fun c => !isDropped c).rdropWhile isTrimmed := by
        rw [dropWhile_flatMap hview hfirst, hcommute]
    _ = (fill text (symbols.dropWhile (Is view isTrimmed))).rdropWhile isTrimmed := by
        rw [List.filter_flatMap]
        rfl
    _ = (fill text (clean view symbols)).rdropWhile isTrimmed := by
        rw [clean, fill_filter hview, fill_rdropWhile hview]

end Clean

/-! ## What is written -/

section Written
variable {view : A → Option Char} {text : A → List Char}

theorem unseparated_of_all {symbols : List A} (h : (symbols.all fun a =>
    (view a).isSome || (text a).all fun c => !endsAuthority c) = true) :
    Unseparated view text symbols := by
  intro a ha hnone c hc
  have hall := List.all_eq_true.mp h a ha
  rw [hnone, Option.isSome_none, Bool.false_or] at hall
  exact (Bool.not_eq_true' _).mp (List.all_eq_true.mp hall c hc)

theorem settle_append_cons {ends : Bool} {first last : List Char} {c : Char}
    (h : isTrimmed c = false) :
    settle ends (first ++ c :: last) = first ++ c :: settle ends last := by
  cases ends with
  | true => exact Text.rdropWhile_append_cons h
  | false => rfl

theorem settle_subset {ends : Bool} {last : List Char} : settle ends last ⊆ last := by
  cases ends with
  | true => exact (List.rdropWhile_prefix isTrimmed last).subset
  | false => exact List.Subset.refl last

theorem mem_settle {ends : Bool} {last : List Char} {c : Char} (hc : c ∈ last)
    (h : isTrimmed c = false) : c ∈ settle ends last := by
  cases ends with
  | true => exact mem_rdropWhile hc h
  | false => exact hc

theorem Ending.fixed {symbols : List A} {query fragment : Option (List A)}
    (h : Ending view symbols query fragment)
    (hquery : ∀ written ∈ query, ∀ a ∈ written, (view a).isSome = true)
    (hfragment : ∀ written ∈ fragment, ∀ a ∈ written, (view a).isSome = true) :
    ∀ a ∈ symbols, (view a).isSome = true := by
  have hmark : ∀ {mark : A} {c : Char}, view mark = some c → (view mark).isSome = true :=
    fun h => Option.isSome_of_eq_some h
  cases h with
  | none => exact List.forall_mem_nil _
  | fragment hmarks => exact List.forall_mem_cons.mpr ⟨hmark hmarks, hfragment _ rfl⟩
  | query hmarks _ => exact List.forall_mem_cons.mpr ⟨hmark hmarks, hquery _ rfl⟩
  | both hmarks _ hhash =>
    refine List.forall_mem_cons.mpr ⟨hmark hmarks, List.forall_mem_append.mpr ⟨hquery _ rfl, ?_⟩⟩
    exact List.forall_mem_cons.mpr ⟨hmark hhash, hfragment _ rfl⟩

theorem isSome_of_mapM {symbols : List A} {chars : List Char} (h : symbols.mapM view = some chars) :
    ∀ a ∈ symbols, (view a).isSome = true := by
  induction symbols generalizing chars with
  | nil => exact List.forall_mem_nil _
  | cons a symbols ih =>
    rw [List.mapM_cons, Option.bind_eq_bind, Option.bind_eq_some_iff] at h
    obtain ⟨c, hc, h⟩ := h
    rw [Option.bind_eq_bind, Option.bind_eq_some_iff] at h
    obtain ⟨chars, hchars, -⟩ := h
    exact List.forall_mem_cons.mpr ⟨Option.isSome_of_eq_some hc, ih hchars⟩

theorem mapM_some (chars : List Char) : chars.mapM some = some chars := by
  induction chars with
  | nil => rfl
  | cons c chars ih =>
    rw [List.mapM_cons, ih]
    rfl

theorem Writes.first {cleaned : List A} {shape : Target A} (h : Writes view cleaned shape) :
    ∀ a ∈ cleaned.head?, view a ≠ none := by
  intro a ha
  cases h with
  | @mk lead slashes authority path ending colon scheme written query fragment hnames hhttp =>
    cases lead with
    | nil =>
      cases hnames
      cases hhttp
    | cons first lead =>
      cases ha
      have hsome := isSome_of_mapM hnames a List.mem_cons_self
      exact Option.isSome_iff_ne_none.mp hsome

theorem mem_of_mem_clean {symbols : List A} {a : A} (h : a ∈ clean view symbols) : a ∈ symbols :=
  (List.dropWhile_suffix _).subset ((List.rdropWhile_prefix _ _).subset (List.mem_of_mem_filter h))

theorem Joined.plain {sep : A → Bool} {symbols : List A} {written : List (List A)}
    (h : Joined sep symbols written) {segment : List A} (hsegment : segment ∈ written) :
    ∀ a ∈ segment, a ∈ symbols ∧ sep a = false := by
  induction h with
  | last hplain =>
    rw [List.mem_singleton] at hsegment
    exact fun a ha => hsegment ▸ ⟨hsegment ▸ ha, hplain a (hsegment ▸ ha)⟩
  | cons hplain _ _ ih =>
    intro a ha
    rcases List.mem_cons.mp hsegment with rfl | hrest
    · exact ⟨List.mem_append_left _ ha, hplain a ha⟩
    · obtain ⟨hmem, hsep⟩ := ih hrest a ha
      exact ⟨List.mem_append_right _ (List.mem_cons_of_mem _ hmem), hsep⟩

theorem Joined.exists_mem {sep : A → Bool} {symbols : List A} {written : List (List A)}
    (h : Joined sep symbols written) {a : A} (ha : a ∈ symbols) (hsep : sep a = false) :
    ∃ segment ∈ written, a ∈ segment := by
  induction h with
  | last _ => exact ⟨_, List.mem_singleton.mpr rfl, ha⟩
  | cons _ hslash _ ih =>
    rcases List.mem_append.mp ha with ha | ha
    · exact ⟨_, List.mem_cons_self, ha⟩
    · rcases List.mem_cons.mp ha with rfl | ha
      · rw [hslash] at hsep
        cases hsep
      · obtain ⟨segment, hsegment, hmem⟩ := ih ha
        exact ⟨segment, List.mem_cons_of_mem _ hsegment, hmem⟩

/-- No segment of the path holds a separator. -/
theorem Writes.plain {cleaned : List A} {shape : Target A} (h : Writes view cleaned shape) :
    ∀ segment ∈ shape.written, ∀ a ∈ segment, Is view endsAuthority a = false := by
  intro segment hsegment a ha
  cases h with
  | mk _ _ _ _ _ _ _ hbefore hfollows _ =>
    cases hfollows with
    | empty =>
      cases List.mem_singleton.mp hsegment
      cases ha
    | slash hslash hjoined =>
      obtain ⟨hmem, hsep⟩ := hjoined.plain hsegment a ha
      rw [is_endsAuthority, hsep, hbefore a (List.mem_cons_of_mem _ hmem)]
      rfl

/-- What is not written out stands in a segment of the path. -/
theorem Writes.mem_written {cleaned : List A} {shape : Target A} (h : Writes view cleaned shape)
    (hfixed : shape.Fixed view) {a : A} (ha : a ∈ cleaned) (hnone : view a = none) :
    ∃ segment ∈ shape.written, a ∈ segment := by
  have hno : ∀ {symbols : List A}, (∀ b ∈ symbols, (view b).isSome = true) → a ∉ symbols := by
    intro symbols hsome ha
    have h := hsome a ha
    rw [hnone] at h
    cases h
  cases h with
  | mk hnames _ _ hcolons hignored _ _ _ hfollows hends =>
    have hslashes : ∀ b ∈ _, (view b).isSome = true := fun b hb => by
      obtain ⟨c, hc, -⟩ := is_eq_true_iff.mp (hignored b hb)
      exact Option.isSome_of_eq_some hc
    have ha := (List.mem_append.mp ha).resolve_left (hno (isSome_of_mapM hnames))
    have ha := (List.mem_cons.mp ha).resolve_left (by
      rintro rfl
      cases hnone.symm.trans hcolons)
    have ha := (List.mem_append.mp ha).resolve_left (hno hslashes)
    have ha := (List.mem_append.mp ha).resolve_left (hno hfixed.authority)
    have ha := (List.mem_append.mp ha).resolve_right (hno (hends.fixed hfixed.query hfixed.fragment))
    cases hfollows with
    | empty => cases ha
    | slash hslash hjoined =>
      have ha := (List.mem_cons.mp ha).resolve_left (by
        rintro rfl
        rw [is_none hnone] at hslash
        cases hslash)
      exact hjoined.exists_mem ha (is_none hnone)

/-- A segment has all of its text but what is trimmed. -/
theorem mem_segments {ends : Bool} {written : List (List A)} {segment : List A}
    (h : segment ∈ written) : ∃ found ∈ segments text ends written, ∀ c ∈ fill text segment,
      isTrimmed c = false → c ∈ found.text := by
  induction written with
  | nil => cases h
  | cons first written ih =>
    cases written with
    | nil =>
      cases List.mem_singleton.mp h
      exact ⟨_, List.mem_singleton.mpr rfl, fun c hc htrimmed => mem_settle hc htrimmed⟩
    | cons next written =>
      rcases List.mem_cons.mp h with rfl | h
      · exact ⟨_, List.mem_cons_self, fun c hc _ => hc⟩
      · obtain ⟨found, hfound, hkept⟩ := ih h
        exact ⟨found, List.mem_cons_of_mem _ hfound, hkept⟩

/-- The reader separates the parts at every separator that a text brings. -/
theorem unseparated_of_read {symbols : List A} {shape : Target A} {url : List Char}
    (h : read view symbols = some shape) (hfixed : shape.Fixed view)
    (hurl : read some url = some (shape.filled text)) : Unseparated view text symbols := by
  intro a ha hnone c hc
  obtain ⟨segment, hsegment, hmem⟩ :=
    (read_eq_some_iff.mp h).mem_written hfixed (mem_clean_of_none ha hnone) hnone
  by_contra hseparates
  rw [Bool.not_eq_false] at hseparates
  have htrimmed := not_isTrimmed_of_endsAuthority hseparates
  have hdropped := not_isDropped_of_endsAuthority hseparates
  obtain ⟨found, hfound, hkept⟩ :=
    @mem_segments A text (shape.query.isNone && shape.fragment.isNone) _ _ hsegment
  have hin := hkept c (mem_fill.mpr ⟨a, hmem, hc, hdropped⟩) htrimmed
  have hplain := (read_eq_some_iff.mp hurl).plain _ (List.mem_map_of_mem hfound) c hin
  rw [is_some rfl, hseparates] at hplain
  cases hplain

theorem of_mem_segments {ends : Bool} {written : List (List A)} {segment : Segment A}
    (h : segment ∈ segments text ends written) : segment.template ∈ written ∧
      ∃ ends, segment.text = settle ends (fill text segment.template) := by
  induction written with
  | nil => cases h
  | cons first written ih =>
    cases written with
    | nil =>
      cases List.mem_singleton.mp h
      exact ⟨List.mem_singleton.mpr rfl, ends, rfl⟩
    | cons next written =>
      rcases List.mem_cons.mp h with rfl | h
      · exact ⟨List.mem_cons_self, false, rfl⟩
      · obtain ⟨hmem, htext⟩ := ih h
        exact ⟨List.mem_cons_of_mem _ hmem, htext⟩

theorem length_segments (ends : Bool) (written : List (List A)) :
    (segments text ends written).length = written.length := by
  induction written with
  | nil => rfl
  | cons first written ih =>
    cases written with
    | nil => rfl
    | cons next written => exact congrArg Nat.succ ih

theorem Target.length_filled (shape : Target A) :
    (shape.filled text).written.length = shape.written.length := by
  rw [Target.filled, List.length_map]
  exact length_segments _ _

theorem asciiLower_of_isTrimmed {c : Char} (h : isTrimmed c = true) : Text.asciiLower c = c := by
  refine if_neg fun hupper => ?_
  have hcode : 'A'.toNat ≤ c.toNat := hupper.1
  have hle := of_decide_eq_true h
  have hbound : c.toNat < 'A'.toNat := Nat.lt_of_le_of_lt hle (by decide)
  exact absurd hcode (Nat.not_le_of_lt hbound)

/-- Dots are written without anything to trim. -/
theorem settle_of_dotsOf {symbols : List A} {chars : List Char} (hchars : symbols.mapM view = some chars)
    (hdots : dotsOf view symbols ≠ .none) (ends : Bool) : settle ends chars = chars := by
  cases ends with
  | false => rfl
  | true =>
    refine List.rdropWhile_eq_self_iff.mpr fun hne htrimmed => hdots ?_
    have hlast := asciiLower_of_isTrimmed htrimmed
    have hlower : (chars.map Text.asciiLower).getLast? = some (chars.getLast hne) := by
      rw [List.getLast?_map, List.getLast?_eq_some_getLast hne, Option.map_some, hlast]
    have hother : ∀ {text : List Char} {c : Char}, text.getLast? = some c → isTrimmed c = false →
        chars.map Text.asciiLower ≠ text := by
      intro text c hc hkept heq
      rw [heq, hc] at hlower
      rw [Option.some.inj hlower, htrimmed] at hkept
      cases hkept
    have hnone : ∀ {forms : List (List Char)},
        (∀ text ∈ forms, ∃ c, text.getLast? = some c ∧ isTrimmed c = false) →
        chars.map Text.asciiLower ∉ forms := by
      intro forms hforms hmem
      obtain ⟨c, hc, hkept⟩ := hforms _ hmem
      exact hother hc hkept rfl
    have hsingle : chars.map Text.asciiLower ∉ [['.'], ['%', '2', 'e']] :=
      hnone (by simp [isTrimmed])
    have hdouble : chars.map Text.asciiLower ∉ [['.', '.'], ['.', '%', '2', 'e'],
        ['%', '2', 'e', '.'], ['%', '2', 'e', '%', '2', 'e']] := hnone (by simp [isTrimmed])
    rw [dotsOf, hchars, Option.map_some]
    exact (if_neg hsingle).trans (if_neg hdouble)

theorem Writes.not_isDropped {symbols : List A} {shape : Target A}
    (h : Writes view (clean view symbols) shape) :
    ∀ segment ∈ shape.written, ∀ a ∈ segment, Is view isDropped a = false := by
  have hdropped : ∀ a ∈ clean view symbols, Is view isDropped a = false :=
    fun a => not_isDropped_of_mem_clean
  intro segment hsegment a ha
  generalize clean view symbols = cleaned at h hdropped
  cases h with
  | @mk lead slashes authority path ending colon scheme written query fragment hnames hhttp hplain
      hcolons hignored hhost hnamed hbefore hfollows hends =>
    have hpath : ∀ a ∈ path, Is view isDropped a = false := fun a ha => by
      refine hdropped a (List.mem_append_right _ (List.mem_cons_of_mem _ ?_))
      exact List.mem_append_right _ (List.mem_append_right _ (List.mem_append_left _ ha))
    cases hfollows with
    | empty =>
      cases List.mem_singleton.mp hsegment
      cases ha
    | slash _ hjoined =>
      exact hpath a (List.mem_cons_of_mem _ (hjoined.plain hsegment a ha).1)

end Written

/-! ## Reading the texts -/

section Reading
variable {view : A → Option Char} {text : A → List Char}

theorem segments_joined {sep : A → Bool} {symbols segment : List A} {written : List (List A)}
    (h : Joined sep symbols written) {ends : Bool} :
    segments text ends (segment :: written) =
      ⟨segment, fill text segment⟩ :: segments text ends written := by
  cases h with
  | last _ => rfl
  | cons _ _ _ => rfl

variable (hview : Spells view text)
include hview

theorem arriving_separator {a : A} {c : Char} (ha : view a = some c) (h : endsAuthority c = true) :
    arriving text a = [c] :=
  arriving_char hview ha (not_isDropped_of_endsAuthority h)

/-- Texts without separators stay in their segments. -/
theorem Joined.filled {symbols : List A} {written : List (List A)}
    (h : Joined (Is view isSlash) symbols written) (htexts : Unseparated view text symbols)
    (ends : Bool) : Joined (Is some isSlash) (settle ends (fill text symbols))
      ((segments text ends written).map Segment.text) := by
  have hplain : ∀ {segment : List A}, (∀ a ∈ segment, Is view isSlash a = false) →
      Unseparated view text segment → ∀ c ∈ fill text segment, Is some isSlash c = false := by
    intro segment hsegment htexts
    refine fill_plain hview hsegment fun a ha hnone c hc => ?_
    exact (Bool.or_eq_false_iff.mp (htexts a ha hnone c hc)).1
  induction h with
  | last hsegment => exact .last fun c hc => hplain hsegment htexts c (settle_subset hc)
  | @cons segment symbols slash rest hsegment hslash hjoined ih =>
    obtain ⟨c, hc, hseparates⟩ := is_eq_true_iff.mp hslash
    have hends := endsAuthority_of_isSlash hseparates
    rw [fill_append, fill_cons, arriving_separator hview hc hends, List.singleton_append,
      settle_append_cons (not_isTrimmed_of_endsAuthority hends), segments_joined hjoined, List.map_cons]
    refine .cons (hplain hsegment fun a ha => ?_) hseparates (ih fun a ha => ?_)
    · exact htexts a (List.mem_append_left _ ha)
    · exact htexts a (List.mem_append_right _ (List.mem_cons_of_mem _ ha))

theorem Path.filled {symbols : List A} {written : List (List A)} (h : Path view symbols written)
    (htexts : Unseparated view text symbols) (ends : Bool) :
    Path some (settle ends (fill text symbols)) ((segments text ends written).map Segment.text) := by
  cases h with
  | empty =>
    cases ends with
    | true => exact .empty
    | false => exact .empty
  | @slash slash symbols written hslash hjoined =>
    obtain ⟨c, hc, hseparates⟩ := is_eq_true_iff.mp hslash
    have hends := endsAuthority_of_isSlash hseparates
    have hsettle := @settle_append_cons ends [] (fill text symbols) c
      (not_isTrimmed_of_endsAuthority hends)
    rw [fill_cons, arriving_separator hview hc hends, List.singleton_append]
    rw [List.nil_append, List.nil_append] at hsettle
    rw [hsettle]
    exact .slash hseparates
      (hjoined.filled hview (fun a ha => htexts a (List.mem_cons_of_mem _ ha)) ends)

theorem Ending.filled {symbols : List A} {query fragment : Option (List A)}
    (h : Ending view symbols query fragment)
    (hfixed : ∀ a ∈ symbols, (view a).isSome = true) :
    Ending some (fill text symbols) (query.map (fill text))
      (fragment.map (fill text)) := by
  have hplain : ∀ {query : List A}, (∀ a ∈ query, Is view (· = '#') a = false) →
      (∀ a ∈ query, (view a).isSome = true) →
      ∀ c ∈ fill text query, Is some (· = '#') c = false := by
    intro query hquery hfixed
    refine fill_plain hview hquery fun a ha hnone => ?_
    have hsome := hfixed a ha
    rw [hnone] at hsome
    cases hsome
  cases h with
  | none => exact .none
  | fragment hmark =>
    rw [fill_cons, arriving_separator hview hmark rfl]
    exact .fragment rfl
  | query hmark hquery =>
    rw [fill_cons, arriving_separator hview hmark rfl]
    exact .query rfl (hplain hquery fun a ha => hfixed a (List.mem_cons_of_mem _ ha))
  | both hmark hquery hhash =>
    rw [fill_cons, arriving_separator hview hmark rfl, fill_append, fill_cons,
      arriving_separator hview hhash rfl]
    refine .both rfl (hplain hquery fun a ha => ?_) rfl
    exact hfixed a (List.mem_cons_of_mem _ (List.mem_append_left _ ha))

/-- What is written out at the end of a cleaned text is not trimmed. -/
theorem trim_fixed {first : List Char} {symbols last : List A} {a : A}
    (hclean : clean view symbols = last ++ [a]) {c : Char} (ha : view a = some c)
    (hdropped : isDropped c = false) {before : List A} :
    (first ++ fill text (before ++ [a])).rdropWhile isTrimmed = first ++ fill text (before ++ [a]) := by
  have htrimmed := not_isTrimmed_of_clean hclean
  rw [is_some ha] at htrimmed
  rw [fill_append, fill_cons, arriving_char hview ha hdropped, ← List.append_assoc]
  exact List.rdropWhile_concat_neg _ _ _ (Bool.eq_false_iff.mp htrimmed)

theorem fill_mapM {symbols : List A} {chars : List Char} (h : symbols.mapM view = some chars)
    (hdropped : ∀ a ∈ symbols, Is view isDropped a = false) : fill text symbols = chars := by
  induction symbols generalizing chars with
  | nil =>
    cases h
    rfl
  | cons a symbols ih =>
    obtain ⟨ha, hrest⟩ := List.forall_mem_cons.mp hdropped
    rw [List.mapM_cons, Option.bind_eq_bind, Option.bind_eq_some_iff] at h
    obtain ⟨c, hc, h⟩ := h
    rw [Option.bind_eq_bind, Option.bind_eq_some_iff] at h
    obtain ⟨chars, hchars, h⟩ := h
    cases h
    rw [is_some hc] at ha
    rw [fill_cons, arriving_char hview hc ha, ih hchars hrest]
    rfl

/-- Only the segments of the path and the end of the URL are trimmed. -/
theorem trim_fill {symbols before authority path ending : List A} {written : List (List A)}
    {query fragment : Option (List A)} {front : List Char}
    (hclean : clean view symbols = before ++ (authority ++ (path ++ ending)))
    (hauthority : ∀ a ∈ authority, (view a).isSome = true) (hnamed : authority ≠ [])
    (hpath : Path view path written) (hends : Ending view ending query fragment)
    (hending : ∀ a ∈ ending, (view a).isSome = true) :
    (front ++ (fill text authority ++ (fill text path ++ fill text ending))).rdropWhile isTrimmed =
      front ++ (fill text authority ++
        (settle (query.isNone && fragment.isNone) (fill text path) ++ fill text ending)) := by
  have hdropped : ∀ a ∈ before ++ (authority ++ (path ++ ending)), ∀ {c}, view a = some c →
      isDropped c = false := by
    intro a ha c hc
    have hkept := not_isDropped_of_mem_clean (hclean ▸ ha)
    rwa [is_some hc] at hkept
  rcases List.eq_nil_or_concat' ending with rfl | ⟨first, a, rfl⟩
  · cases hends with
    | none =>
      cases hpath with
      | empty =>
        obtain ⟨first, a, rfl⟩ := (List.eq_nil_or_concat' authority).resolve_left hnamed
        obtain ⟨c, hc⟩ := Option.isSome_iff_exists.mp (hauthority a List.mem_concat_self)
        have hend : clean view symbols = before ++ first ++ [a] := by
          rw [hclean, List.append_nil, List.append_nil, List.append_assoc]
        have hkept := hdropped a (hclean ▸ hend ▸ List.mem_concat_self) hc
        have htrim := @trim_fixed A view text hview front symbols _ a hend c hc hkept first
        change (front ++ (fill text (first ++ [a]) ++ [])).rdropWhile isTrimmed =
          front ++ (fill text (first ++ [a]) ++ [])
        rw [List.append_nil, htrim]
      | @slash slash path written hslash hjoined =>
        obtain ⟨c, hc, hseparates⟩ := is_eq_true_iff.mp hslash
        have hseparator := endsAuthority_of_isSlash hseparates
        have htrimmed := not_isTrimmed_of_endsAuthority hseparator
        have hsettle := @settle_append_cons true [] (fill text path) c htrimmed
        rw [fill_cons, arriving_separator hview hc hseparator]
        change (front ++ (fill text authority ++ (c :: fill text path ++ []))).rdropWhile isTrimmed =
          front ++ (fill text authority ++ (settle true ([] ++ c :: fill text path) ++ []))
        rw [hsettle, List.append_nil, List.append_nil, List.nil_append, ← List.append_assoc,
          Text.rdropWhile_append_cons htrimmed, List.append_assoc]
        rfl
  · obtain ⟨c, hc⟩ := Option.isSome_iff_exists.mp (hending a List.mem_concat_self)
    have hend : clean view symbols = before ++ (authority ++ (path ++ first)) ++ [a] := by
      rw [hclean, List.append_assoc, List.append_assoc, List.append_assoc]
    have hkept := hdropped a (hclean ▸ hend ▸ List.mem_concat_self) hc
    have hopen : (query.isNone && fragment.isNone) = false := by
      generalize hwhole : first ++ [a] = whole at hends
      cases hends with
      | none => exact absurd hwhole (List.append_ne_nil_of_right_ne_nil _ (List.cons_ne_nil a []))
      | fragment _ => rfl
      | query _ _ => rfl
      | both _ _ _ => rfl
    have htrim := @trim_fixed A view text hview
      (front ++ (fill text authority ++ fill text path)) symbols _ a hend c hc hkept first
    rw [hopen]
    simp only [List.append_assoc] at htrim
    exact htrim

/-- Where the texts bring no separators, the parts are those that the template writes. -/
theorem Writes.filled {symbols : List A} {shape : Target A}
    (h : Writes view (clean view symbols) shape) (hfixed : shape.Fixed view)
    (htexts : Unseparated view text (clean view symbols)) :
    Writes some ((fill text (clean view symbols)).rdropWhile isTrimmed) (shape.filled text) := by
  have hdropped : ∀ a ∈ clean view symbols, Is view isDropped a = false :=
    fun a => not_isDropped_of_mem_clean
  generalize hclean : clean view symbols = cleaned at h htexts hdropped ⊢
  cases h with
  | @mk lead slashes authority path ending colon scheme written query fragment hnames hhttp hplain
      hcolons hignored hhost hnamed hbefore hfollows hends =>
    have hending := hends.fixed hfixed.query hfixed.fragment
    obtain ⟨hleads, hrest⟩ := List.forall_mem_append.mp hdropped
    obtain ⟨hleadTexts, htexts⟩ := List.forall_mem_append.mp htexts
    obtain ⟨-, htexts⟩ := List.forall_mem_cons.mp htexts
    obtain ⟨hslashTexts, htexts⟩ := List.forall_mem_append.mp htexts
    obtain ⟨hauthorityTexts, htexts⟩ := List.forall_mem_append.mp htexts
    obtain ⟨hpathTexts, -⟩ := List.forall_mem_append.mp htexts
    have hname := fill_mapM hview hnames hleads
    have hbefore' : clean view symbols =
        lead ++ colon :: slashes ++ (authority ++ (path ++ ending)) := by
      rw [hclean]
      simp only [List.append_assoc, List.cons_append]
    have htrim := @trim_fill A view text hview symbols _ _ _ _ _ _ _ (scheme ++ ':' :: fill text slashes)
      hbefore' hfixed.authority hnamed hfollows hends hending
    have hfill : (fill text (lead ++ colon :: (slashes ++ (authority ++ (path ++ ending))))).rdropWhile
        isTrimmed = scheme ++ ':' :: (fill text slashes ++ (fill text authority ++
          (settle (query.isNone && fragment.isNone) (fill text path) ++ fill text ending))) := by
      simp only [fill_append, fill_cons, hname, arriving_char hview hcolons rfl]
      simp only [List.append_assoc, List.cons_append, List.nil_append] at htrim ⊢
      exact htrim
    rw [hfill]
    refine .mk (mapM_some scheme) hhttp ?_ rfl ?_ ?_ ?_ ?_ (hfollows.filled hview hpathTexts _)
      (hends.filled hview hending)
    · rw [← hname]
      refine fill_plain hview hplain fun a ha hnone => ?_
      have hsome := isSome_of_mapM hnames a ha
      rw [hnone] at hsome
      cases hsome
    · intro c hc
      obtain ⟨a, ha, hc, -⟩ := mem_fill.mp hc
      obtain ⟨d, hd, hslash⟩ := is_eq_true_iff.mp (hignored a ha)
      rw [hview _ _ hd, List.mem_singleton] at hc
      rw [hc]
      exact hslash
    · exact fill_plain hview hhost hauthorityTexts
    · obtain ⟨first, rest, rfl⟩ := List.exists_cons_of_ne_nil hnamed
      obtain ⟨c, hc⟩ := Option.isSome_iff_exists.mp (hfixed.authority first List.mem_cons_self)
      have hkept := (List.forall_mem_append.mp
        (List.forall_mem_append.mp (List.forall_mem_cons.mp hrest).2).2).1 first List.mem_cons_self
      rw [is_some hc] at hkept
      change fill text (first :: rest) ≠ []
      rw [fill_cons, arriving_char hview hc hkept]
      exact List.cons_ne_nil c _
    · intro c hc
      refine fill_plain hview hbefore (fun a ha hnone c hc => ?_) c (settle_subset hc)
      exact (Bool.or_eq_false_iff.mp (hpathTexts a ha hnone c hc)).2

theorem read_filled {symbols : List A} {shape : Target A} (h : read view symbols = some shape)
    (hfixed : shape.Fixed view) (htexts : Unseparated view text symbols) :
    read some (symbols.flatMap text) = some (shape.filled text) := by
  have hwrites := read_eq_some_iff.mp h
  rw [read_eq_some_iff, clean_fill hview hwrites.first]
  refine hwrites.filled hview hfixed fun a ha => htexts a (mem_of_mem_clean ha)

/-! ## Dots -/

/-- Dots that are written in the template stay dots. -/
theorem dotsOf_text {ends : Bool} {written : List (List A)} {segment : Segment A}
    (h : segment ∈ segments text ends written)
    (hdropped : ∀ symbols ∈ written, ∀ a ∈ symbols, Is view isDropped a = false)
    (hdots : dotsOf view segment.template ≠ .none) :
    dotsOf some segment.text = dotsOf view segment.template := by
  obtain ⟨hmem, ends, htext⟩ := of_mem_segments h
  cases hchars : segment.template.mapM view with
  | none =>
    rw [dotsOf, hchars] at hdots
    exact absurd rfl hdots
  | some chars =>
    rw [htext, fill_mapM hview hchars (hdropped _ hmem), settle_of_dotsOf hchars hdots, dotsOf, dotsOf,
      mapM_some, hchars]

/-- What is left of the path is what is left of the template, if as many segments are. -/
theorem left_iff {symbols : List A} {shape : Target A} (h : read view symbols = some shape) :
    List.Forall₂ Target.Fits (shape.left view text) ((shape.filled text).path some) ↔
      shape.Undotted view text := by
  have hbehind : Behind Target.Fits (shape.left view text) ((shape.filled text).path some) := by
    refine resolve_behind (fun segment hsegment => ?_) (fun _ _ => .inl rfl) (.inl rfl)
      (fun _ _ hdots => .inr ⟨rfl, hdots⟩) (.inr .nil)
    exact dotsOf_text hview hsegment (read_eq_some_iff.mp h).not_isDropped
  rw [hbehind.forall₂_iff, Target.left, Target.path, length_resolve, length_resolve, Target.filled,
    List.map_map]
  rfl

omit hview in
/-- Where the template has no dots of its own, texts may be dots at the end only. -/
theorem Target.undotted_iff {shape : Target A}
    (hplain : ∀ symbols ∈ shape.written, dotsOf view symbols = .none) :
    shape.Undotted view text ↔
      (∀ dots ∈ ((shape.filled text).written.map (dotsOf some)).dropLast, dots = .none) ∧
        (((shape.filled text).written.map (dotsOf some)).getLast? = some .double →
          shape.written.length = 1) := by
  have hall : ∀ dots ∈ (shape.segments text).map (fun segment => dotsOf view segment.template),
      dots = .none := by
    intro dots hdots
    obtain ⟨segment, hsegment, rfl⟩ := List.mem_map.mp hdots
    exact hplain _ (of_mem_segments hsegment).1
  have hlength : (shape.segments text).length = shape.written.length := length_segments _ _
  have htemplate : leftOver 0 ((shape.segments text).map fun segment => dotsOf view segment.template) =
      shape.written.length := by
    rw [← hlength, ← List.length_map fun segment : Segment A => dotsOf view segment.template,
      ← Nat.zero_add (List.length _), leftOver_eq_iff]
    refine ⟨fun dots hdots => hall dots (List.dropLast_subset _ hdots), fun hlast => ?_⟩
    cases hall _ (List.mem_of_getLast? hlast)
  have htexts := @leftOver_eq_iff 0 ((shape.filled text).written.map (dotsOf some))
  rw [Nat.zero_add, List.length_map, Target.length_filled] at htexts
  rw [Target.Undotted, htemplate, ← htexts, Target.filled, List.map_map]
  rfl

/-- The exact condition under which a URL keeps the parts of its template. -/
theorem keptBy_iff {symbols : List A} {shape : Target A} (h : read view symbols = some shape)
    (hfixed : shape.Fixed view) : shape.KeptBy view text (symbols.flatMap text) ↔
      Unseparated view text symbols ∧ shape.Undotted view text := by
  constructor
  · rintro ⟨hparts, hpath⟩
    exact ⟨unseparated_of_read h hfixed hparts, (left_iff hview h).mp hpath⟩
  · rintro ⟨htexts, hdots⟩
    exact ⟨read_filled hview h hfixed htexts, (left_iff hview h).mpr hdots⟩

end Reading

/-! ## A segment less -/

section Shorter
variable {view : A → Option Char}

/-- Symbols that are not written out stand behind everything that is. -/
theorem split_of_none {front rest first last : List A} {slash hole : A}
    (hfront : ∀ a ∈ front, (view a).isSome = true) (hhole : view hole = none)
    (h : front ++ rest = first ++ slash :: hole :: last) :
    front = first ++ [slash] ∨
      ∃ between, first = front ++ between ∧ rest = between ++ slash :: hole :: last := by
  rcases List.append_eq_append_iff.mp h with ⟨between, hfirst, hrest⟩ | ⟨excess, hexcess, hlast⟩
  · exact .inr ⟨between, hfirst, hrest⟩
  · cases excess with
    | nil =>
      refine .inr ⟨[], ?_, hlast.symm⟩
      rw [hexcess, List.append_nil, List.append_nil]
    | cons a excess =>
      cases excess with
      | nil =>
        cases hlast
        exact .inl hexcess
      | cons b excess =>
        cases hlast
        have hsome := hfront hole (hexcess ▸ List.mem_append_right _
          (List.mem_cons_of_mem _ List.mem_cons_self))
        rw [hhole] at hsome
        cases hsome

/-- A path goes on as long as nothing ends it. -/
theorem split_path {path ending between last : List A} {a next : A} {holes : List A}
    {query fragment : Option (List A)} (hends : Ending view ending query fragment)
    (hending : ∀ b ∈ ending, (view b).isSome = true) (hholes : ∀ b ∈ holes, view b = none)
    (hne : holes ≠ []) (ha : Is view endsPath a = false) (hnext : Is view endsPath next = false)
    (h : path ++ ending = between ++ a :: (holes ++ next :: last)) :
    ∃ after, path = between ++ a :: (holes ++ next :: after) ∧ last = after ++ ending := by
  have hbegins : ∀ {symbols rest : List A}, ending = symbols ++ next :: rest →
      (∀ b ∈ symbols, Is view endsPath b = false) → False := by
    intro symbols rest heq hsymbols
    cases symbols with
    | nil =>
      have hfirst := hends.begins next (heq ▸ rfl)
      rw [hnext] at hfirst
      cases hfirst
    | cons b symbols =>
      have hfirst := hends.begins b (heq ▸ rfl)
      rw [hsymbols b List.mem_cons_self] at hfirst
      cases hfirst
  obtain ⟨hole, hmem⟩ := List.exists_mem_of_ne_nil holes hne
  rcases List.append_eq_append_iff.mp h with ⟨excess, -, hexcess⟩ | ⟨excess, hpath, hexcess⟩
  · have hin : hole ∈ ending := hexcess ▸ List.mem_append_right _
      (List.mem_cons_of_mem _ (List.mem_append_left _ hmem))
    have hsome := hending hole hin
    rw [hholes hole hmem] at hsome
    cases hsome
  · rw [← List.cons_append] at hexcess
    have hplain : ∀ b ∈ a :: holes, Is view endsPath b = false :=
      List.forall_mem_cons.mpr ⟨ha, fun b hb => is_none (hholes b hb)⟩
    rcases List.append_eq_append_iff.mp hexcess with ⟨after, hafter, hrest⟩ | ⟨back, hback, hrest⟩
    · cases after with
      | nil => exact (@hbegins [] last hrest.symm (List.forall_mem_nil _)).elim
      | cons b after =>
        cases hrest
        refine ⟨after, ?_, rfl⟩
        rw [hpath, hafter]
        rfl
    · refine (hbegins hrest fun b hb => hplain b ?_).elim
      exact hback ▸ List.mem_append_right _ hb

theorem Path.shorter {between last : List A} {slash next : A} {holes : List A}
    {written : List (List A)} (hslash : view slash = some '/') (hnext : view next = some '/')
    (hholes : ∀ a ∈ holes, view a = none)
    (h : Path view (between ++ slash :: (holes ++ next :: last)) written) :
    ∃ shorter, Path view (between ++ next :: last) shorter ∧ shorter.length + 1 = written.length := by
  have hsep : ∀ {a : A}, view a = some '/' → Is view isSlash a = true := fun ha => by
    rw [is_some ha]
    rfl
  have hplain : ∀ a ∈ holes, Is view isSlash a = false := fun a ha => is_none (hholes a ha)
  have hsplit := h.splitOnP
  have hbegins := h.begins
  cases between with
  | nil =>
    refine ⟨last.splitOnP (Is view isSlash), .slash (hsep hnext) (joined_splitOnP _ last), ?_⟩
    rw [List.nil_append, List.drop_one, List.tail_cons,
      List.splitOnP_append_cons_of_forall_mem hplain _ (hsep hnext)] at hsplit
    rw [← hsplit]
    rfl
  | cons first between =>
    refine ⟨(between ++ next :: last).splitOnP (Is view isSlash),
      .slash (hbegins first rfl) (joined_splitOnP _ _), ?_⟩
    rw [List.cons_append, List.drop_one, List.tail_cons, List.splitOnP_append_cons _ _ (hsep hslash),
      List.splitOnP_append_cons_of_forall_mem hplain _ (hsep hnext)] at hsplit
    rw [← hsplit, List.splitOnP_append_cons _ _ (hsep hnext), List.length_append, List.length_append]
    rfl

/-- Without an empty segment the same URL is written with one segment less. -/
theorem exists_shorter {first holes last : List A} {slash next : A} {shape : Target A}
    (h : read view (first ++ slash :: (holes ++ next :: last)) = some shape)
    (hfixed : shape.Fixed view) (hslash : view slash = some '/') (hnext : view next = some '/')
    (hholes : ∀ a ∈ holes, view a = none) (hne : holes ≠ []) :
    ∃ shorter, read view (first ++ next :: last) = some shorter ∧ shorter.Fixed view ∧
      shorter.written.length + 1 = shape.written.length := by
  have htrimmed : ∀ {a : A}, view a = some '/' → Is view isTrimmed a = false := fun ha => by
    rw [is_some ha]
    rfl
  have hkept : holes.filter (fun a => !Is view isDropped a) = holes :=
    List.filter_eq_self.mpr fun a ha => by rw [is_none (hholes a ha)]; rfl
  have hclean : clean view (first ++ slash :: (holes ++ next :: last)) =
      (first.dropWhile (Is view isTrimmed)).filter (fun a => !Is view isDropped a) ++
        slash :: (holes ++ next :: (last.rdropWhile (Is view isTrimmed)).filter
          fun a => !Is view isDropped a) := by
    rw [clean_append_cons (htrimmed hslash), Text.rdropWhile_append_cons (htrimmed hnext),
      List.filter_append, hkept]
    exact congrArg (fun rest => _ ++ slash :: (holes ++ rest))
      (List.filter_cons_of_pos (not_isDropped_of_not_isTrimmed (htrimmed hnext)))
  have hwrites := read_eq_some_iff.mp h
  rw [hclean] at hwrites
  have hshorter := @clean_append_cons A view first last next (htrimmed hnext)
  generalize (first.dropWhile (Is view isTrimmed)).filter (fun a => !Is view isDropped a) = before,
    (last.rdropWhile (Is view isTrimmed)).filter (fun a => !Is view isDropped a) = behind
    at hwrites hshorter
  generalize hwhole : before ++ slash :: (holes ++ next :: behind) = whole at hwrites
  cases hwrites with
  | @mk lead slashes authority path ending colon scheme written query fragment hnames hhttp hplain
      hcolons hignored hhost hnamed hbefore hfollows hends =>
    have hfront : ∀ a ∈ lead ++ colon :: (slashes ++ authority), (view a).isSome = true := by
      refine List.forall_mem_append.mpr ⟨isSome_of_mapM hnames, List.forall_mem_cons.mpr ⟨?_, ?_⟩⟩
      · exact Option.isSome_of_eq_some hcolons
      · refine List.forall_mem_append.mpr ⟨fun a ha => ?_, hfixed.authority⟩
        obtain ⟨c, hc, -⟩ := is_eq_true_iff.mp (hignored a ha)
        exact Option.isSome_of_eq_some hc
    have hpath : ∀ {a : A}, view a = some '/' → Is view endsPath a = false := fun ha => by
      rw [is_some ha]
      rfl
    obtain ⟨hole, more, rfl⟩ := List.exists_cons_of_ne_nil hne
    have hsplit : lead ++ colon :: (slashes ++ authority) ++ (path ++ ending) =
        before ++ slash :: hole :: (more ++ next :: behind) := by
      rw [List.cons_append] at hwhole
      rw [hwhole]
      simp only [List.append_assoc, List.cons_append]
    rcases split_of_none hfront (hholes hole List.mem_cons_self) hsplit with
      hlast | ⟨between, rfl, hrest⟩
    · -- The authority would end in a slash.
      obtain ⟨init, a, rfl⟩ := (List.eq_nil_or_concat' authority).resolve_left hnamed
      have hsame := congrArg List.getLast? hlast
      rw [← List.append_assoc, ← List.cons_append, ← List.append_assoc, List.getLast?_concat,
        List.getLast?_concat] at hsame
      have hhostA := hhost a List.mem_concat_self
      rw [Option.some.inj hsame, is_some hslash] at hhostA
      cases hhostA
    · obtain ⟨after, rfl, rfl⟩ := split_path hends (hends.fixed hfixed.query hfixed.fragment) hholes
        (List.cons_ne_nil hole more) (hpath hslash) (hpath hnext) hrest
      obtain ⟨shorter, hfollows', hlength⟩ := hfollows.shorter hslash hnext hholes
      refine ⟨⟨scheme.map Text.asciiLower, authority, shorter, query, fragment⟩, ?_,
        ⟨hfixed.authority, hfixed.query, hfixed.fragment⟩, hlength⟩
      have hparts : lead ++ colon :: (slashes ++ authority) ++ between ++ next :: (after ++ ending) =
          lead ++ colon :: (slashes ++ (authority ++ ((between ++ next :: after) ++ ending))) := by
        simp only [List.append_assoc, List.cons_append]
      rw [read_eq_some_iff, hshorter, hparts]
      obtain ⟨hbetween, hrest⟩ := List.forall_mem_append.mp hbefore
      have hafter := (List.forall_mem_append.mp (List.forall_mem_cons.mp hrest).2).2
      exact .mk hnames hhttp hplain hcolons hignored hhost hnamed
        (List.forall_mem_append.mpr ⟨hbetween, hafter⟩) hfollows' hends

end Shorter

end RustMcpCore.Library.UrlText
