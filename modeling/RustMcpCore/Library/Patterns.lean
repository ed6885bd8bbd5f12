import RustMcpCore.Library.Scanning

/-! # Patterns with holes

A pattern is literal text with holes in it. The leftmost matcher never goes back: it ends
a hole where the next text begins for the first time.
-/
namespace RustMcpCore.Library

inductive Piece (V : Type)
  | text (segment : List Char)
  | hole (name : V)

namespace Piece
variable {V : Type}

/-- The texts of a pattern, with one value in place of each hole. -/
inductive Fills : List (Piece V) → List (List Char) → List Char → Prop
  | nil : Fills [] [] []
  | text {segment rest : List Char} {pieces : List (Piece V)} {values : List (List Char)}
      (more : Fills pieces values rest) : Fills (.text segment :: pieces) values (segment ++ rest)
  | hole {name : V} {value rest : List Char} {pieces : List (Piece V)} {values : List (List Char)}
      (more : Fills pieces values rest) :
      Fills (.hole name :: pieces) (value :: values) (value ++ rest)

def Fits (pieces : List (Piece V)) (input : List Char) : Prop := ∃ values, Fills pieces values input

def nextText : List (Piece V) → Option (List Char)
  | [] => none
  | .text segment :: _ => some segment
  | .hole _ :: pieces => nextText pieces

/-- The values of the holes that are found from left to right. -/
def leftmost : List (Piece V) → List Char → Option (List (List Char))
  | [], input => if input.isEmpty then some [] else none
  | .text segment :: pieces, input =>
    if segment.isPrefixOf input then leftmost pieces (input.drop segment.length) else none
  | .hole _ :: pieces, input =>
    match nextText pieces with
    | some segment =>
      (Text.cut segment input).bind fun (value, _) =>
        (leftmost pieces (input.drop value.length)).map (value :: ·)
    | none => (leftmost pieces []).map (input :: ·)

/-- No text of the pattern is empty, and none stands right behind another. -/
inductive Tidy : List (Piece V) → Prop
  | nil : Tidy []
  | hole {name : V} {pieces : List (Piece V)} (more : Tidy pieces) : Tidy (.hole name :: pieces)
  | last {segment : List Char} (nonempty : segment ≠ []) : Tidy [.text segment]
  | text {segment : List Char} {name : V} {pieces : List (Piece V)} (nonempty : segment ≠ [])
      (more : Tidy (.hole name :: pieces)) : Tidy (.text segment :: .hole name :: pieces)

def EndsOpen (pieces : List (Piece V)) : Prop := ∃ name, pieces.getLast? = some (.hole name)

variable {pieces : List (Piece V)} {values : List (List Char)} {input segment rest value : List Char}
  {name : V}

theorem Tidy.tail {piece : Piece V} (h : Tidy (piece :: pieces)) : Tidy pieces := by
  cases h with
  | hole more => exact more
  | last => exact .nil
  | text _ more => exact more

theorem fits_text :
    Fits (.text segment :: pieces) input ↔ ∃ rest, input = segment ++ rest ∧ Fits pieces rest := by
  constructor
  · rintro ⟨values, h⟩
    cases h with
    | text more => exact ⟨_, rfl, values, more⟩
  · rintro ⟨rest, rfl, values, h⟩
    exact ⟨values, .text h⟩

theorem fits_hole :
    Fits (.hole name :: pieces) input ↔ ∃ value rest, input = value ++ rest ∧ Fits pieces rest := by
  constructor
  · rintro ⟨values, h⟩
    cases h with
    | hole more => exact ⟨_, _, rfl, _, more⟩
  · rintro ⟨value, rest, rfl, values, h⟩
    exact ⟨value :: values, .hole h⟩

theorem fits_nil : Fits ([] : List (Piece V)) input ↔ input = [] := by
  constructor
  · rintro ⟨values, h⟩
    cases h
    rfl
  · rintro rfl
    exact ⟨[], .nil⟩

theorem endsOpen_cons {piece : Piece V} (hpieces : pieces ≠ []) :
    EndsOpen (piece :: pieces) ↔ EndsOpen pieces := by
  obtain ⟨next, more, rfl⟩ := List.exists_cons_of_ne_nil hpieces
  unfold EndsOpen
  rw [List.getLast?_cons_cons]

/-- What ends in a hole goes on as far as it may. -/
theorem fits_extend (hopen : EndsOpen pieces) (h : Fits pieces input) (more : List Char) :
    Fits pieces (input ++ more) := by
  obtain ⟨values, h⟩ := h
  induction h with
  | nil =>
    obtain ⟨_, hlast⟩ := hopen
    cases hlast
  | @text segment rest pieces values hfills ih =>
    have hne : pieces ≠ [] := by
      rintro rfl
      obtain ⟨_, hlast⟩ := hopen
      cases hlast
    rw [List.append_assoc]
    exact fits_text.mpr ⟨_, rfl, ih ((endsOpen_cons hne).mp hopen)⟩
  | @hole name value rest pieces values hfills ih =>
    rw [List.append_assoc]
    cases pieces with
    | nil =>
      cases hfills
      exact fits_hole.mpr ⟨value ++ more, [], by simp, fits_nil.mpr rfl⟩
    | cons piece pieces =>
      exact fits_hole.mpr ⟨value, _, rfl, ih ((endsOpen_cons (List.cons_ne_nil _ _)).mp hopen)⟩

/-! ## The leftmost matcher -/

theorem leftmost_text (rest : List Char) :
    leftmost (.text segment :: pieces) (segment ++ rest) = leftmost pieces rest := by
  have hstart : segment.isPrefixOf (segment ++ rest) = true :=
    List.isPrefixOf_iff_prefix.mpr (List.prefix_append _ _)
  rw [leftmost, if_pos hstart, List.drop_left]

theorem leftmost_hole (hnext : nextText pieces = some segment) (hsegment : segment ≠ [])
    (hcut : Text.cut segment input = some (value, rest)) :
    leftmost (.hole name :: pieces) input =
      (leftmost pieces (segment ++ rest)).map (value :: ·) := by
  have hinput := ((Text.cut_eq_some_iff hsegment).mp hcut).1
  have hdrop : input.drop value.length = segment ++ rest := by
    rw [hinput, List.append_assoc, List.drop_left]
  rw [leftmost, hnext]
  simp only [hcut, Option.bind_some, hdrop]

theorem leftmost_last (hnext : nextText pieces = none) :
    leftmost (.hole name :: pieces) input = (leftmost pieces []).map (input :: ·) := by
  rw [leftmost, hnext]

theorem nextText_ne_nil (htidy : Tidy pieces) (hnext : nextText pieces = some segment) :
    segment ≠ [] := by
  induction htidy with
  | nil => cases hnext
  | hole _ ih => exact ih hnext
  | last nonempty =>
    cases hnext
    exact nonempty
  | text nonempty =>
    cases hnext
    exact nonempty

/-- What is found fills the pattern. -/
theorem fills_of_leftmost (htidy : Tidy pieces) (h : leftmost pieces input = some values) :
    Fills pieces values input := by
  induction pieces generalizing input values with
  | nil =>
    rw [leftmost] at h
    split at h
    · rename_i hempty
      cases h
      rw [List.isEmpty_iff.mp hempty]
      exact .nil
    · cases h
  | cons piece pieces ih =>
    have hmore := htidy.tail
    cases piece with
    | text segment =>
      rw [leftmost] at h
      split at h
      · rename_i hstart
        obtain ⟨rest, rfl⟩ := List.isPrefixOf_iff_prefix.mp hstart
        rw [List.drop_left] at h
        exact .text (ih hmore h)
      · cases h
    | hole name =>
      rw [leftmost] at h
      split at h
      · rename_i segment hnext
        obtain ⟨⟨value, after⟩, hcut, h⟩ := Option.bind_eq_some_iff.mp h
        obtain ⟨found, hfound, rfl⟩ := Option.map_eq_some_iff.mp h
        have hinput := ((Text.cut_eq_some_iff (nextText_ne_nil hmore hnext)).mp hcut).1
        rw [List.append_assoc] at hinput
        rw [hinput, List.drop_left] at hfound
        rw [hinput]
        exact .hole (ih hmore hfound)
      · obtain ⟨found, hfound, rfl⟩ := Option.map_eq_some_iff.mp h
        have hfills := @Fills.hole V name input _ _ _ (ih hmore hfound)
        rwa [List.append_nil] at hfills

/-- Without a text left, the last hole takes everything. -/
theorem leftmost_holes (hnext : nextText pieces = none) :
    ∃ values, leftmost pieces [] = some values := by
  induction pieces with
  | nil => exact ⟨[], rfl⟩
  | cons piece pieces ih =>
    cases piece with
    | text segment => cases hnext
    | hole name =>
      have hpieces : nextText pieces = none := hnext
      obtain ⟨values, hvalues⟩ := ih hpieces
      exact ⟨[] :: values, by rw [leftmost_last hpieces, hvalues]; rfl⟩

theorem endsOpen_holes (hnext : nextText pieces = none) : EndsOpen (.hole name :: pieces) := by
  induction pieces generalizing name with
  | nil => exact ⟨name, rfl⟩
  | cons piece pieces ih =>
    cases piece with
    | text segment => cases hnext
    | hole next => exact (endsOpen_cons (List.cons_ne_nil _ _)).mpr (ih hnext)

theorem infix_of_fits (hnext : nextText pieces = some segment) (h : Fits pieces input) :
    segment <:+: input := by
  induction pieces generalizing input with
  | nil => cases hnext
  | cons piece pieces ih =>
    cases piece with
    | text found =>
      cases hnext
      obtain ⟨rest, rfl, _⟩ := fits_text.mp h
      exact List.infix_append_left
    | hole name =>
      obtain ⟨value, rest, rfl, hrest⟩ := fits_hole.mp h
      exact (ih hnext hrest).trans List.infix_append_right

/-- Wherever the pattern fits later on, it fits behind the first occurrence of its next text,
and ends no later. -/
theorem fits_first (htidy : Tidy pieces) (hnext : nextText pieces = some segment)
    (hcut : Text.cut segment input = some (value, rest)) {before middle after : List Char}
    (hinput : input = before ++ middle ++ after) (h : Fits pieces middle) :
    ∃ found, found <+: segment ++ rest ∧ Fits pieces found ∧
      value.length + found.length ≤ before.length + middle.length := by
  have hsegment := nextText_ne_nil htidy hnext
  have hsplit := ((Text.cut_eq_some_iff hsegment).mp hcut).1
  induction htidy generalizing before middle with
  | nil => cases hnext
  | @hole name pieces _ ih =>
    obtain ⟨skipped, middle, rfl, hrest⟩ := fits_hole.mp h
    obtain ⟨found, hfound, hfits, hlength⟩ :=
      @ih hnext (before ++ skipped) middle (by rw [hinput]; simp only [List.append_assoc]) hrest
    refine ⟨found, hfound, fits_hole.mpr ⟨[], found, rfl, hfits⟩, ?_⟩
    rw [List.length_append] at hlength ⊢
    omega
  | last =>
    cases hnext
    obtain ⟨tail, rfl, htail⟩ := fits_text.mp h
    rw [fits_nil] at htail
    subst htail
    rw [List.append_nil] at hinput ⊢
    have hle := Text.length_le_of_cut hsegment hcut hinput
    refine ⟨segment, List.prefix_append _ _, fits_text.mpr ⟨[], by simp, fits_nil.mpr rfl⟩, ?_⟩
    omega
  | text =>
    cases hnext
    obtain ⟨tail, rfl, htail⟩ := fits_text.mp h
    obtain ⟨skipped, final, rfl, hfinal⟩ := fits_hole.mp htail
    have hright : input = before ++ segment ++ (skipped ++ final ++ after) := by
      rw [hinput]
      simp only [List.append_assoc]
    have hle := Text.length_le_of_cut hsegment hcut hright
    -- The hole behind the text takes what lies between the two occurrences.
    have hrest : skipped ++ final ++ after <:+ rest := by
      have hbehind : skipped ++ final ++ after <:+ input := ⟨_, hright.symm⟩
      refine List.suffix_of_suffix_length_le hbehind ⟨_, hsplit.symm⟩ ?_
      have hlengths := congrArg List.length (hright.symm.trans hsplit)
      simp only [List.length_append] at hlengths ⊢
      omega
    obtain ⟨extra, hextra⟩ := hrest
    refine ⟨segment ++ (extra ++ skipped ++ final), ?_, ?_, ?_⟩
    · refine (List.prefix_append_right_inj segment).mpr ⟨after, ?_⟩
      rw [← hextra]
      simp only [List.append_assoc]
    · exact fits_text.mpr ⟨_, rfl, fits_hole.mpr ⟨extra ++ skipped, final, rfl, hfinal⟩⟩
    · have hlengths := congrArg List.length (hright.symm.trans hsplit)
      have hextras := congrArg List.length hextra
      simp only [List.length_append] at hlengths hextras ⊢
      omega

/-- The pattern ends in a hole, or fits no part of the input that ends before it. -/
def Ends (pieces : List (Piece V)) (input : List Char) : Prop :=
  EndsOpen pieces ∨ ∀ part, part <+: input → Fits pieces part → part = input

theorem fits_single : Fits [(.text segment : Piece V)] input ↔ input = segment := by
  rw [fits_text]
  constructor
  · rintro ⟨rest, rfl, hrest⟩
    rw [fits_nil.mp hrest, List.append_nil]
  · rintro rfl
    exact ⟨[], (List.append_nil _).symm, fits_nil.mpr rfl⟩

theorem leftmost_hole_isSome (hnext : nextText pieces = some segment) (hsegment : segment ≠ [])
    (hcut : Text.cut segment input = some (value, rest)) :
    (∃ values, leftmost (.hole name :: pieces) input = some values) ↔
      ∃ values, leftmost pieces (segment ++ rest) = some values := by
  rw [leftmost_hole hnext hsegment hcut]
  simp only [Option.map_eq_some_iff]
  constructor
  · rintro ⟨_, values, h, _⟩
    exact ⟨values, h⟩
  · rintro ⟨values, h⟩
    exact ⟨_, values, h, rfl⟩

/-- A hole before text fits exactly if the pattern behind it fits where the text begins first. -/
theorem fits_hole_iff (htidy : Tidy pieces) (hnext : nextText pieces = some segment)
    (hcut : Text.cut segment input = some (value, rest)) :
    Fits pieces (segment ++ rest) ∧ Ends pieces (segment ++ rest) ↔
      Fits (.hole name :: pieces) input ∧ Ends (.hole name :: pieces) input := by
  have hne : pieces ≠ [] := by
    rintro rfl
    cases hnext
  have hinput : input = value ++ (segment ++ rest) := by
    rw [((Text.cut_eq_some_iff (nextText_ne_nil htidy hnext)).mp hcut).1, List.append_assoc]
  unfold Ends
  rw [endsOpen_cons hne]
  constructor
  · rintro ⟨hfits, hend⟩
    refine ⟨hinput ▸ fits_hole.mpr ⟨value, _, rfl, hfits⟩, hend.imp_right ?_⟩
    intro hend part hpart h
    obtain ⟨before, middle, rfl, hmiddle⟩ := fits_hole.mp h
    obtain ⟨after, hafter⟩ := hpart
    obtain ⟨found, hstart, hfits, hlength⟩ := fits_first htidy hnext hcut hafter.symm hmiddle
    have hwhole := hend found hstart hfits
    refine List.IsPrefix.eq_of_length ⟨after, hafter⟩ ?_
    have hlengths := congrArg List.length hafter
    have hinputs := congrArg List.length hinput
    rw [hwhole] at hlength
    simp only [List.length_append] at hlengths hinputs hlength ⊢
    omega
  · rintro ⟨hfits, hend⟩
    obtain ⟨before, middle, hmiddle, hrest⟩ := fits_hole.mp hfits
    have hwhole : input = before ++ middle ++ [] := by rw [hmiddle, List.append_nil]
    obtain ⟨found, ⟨more, hmore⟩, hfound, -⟩ := fits_first htidy hnext hcut hwhole hrest
    rcases hend with hopen | hend
    · exact ⟨hmore ▸ fits_extend hopen hfound more, .inl hopen⟩
    · have hunique : ∀ part, part <+: segment ++ rest → Fits pieces part →
          part = segment ++ rest := by
        intro part hpart h
        have hlong := hend (value ++ part)
          (hinput ▸ (List.prefix_append_right_inj value).mpr hpart)
          (fits_hole.mpr ⟨value, part, rfl, h⟩)
        rw [hinput] at hlong
        exact List.append_cancel_left hlong
      have hsame := hunique found ⟨more, hmore⟩ hfound
      exact ⟨hsame ▸ hfound, .inr hunique⟩

theorem fits_text_iff (hne : pieces ≠ []) :
    Fits pieces rest ∧ Ends pieces rest ↔
      Fits (.text segment :: pieces) (segment ++ rest) ∧
        Ends (.text segment :: pieces) (segment ++ rest) := by
  unfold Ends
  rw [fits_text, endsOpen_cons hne]
  constructor
  · rintro ⟨hfits, hend⟩
    refine ⟨⟨rest, rfl, hfits⟩, hend.imp_right fun hend part hpart h => ?_⟩
    obtain ⟨tail, rfl, htail⟩ := fits_text.mp h
    rw [hend tail ((List.prefix_append_right_inj segment).mp hpart) htail]
  · rintro ⟨⟨tail, htail, hfits⟩, hend⟩
    cases List.append_cancel_left htail
    refine ⟨hfits, hend.imp_right fun hend part hpart h => ?_⟩
    exact List.append_cancel_left (hend (segment ++ part)
      ((List.prefix_append_right_inj segment).mpr hpart) (fits_text.mpr ⟨part, rfl, h⟩))

/-- The matcher finds a pattern that ends in a hole wherever it fits, and any other one
where it fits, but not before the end. -/
theorem leftmost_iff (htidy : Tidy pieces) :
    (∃ values, leftmost pieces input = some values) ↔ Fits pieces input ∧ Ends pieces input := by
  induction htidy generalizing input with
  | nil =>
    rw [fits_nil, leftmost]
    constructor
    · rintro ⟨values, h⟩
      split at h
      · rename_i hempty
        have hinput := List.isEmpty_iff.mp hempty
        exact ⟨hinput, .inr fun part _ hpart => (fits_nil.mp hpart).trans hinput.symm⟩
      · cases h
    · rintro ⟨rfl, _⟩
      exact ⟨[], rfl⟩
  | @hole name pieces htidy ih =>
    cases hnext : nextText pieces with
    | none =>
      obtain ⟨values, hvalues⟩ := leftmost_holes hnext
      refine iff_of_true ⟨input :: values, by rw [leftmost_last hnext, hvalues]; rfl⟩ ⟨?_, ?_⟩
      · have hfills := @Fills.hole V name input _ _ _ (fills_of_leftmost htidy hvalues)
        rw [List.append_nil] at hfills
        exact ⟨_, hfills⟩
      · exact .inl (endsOpen_holes hnext)
    | some segment =>
      cases hcut : Text.cut segment input with
      | none =>
        refine iff_of_false ?_ fun h => ?_
        · rintro ⟨values, h⟩
          rw [leftmost, hnext] at h
          simp only [hcut, Option.bind_none] at h
          cases h
        · obtain ⟨value, rest, rfl, hrest⟩ := fits_hole.mp h.1
          exact Text.cut_eq_none_iff.mp hcut
            ((infix_of_fits hnext hrest).trans List.infix_append_right)
      | some parts =>
        obtain ⟨value, rest⟩ := parts
        rw [leftmost_hole_isSome hnext (nextText_ne_nil htidy hnext) hcut, ih]
        exact fits_hole_iff htidy hnext hcut
  | @last segment nonempty =>
    rw [fits_single]
    constructor
    · rintro ⟨values, h⟩
      have hinput := fits_single.mp ⟨values, fills_of_leftmost (.last nonempty) h⟩
      exact ⟨hinput, .inr fun part _ hpart => (fits_single.mp hpart).trans hinput.symm⟩
    · rintro ⟨rfl, _⟩
      have hfound := @leftmost_text V [] input []
      rw [List.append_nil] at hfound
      exact ⟨[], hfound⟩
  | @text segment name pieces nonempty more ih =>
    by_cases hstart : segment <+: input
    · obtain ⟨rest, rfl⟩ := hstart
      rw [leftmost_text, ih]
      exact fits_text_iff (List.cons_ne_nil _ _)
    · refine iff_of_false ?_ ?_
      · rintro ⟨values, h⟩
        rw [leftmost, if_neg (mt List.isPrefixOf_iff_prefix.mp hstart)] at h
        cases h
      · rintro ⟨hfits, _⟩
        obtain ⟨rest, rfl, _⟩ := fits_text.mp hfits
        exact hstart (List.prefix_append _ _)

/-! ## One value for each name -/

def holes : List (Piece V) → List V
  | [] => []
  | .text _ :: pieces => holes pieces
  | .hole name :: pieces => name :: holes pieces

/-- The holes, and of each whether it does not stand right behind another. -/
def marks : Bool → List (Piece V) → List (V × Bool)
  | _, [] => []
  | _, .text _ :: pieces => marks false pieces
  | behind, .hole name :: pieces => (name, !behind) :: marks true pieces

def expand (values : V → List Char) : List (Piece V) → List Char
  | [] => []
  | .text segment :: pieces => segment ++ expand values pieces
  | .hole name :: pieces => values name ++ expand values pieces

/-- What stands right behind another hole holds nothing. -/
def Quiet (behind : Bool) (pieces : List (Piece V)) (values : List (List Char)) : Prop :=
  ∀ name value, ((name, false), value) ∈ (marks behind pieces).zip values → value = []

/-- A name is bound to the value of one of its holes. -/
def Chosen (choice : V → List Char) (pieces : List (Piece V)) (values : List (List Char)) : Prop :=
  ∀ name ∈ holes pieces, (name, choice name) ∈ (holes pieces).zip values

theorem marks_fst (behind : Bool) : (marks behind pieces).map Prod.fst = holes pieces := by
  induction pieces generalizing behind with
  | nil => rfl
  | cons piece pieces ih =>
    cases piece with
    | text segment => exact ih false
    | hole name => exact congrArg (name :: ·) (ih true)

theorem fills_expand (choice : V → List Char) :
    Fills pieces ((holes pieces).map choice) (expand choice pieces) := by
  induction pieces with
  | nil => exact .nil
  | cons piece pieces ih =>
    cases piece with
    | text segment => exact .text ih
    | hole name => exact .hole ih

theorem expand_eq {choice : V → List Char} (h : Fills pieces values input)
    (hvalues : ∀ name value, (name, value) ∈ (holes pieces).zip values → choice name = value) :
    expand choice pieces = input := by
  induction h with
  | nil => rfl
  | text _ ih => exact congrArg _ (ih hvalues)
  | @hole name value rest pieces values _ ih =>
    have hname : choice name = value := hvalues name value List.mem_cons_self
    have hrest := ih fun name value hmem => hvalues name value (List.mem_cons_of_mem _ hmem)
    rw [expand, hname, hrest]

/-- Fillings differ in length as their values do. -/
theorem Fills.length {others : List (List Char)} {output : List Char} (h : Fills pieces values input)
    (h' : Fills pieces others output) :
    input.length + others.flatten.length = output.length + values.flatten.length := by
  induction h generalizing others output with
  | nil =>
    cases h'
    rfl
  | text _ ih =>
    cases h' with
    | text h' =>
      have hrest := ih h'
      simp only [List.length_append]
      omega
  | hole _ ih =>
    cases h' with
    | hole h' =>
      have hrest := ih h'
      simp only [List.length_append, List.flatten_cons]
      omega

theorem Quiet.tail {values : List (List Char)} {behind : Bool}
    (h : Quiet behind (.hole name :: pieces) (value :: values)) : Quiet true pieces values :=
  fun name value hmem => h name value (List.mem_cons_of_mem _ hmem)

theorem quiet_cons {values : List (List Char)} {behind : Bool} (hvalue : behind = true → value = [])
    (h : Quiet true pieces values) : Quiet behind (.hole name :: pieces) (value :: values) := by
  intro found held hmem
  rcases List.mem_cons.mp hmem with heq | hmem
  · cases behind with
    | false => cases heq
    | true =>
      cases heq
      exact hvalue rfl
  · exact h found held hmem

/-- Behind holes that hold nothing the next text begins. -/
theorem start_of_quiet (h : Fills pieces values input) (hquiet : Quiet true pieces values) :
    (∀ segment, nextText pieces = some segment → segment <+: input) ∧
      (nextText pieces = none → input = []) := by
  induction h with
  | nil => exact ⟨fun segment h => (by cases h), fun _ => rfl⟩
  | @text segment rest _ _ _ _ =>
    refine ⟨fun found hfound => ?_, fun h => by cases h⟩
    cases hfound
    exact List.prefix_append segment rest
  | @hole name value rest pieces values _ ih =>
    have hvalue : value = [] := hquiet name value List.mem_cons_self
    rw [hvalue, List.nil_append]
    exact ih hquiet.tail

theorem quiet_of_leftmost (htidy : Tidy pieces) (h : leftmost pieces input = some values) :
    Quiet false pieces values ∧
      ((∀ segment, nextText pieces = some segment → segment <+: input) →
        (nextText pieces = none → input = []) → Quiet true pieces values) := by
  induction pieces generalizing input values with
  | nil => exact ⟨fun _ _ hmem => (by cases hmem), fun _ _ _ _ hmem => (by cases hmem)⟩
  | cons piece pieces ih =>
    have hmore := htidy.tail
    cases piece with
    | text segment =>
      rw [leftmost] at h
      split at h
      · exact ⟨(ih hmore h).1, fun _ _ => (ih hmore h).1⟩
      · cases h
    | hole name =>
      cases hnext : nextText pieces with
      | none =>
        rw [leftmost_last hnext] at h
        obtain ⟨found, hfound, rfl⟩ := Option.map_eq_some_iff.mp h
        have hquiet := (ih hmore hfound).2
          (fun segment hsegment => by cases hsegment.symm.trans hnext) fun _ => rfl
        exact ⟨quiet_cons (fun h => by cases h) hquiet,
          fun _ hempty => quiet_cons (fun _ => hempty hnext) hquiet⟩
      | some segment =>
        have hsegment := nextText_ne_nil hmore hnext
        cases hcut : Text.cut segment input with
        | none =>
          rw [leftmost, hnext] at h
          simp only [hcut, Option.bind_none] at h
          cases h
        | some parts =>
          obtain ⟨value, rest⟩ := parts
          rw [leftmost_hole hnext hsegment hcut] at h
          obtain ⟨found, hfound, rfl⟩ := Option.map_eq_some_iff.mp h
          have hquiet := (ih hmore hfound).2
            (fun next h => by cases h.symm.trans hnext; exact List.prefix_append _ _)
            fun h => by cases h.symm.trans hnext
          refine ⟨quiet_cons (fun h => by cases h) hquiet,
            fun hstart _ => quiet_cons (fun _ => ?_) hquiet⟩
          obtain ⟨last, hlast⟩ := hstart segment hnext
          have hfirst : input = [] ++ segment ++ last := hlast.symm
          have hle := Text.length_le_of_cut hsegment hcut hfirst
          exact List.length_eq_zero_iff.mp (Nat.le_zero.mp hle)

/-! ## When every filling is read as it was written -/

theorem leftmost_of_quiet (htidy : Tidy pieces) (hfills : Fills pieces values rest)
    (hquiet : Quiet true pieces values) (hrest : leftmost pieces rest = some values)
    (hvalue : ∀ segment, nextText pieces = some segment → ¬ segment <:+: value ++ segment.dropLast) :
    leftmost (.hole name :: pieces) (value ++ rest) = some (value :: values) := by
  obtain ⟨hstart, hempty⟩ := start_of_quiet hfills hquiet
  cases hnext : nextText pieces with
  | none =>
    rw [hempty hnext] at hrest ⊢
    rw [List.append_nil, leftmost_last hnext, hrest]
    rfl
  | some segment =>
    obtain ⟨after, rfl⟩ := hstart segment hnext
    have hsegment := nextText_ne_nil htidy hnext
    have hcut : Text.cut segment (value ++ (segment ++ after)) = some (value, after) :=
      (Text.cut_eq_some_iff hsegment).mpr ⟨(List.append_assoc _ _ _).symm, hvalue segment hnext⟩
    rw [leftmost_hole hnext hsegment hcut, hrest]
    rfl

theorem quiet_of_empty {behind : Bool} (h : ∀ value ∈ values, value = []) :
    Quiet behind pieces values := fun _ value hmem => h value (List.of_mem_zip hmem).2

theorem not_infix_dropLast (hsegment : segment ≠ []) : ¬ segment <:+: [] ++ segment.dropLast := by
  intro h
  have hpos := List.length_pos_iff.mpr hsegment
  have hle := h.length_le
  rw [List.nil_append, List.length_dropLast] at hle
  omega

theorem exists_empty (htidy : Tidy pieces) : ∃ values input, Fills pieces values input ∧
    (∀ value ∈ values, value = []) ∧ leftmost pieces input = some values := by
  induction pieces with
  | nil => exact ⟨[], [], .nil, List.forall_mem_nil _, rfl⟩
  | cons piece pieces ih =>
    obtain ⟨values, input, hfills, hempty, hfound⟩ := ih htidy.tail
    cases piece with
    | text segment =>
      exact ⟨values, _, .text hfills, hempty, by rw [leftmost_text, hfound]⟩
    | hole name =>
      refine ⟨[] :: values, _, .hole hfills, List.forall_mem_cons.mpr ⟨rfl, hempty⟩, ?_⟩
      exact leftmost_of_quiet htidy.tail hfills (quiet_of_empty hempty) hfound fun segment hnext =>
        not_infix_dropLast (nextText_ne_nil htidy.tail hnext)

/-- One character that does not begin a text is no part of a first occurrence. -/
theorem exists_stranger (segment : List Char) :
    ∃ c, ∀ d tail, segment = d :: tail → ¬ segment <:+: [c] ++ segment.dropLast := by
  have hother : ∃ c, segment.head? ≠ some c := by
    by_cases h : segment.head? = some 'a'
    · exact ⟨'b', by rw [h]; decide⟩
    · exact ⟨'a', h⟩
  obtain ⟨c, hc⟩ := hother
  refine ⟨c, fun d tail hsegment h => hc ?_⟩
  have hwhole := h.eq_of_length (by rw [hsegment]; simp)
  rw [hwhole]
  rfl

/-- A hole that begins a run may hold one character where all others hold nothing. -/
theorem exists_spike (htidy : Tidy pieces) {behind : Bool} (h : (name, true) ∈ marks behind pieces) :
    ∃ values input, Fills pieces values input ∧ Quiet behind pieces values ∧
      leftmost pieces input = some values ∧ values.flatten.length = 1 ∧
      ∀ other value, (other, value) ∈ (holes pieces).zip values → other ≠ name → value = [] := by
  induction pieces generalizing behind with
  | nil => cases h
  | cons piece pieces ih =>
    have hmore := htidy.tail
    cases piece with
    | text segment =>
      have hmark : (name, true) ∈ marks false pieces := h
      obtain ⟨values, input, hfills, hquiet, hfound, hlength, hothers⟩ := ih hmore hmark
      exact ⟨values, _, .text hfills, hquiet, by rw [leftmost_text, hfound], hlength, hothers⟩
    | hole found =>
      rcases List.mem_cons.mp h with heq | hmark
      · obtain ⟨rfl, hbehind⟩ := Prod.mk.inj heq
        obtain ⟨values, input, hfills, hempty, hfound⟩ := exists_empty hmore
        have hquiet : Quiet true pieces values := quiet_of_empty hempty
        have hstranger : ∃ c, ∀ segment, nextText pieces = some segment →
            ¬ segment <:+: [c] ++ segment.dropLast := by
          cases hnext : nextText pieces with
          | none => exact ⟨'a', fun _ h => by cases h⟩
          | some segment =>
            obtain ⟨c, hc⟩ := exists_stranger segment
            obtain ⟨d, tail, hsegment⟩ :=
              List.exists_cons_of_ne_nil (nextText_ne_nil hmore hnext)
            exact ⟨c, fun _ h => by cases h; exact hc d tail hsegment⟩
        obtain ⟨c, hc⟩ := hstranger
        refine ⟨[c] :: values, _, .hole hfills, quiet_cons (fun h => by simp [h] at hbehind) hquiet,
          leftmost_of_quiet hmore hfills hquiet hfound hc, ?_, ?_⟩
        · simp [List.flatten_eq_nil_iff.mpr hempty]
        · intro other value hmem hne
          rcases List.mem_cons.mp hmem with heq | hmem
          · exact absurd (Prod.mk.inj heq).1 hne
          · exact hempty value (List.of_mem_zip hmem).2
      · obtain ⟨values, input, hfills, hquiet, hfound, hlength, hothers⟩ := ih hmore hmark
        refine ⟨[] :: values, _, .hole hfills, quiet_cons (fun _ => rfl) hquiet,
          leftmost_of_quiet hmore hfills hquiet hfound fun segment hnext =>
            not_infix_dropLast (nextText_ne_nil hmore hnext), hlength, ?_⟩
        intro other value hmem hne
        rcases List.mem_cons.mp hmem with heq | hmem
        · exact (Prod.mk.inj heq).2
        · exact hothers other value hmem hne

variable [DecidableEq V]

/-- Every name with a hole that begins a run has no other hole. -/
def LeadsOnce (pieces : List (Piece V)) : Prop :=
  ∀ name, (name, true) ∈ marks false pieces → (holes pieces).count name = 1

instance (pieces : List (Piece V)) : Decidable (LeadsOnce pieces) :=
  decidable_of_iff (∀ mark ∈ marks false pieces, mark.2 = true → (holes pieces).count mark.1 = 1)
    ⟨fun h name hmem => h (name, true) hmem rfl,
      fun h mark hmem hlead => h mark.1 (by rw [← hlead]; exact hmem)⟩

theorem value_unique {names : List V} {values : List (List Char)} {other : List Char}
    (hcount : names.count name = 1) (h : (name, value) ∈ names.zip values)
    (h' : (name, other) ∈ names.zip values) : value = other := by
  induction names generalizing values with
  | nil => cases hcount
  | cons found names ih =>
    cases values with
    | nil => cases h
    | cons held values =>
      have hrest : ∀ {held}, (name, held) ∈ names.zip values → found ≠ name := by
        rintro held hmem rfl
        have hpos := List.count_pos_iff.mpr (List.of_mem_zip hmem).1
        rw [List.count_cons_self] at hcount
        omega
      rcases List.mem_cons.mp h with heq | hmem
      · rcases List.mem_cons.mp h' with heq' | hmem'
        · exact (Prod.mk.inj heq).2.trans (Prod.mk.inj heq').2.symm
        · exact absurd (Prod.mk.inj heq).1.symm (hrest hmem')
      · rcases List.mem_cons.mp h' with heq' | hmem'
        · exact absurd (Prod.mk.inj heq').1.symm (hrest hmem)
        · rw [List.count_cons_of_ne (hrest hmem)] at hcount
          exact ih hcount hmem hmem'

theorem length_choices {names : List V} {choice : V → List Char}
    (h : ∀ other ∈ names, other ≠ name → choice other = []) :
    (names.map choice).flatten.length = names.count name * (choice name).length := by
  induction names with
  | nil => simp
  | cons found names ih =>
    have hrest := ih fun other hmem => h other (List.mem_cons_of_mem _ hmem)
    rw [List.map_cons, List.flatten_cons, List.length_append, hrest]
    by_cases hname : found = name
    · rw [hname, List.count_cons_self, Nat.add_mul]
      omega
    · rw [h found List.mem_cons_self hname, List.count_cons_of_ne hname, List.length_nil]
      omega

theorem expand_of_leadsOnce {choice : V → List Char} (hlead : LeadsOnce pieces)
    (hfills : Fills pieces values input) (hquiet : Quiet false pieces values)
    (hchoice : Chosen choice pieces values) : expand choice pieces = input := by
  refine expand_eq hfills fun name value hmem => ?_
  have hchosen := hchoice name (List.of_mem_zip hmem).1
  by_cases hmark : (name, true) ∈ marks false pieces
  · exact value_unique (hlead name hmark) hchosen hmem
  · have hempty : ∀ value, (name, value) ∈ (holes pieces).zip values → value = [] := by
      intro value hmem
      rw [← marks_fst false, List.zip_map_left] at hmem
      obtain ⟨⟨⟨found, lead⟩, held⟩, hfound, heq⟩ := List.mem_map.mp hmem
      obtain ⟨rfl, rfl⟩ := Prod.mk.inj heq
      cases lead with
      | true => exact absurd (List.of_mem_zip hfound).1 hmark
      | false => exact hquiet _ _ hfound
    rw [hempty value hmem, hempty (choice name) hchosen]

/-- A name with another hole than the one that begins a run loses a value somewhere. -/
theorem exists_lost (htidy : Tidy pieces) (h : ¬ LeadsOnce pieces) :
    ∃ input values, leftmost pieces input = some values ∧
      ∀ choice, Chosen choice pieces values → expand choice pieces ≠ input := by
  simp only [LeadsOnce, not_forall] at h
  obtain ⟨name, hmark, hcount⟩ := h
  obtain ⟨values, input, hfills, -, hfound, hlength, hothers⟩ := exists_spike htidy hmark
  refine ⟨input, values, hfound, fun choice hchoice heq => hcount ?_⟩
  have hlengths := hfills.length (fills_expand choice)
  have hothers : ∀ other ∈ holes pieces, other ≠ name → choice other = [] :=
    fun other hmem hne => hothers other (choice other) (hchoice other hmem) hne
  rw [heq, length_choices hothers, hlength] at hlengths
  exact Nat.eq_one_of_mul_eq_one_right (n := (choice name).length) (by omega)

end Piece
end RustMcpCore.Library
