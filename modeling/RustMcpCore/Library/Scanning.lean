import Mathlib.Data.List.Infix
import RustMcpCore.Library.Text

/-! # Where text is cut, split and trimmed

What the scanners of a source find is said by where the parts stand in the text.
-/
namespace RustMcpCore.Library.Text
variable {sep text before after : List Char}

/-- A cut is made where the separator ends for the first time. -/
theorem cut_eq_some_iff (hsep : sep ≠ []) :
    cut sep text = some (before, after) ↔
      text = before ++ sep ++ after ∧ ¬ sep <:+: before ++ sep.dropLast := by
  induction text generalizing before with
  | nil =>
    have hcut : cut sep [] = none := if_neg (mt List.isEmpty_iff.mp hsep)
    rw [hcut]
    refine iff_of_false (fun h => by cases h) fun h => ?_
    have hparts := List.append_eq_nil_iff.mp h.1.symm
    exact hsep (List.append_eq_nil_iff.mp hparts.1).2
  | cons c rest ih =>
    unfold cut
    split
    · rename_i hstart
      obtain ⟨tail, htail⟩ := List.isPrefixOf_iff_prefix.mp hstart
      rw [← htail, List.drop_left]
      constructor
      · intro h
        cases h
        refine ⟨rfl, fun hin => ?_⟩
        have hle := hin.length_le
        have hpos := List.length_pos_iff.mpr hsep
        rw [List.nil_append, List.length_dropLast] at hle
        omega
      · rintro ⟨heq, hfirst⟩
        cases before with
        | nil => rw [List.append_cancel_left heq]
        | cons b before =>
          -- The separator at the start would end before the one behind `before` does.
          refine absurd (List.IsPrefix.isInfix ?_) hfirst
          have hsplit : b :: before ++ sep ++ after =
              b :: before ++ sep.dropLast ++ (sep.getLast hsep :: after) := by
            nth_rewrite 1 [← List.dropLast_append_getLast hsep]
            simp only [List.append_assoc, List.singleton_append]
          refine List.prefix_of_prefix_length_le ⟨tail, heq⟩ ?_ ?_
          · rw [hsplit]
            exact List.prefix_append _ _
          · simp only [List.length_append, List.length_cons, List.length_dropLast]
            omega
    · rename_i hstart
      rw [Option.map_eq_some_iff]
      constructor
      · rintro ⟨⟨found, last⟩, hcut, heq⟩
        cases heq
        obtain ⟨rfl, hfirst⟩ := ih.mp hcut
        refine ⟨rfl, fun hin => ?_⟩
        rcases List.infix_cons_iff.mp hin with hlead | hin
        · have hshort : c :: (found ++ sep.dropLast) <+: c :: (found ++ sep) :=
            (List.prefix_append_right_inj (c :: found)).mpr (List.dropLast_prefix sep)
          exact hstart (List.isPrefixOf_iff_prefix.mpr
            ((hlead.trans hshort).trans (List.prefix_append _ last)))
        · exact hfirst hin
      · rintro ⟨heq, hfirst⟩
        cases before with
        | nil =>
          refine absurd (List.isPrefixOf_iff_prefix.mpr ?_) hstart
          rw [heq, List.nil_append]
          exact List.prefix_append _ _
        | cons b before =>
          obtain ⟨rfl, hrest⟩ := List.cons.inj heq
          exact ⟨(before, after), ih.mpr ⟨hrest, fun hin => hfirst (List.infix_cons hin)⟩, rfl⟩

/-- No occurrence of the separator stands before the cut. -/
theorem length_le_of_cut (hsep : sep ≠ []) (h : cut sep text = some (before, after))
    {first last : List Char} (htext : text = first ++ sep ++ last) :
    before.length ≤ first.length := by
  obtain ⟨hsplit, hfirst⟩ := (cut_eq_some_iff hsep).mp h
  by_contra hshort
  have hpos := List.length_pos_iff.mpr hsep
  have hwithin : first ++ sep <+: before ++ sep.dropLast := by
    have hlast : first ++ sep <+: text := ⟨last, htext.symm⟩
    refine List.prefix_of_prefix_length_le hlast ?_ ?_
    · rw [hsplit, List.append_assoc]
      exact (List.prefix_append_right_inj before).mpr
        ((List.dropLast_prefix sep).trans (List.prefix_append sep after))
    · rw [List.length_append, List.length_append, List.length_dropLast]
      omega
  exact hfirst (List.infix_append_right.trans hwithin.isInfix)

theorem cut_char_eq_some_iff {c : Char} :
    cut [c] text = some (before, after) ↔ text = before ++ c :: after ∧ c ∉ before := by
  rw [cut_eq_some_iff (List.cons_ne_nil c []), List.append_assoc, List.singleton_append,
    List.dropLast_singleton, List.append_nil, List.singleton_infix_iff]

theorem cut_char_eq_none_iff {c : Char} : cut [c] text = none ↔ c ∉ text := by
  rw [cut_eq_none_iff, List.singleton_infix_iff]

/-- A mark of two characters cannot begin inside itself. -/
theorem cut_mark_eq_some_iff {a b : Char} (hab : a ≠ b) :
    cut [a, b] text = some (before, after) ↔
      text = before ++ a :: b :: after ∧ ¬ [a, b] <:+: before := by
  have hlast : [a, b] <:+: before ++ [a] ↔ [a, b] <:+: before := by
    rw [List.infix_concat_iff, or_iff_right]
    rintro ⟨lead, hlead⟩
    have hends := congrArg List.getLast? hlead
    rw [List.getLast?_append, List.getLast?_concat] at hends
    exact hab (Option.some.inj hends).symm
  rw [cut_eq_some_iff (List.cons_ne_nil a [b]), List.append_assoc]
  exact and_congr Iff.rfl (not_congr hlast)

/-- A character that is not part of a mark keeps it from reaching across. -/
theorem mark_infix_append {a b c : Char} (ha : c ≠ a) (hb : c ≠ b) :
    [a, b] <:+: before ++ c :: after ↔ [a, b] <:+: before ∨ [a, b] <:+: after := by
  have hnil : ¬ [a, b] <:+: [] := fun h => List.cons_ne_nil a [b] (List.infix_nil.mp h)
  induction before with
  | nil =>
    have hhead : ¬ [a, b] <+: c :: after := fun h => ha (List.cons_prefix_cons.mp h).1.symm
    rw [List.nil_append, List.infix_cons_iff, or_iff_right hhead, or_iff_right hnil]
  | cons d before ih =>
    rw [List.cons_append, List.infix_cons_iff, List.infix_cons_iff, or_assoc]
    refine or_congr ?_ ih
    rw [List.cons_prefix_cons, List.cons_prefix_cons]
    refine and_congr_right fun _ => ?_
    cases before with
    | nil =>
      refine iff_of_false (fun h => hb (List.cons_prefix_cons.mp h).1.symm) fun h => ?_
      exact List.cons_ne_nil b [] (List.prefix_nil.mp h)
    | cons e before =>
      rw [List.cons_append, List.cons_prefix_cons, List.cons_prefix_cons]
      exact and_congr_right fun _ => iff_of_true (List.nil_prefix) (List.nil_prefix)

theorem stripPrefix_eq_some_iff {s lead rest : String} :
    stripPrefix s lead = some rest ↔ s = lead ++ rest := by
  constructor
  · intro h
    unfold stripPrefix at h
    split at h
    · rename_i hstart
      obtain ⟨tail, htail⟩ := List.isPrefixOf_iff_prefix.mp hstart
      rw [← htail, List.drop_left, Option.some.injEq] at h
      rw [← String.toList_inj, String.toList_append, ← htail, ← h, String.toList_ofList]
    · cases h
  · rintro rfl
    exact stripPrefix_append lead rest

/-! ## Trimming -/

/-- Trimming leaves what stands between white space. -/
theorem trim_split (s : String) : ∃ lead trail : List Char, lead.all isWhitespace ∧
    trail.all isWhitespace ∧ s.toList = lead ++ (trim s).toList ++ trail := by
  refine ⟨s.toList.takeWhile isWhitespace, (s.toList.dropWhile isWhitespace).rtakeWhile isWhitespace,
    List.all_takeWhile, ?_, ?_⟩
  · exact List.all_eq_true.mpr fun c hc => List.mem_rtakeWhile_imp hc
  · rw [trim, String.toList_ofList, List.append_assoc, List.rdropWhile_append_rtakeWhile,
      List.takeWhile_append_dropWhile]

theorem dropWhile_of_head {A : Type} {p : A → Bool} {l : List A} (h : ∀ a ∈ l.head?, p a = false) :
    l.dropWhile p = l := by
  cases l with
  | nil => rfl
  | cons a l => exact List.dropWhile_cons_of_neg (Bool.eq_false_iff.mp (h a rfl))

/-- Nothing before a stop is dropped from the end. -/
theorem rdropWhile_append_cons {A : Type} {p : A → Bool} {first last : List A} {a : A}
    (h : p a = false) : (first ++ a :: last).rdropWhile p = first ++ a :: last.rdropWhile p := by
  induction last using List.reverseRecOn with
  | nil => exact List.rdropWhile_concat_neg _ _ _ (Bool.eq_false_iff.mp h)
  | append_singleton last b ih =>
    rw [← List.cons_append, ← List.append_assoc, List.rdropWhile_concat, List.rdropWhile_concat, ih]
    split
    · rfl
    · rw [List.append_assoc]
      rfl

/-- Text that neither begins nor ends in white space is found between it. -/
theorem toList_trim {s : String} {lead core trail : List Char}
    (hs : s.toList = lead ++ core ++ trail) (hlead : lead.all isWhitespace)
    (htrail : trail.all isWhitespace) (hfirst : ∀ c ∈ core.head?, isWhitespace c = false)
    (hlast : ∀ c ∈ core.getLast?, isWhitespace c = false) : (trim s).toList = core := by
  rw [trim, String.toList_ofList, hs, List.append_assoc,
    List.dropWhile_append_of_pos (List.all_eq_true.mp hlead)]
  cases hcore : core with
  | nil =>
    rw [List.nil_append, List.dropWhile_eq_nil_iff.mpr (List.all_eq_true.mp htrail)]
    rfl
  | cons c rest =>
    have hstart : ((c :: rest) ++ trail).dropWhile isWhitespace = (c :: rest) ++ trail := by
      refine dropWhile_of_head fun d hd => hfirst d ?_
      rw [hcore]
      exact hd
    have hback : ∀ d ∈ trail.reverse, isWhitespace d = true := fun d hd =>
      List.all_eq_true.mp htrail d (List.mem_reverse.mp hd)
    rw [hstart, List.rdropWhile, List.reverse_append, List.dropWhile_append_of_pos hback,
      dropWhile_of_head, List.reverse_reverse]
    intro d hd
    rw [List.head?_reverse, ← hcore] at hd
    exact hlast d hd

/-- Text that neither begins nor ends in white space stays as it is. -/
theorem trim_eq_self {s : String} (hfirst : ∀ c ∈ s.toList.head?, isWhitespace c = false)
    (hlast : ∀ c ∈ s.toList.getLast?, isWhitespace c = false) : trim s = s := by
  have hs : s.toList = [] ++ s.toList ++ [] := by rw [List.nil_append, List.append_nil]
  exact String.toList_inj.mp (toList_trim hs rfl rfl hfirst hlast)

/-- What is trimmed from the end comes next in the text. -/
theorem trim_stop {s : String} {last : Char} (hfirst : ∀ c ∈ s.toList.head?, isWhitespace c = false) :
    ∃ stop, (isWhitespace stop = true ∨ stop = last) ∧
      (trim s).toList ++ [stop] <+: s.toList ++ [last] := by
  obtain ⟨lead, trail, hlead, htrail, hs⟩ := trim_split s
  have hnolead : lead = [] := by
    cases lead with
    | nil => rfl
    | cons c lead =>
      have hc := hfirst c (by rw [hs]; rfl)
      rw [List.all_cons, hc] at hlead
      cases hlead
  subst hnolead
  rw [List.nil_append] at hs
  rw [hs]
  cases trail with
  | nil => exact ⟨last, .inr rfl, by rw [List.append_nil]⟩
  | cons c trail =>
    refine ⟨c, .inl (List.all_eq_true.mp htrail c List.mem_cons_self), trail ++ [last], ?_⟩
    simp only [List.append_assoc, List.cons_append, List.nil_append]

/-! ## Quoting -/

/-- Quoting moves the first occurrence of a character that stands for itself only, so that
no text goes on with it where the text's own quoted form does. -/
theorem not_prefix_of_quoted {escape : Char → List Char} {quote stop : Char}
    {part text : List Char} (hescape : ∀ c, escape c ≠ []) (hstop : ∀ c, stop ∈ escape c → c = stop)
    (hquote : stop ≠ quote) (hpart : part <+: text) :
    ¬ part ++ [stop] <+: quote :: text.flatMap escape ++ [quote] := by
  intro hnext
  obtain ⟨first, rest, heq, hfirst⟩ := List.eq_append_cons_of_mem
    (List.mem_append_right part (List.mem_singleton.mpr (Eq.refl stop)))
  have hlen : first.length ≤ part.length := by
    have hlengths := congrArg List.length heq
    simp only [List.length_append, List.length_cons, List.length_nil] at hlengths
    omega
  have hlead : first <+: part := List.prefix_of_prefix_length_le
    (heq ▸ List.prefix_append first (stop :: rest)) (List.prefix_append part [stop]) hlen
  have hstop' : first ++ [stop] <+: quote :: text.flatMap escape ++ [quote] := by
    refine List.IsPrefix.trans ⟨rest, ?_⟩ hnext
    rw [heq, List.append_assoc, List.singleton_append]
  have hquoted : quote :: first.flatMap escape <+: quote :: text.flatMap escape ++ [quote] := by
    obtain ⟨after, rfl⟩ := hlead.trans hpart
    refine ⟨after.flatMap escape ++ [quote], ?_⟩
    simp only [List.flatMap_append, List.cons_append, List.append_assoc]
  -- The quoted form of what stands before `stop` is longer, and holds no `stop`.
  have hlonger : first.length ≤ (first.flatMap escape).length := by
    clear hlead hlen hquoted hstop' heq hfirst
    induction first with
    | nil => exact le_refl _
    | cons c first ih =>
      have hpos := List.length_pos_iff.mpr (hescape c)
      rw [List.flatMap_cons, List.length_append, List.length_cons]
      omega
  have hwithin : first ++ [stop] <+: quote :: first.flatMap escape := by
    refine List.prefix_of_prefix_length_le hstop' hquoted ?_
    rw [List.length_append, List.length_singleton, List.length_cons]
    omega
  have hmem := hwithin.subset (List.mem_append_right first (List.mem_singleton.mpr (Eq.refl stop)))
  rcases List.mem_cons.mp hmem with h | h
  · exact hquote h
  · obtain ⟨c, hc, hescaped⟩ := List.mem_flatMap.mp h
    exact hfirst (hstop c hescaped ▸ hc)

/-! ## Numbers -/

theorem lt_of_parseUsize {s : String} {n : ℕ} (h : parseUsize s = some n) : n < 2 ^ 64 := by
  have hread : ∀ {value : ℕ} {malformed : Bool}, (if malformed then none
      else if value < 2 ^ 64 then some value else none) = some n → n < 2 ^ 64 := by
    intro value malformed hvalue
    split at hvalue
    · cases hvalue
    · split at hvalue
      · cases hvalue
        assumption
      · cases hvalue
  exact hread h

/-- Digits are read as the number they write, where it fits. -/
theorem parseUsize_digits {digits : List Char} (hne : digits ≠ []) (hdigits : digits.all Char.isDigit) :
    parseUsize (.ofList digits) =
      if digits.foldl (fun n c => 10 * n + (c.toNat - '0'.toNat)) 0 < 2 ^ 64 then
        some (digits.foldl (fun n c => 10 * n + (c.toNat - '0'.toNat)) 0) else none := by
  have hempty : digits.isEmpty = false := List.isEmpty_eq_false_iff.mpr hne
  have hdecimal : (digits.isEmpty || !digits.all Char.isDigit) = false := by
    rw [hempty, hdigits]
    rfl
  simp only [parseUsize, String.toList_ofList]
  split
  · cases hdigits
  · rw [hdecimal]
    rfl

end RustMcpCore.Library.Text
