import Mathlib.Algebra.Group.Nat.Defs
import Mathlib.Data.List.DropRight

/-! # Splitting and trimming text

The string operations of the source on the characters of a string.
-/
namespace RustMcpCore.Library.Text

/-- The Unicode property `White_Space`. -/
def isWhitespace (c : Char) : Bool :=
  let n := c.toNat
  (9 ≤ n && n ≤ 13) || n = 0x20 || n = 0x85 || n = 0xA0 || n = 0x1680 ||
    (0x2000 ≤ n && n ≤ 0x200A) || n = 0x2028 || n = 0x2029 || n = 0x202F || n = 0x205F ||
    n = 0x3000

def trim (s : String) : String :=
  .ofList ((s.toList.dropWhile isWhitespace).rdropWhile isWhitespace)

def trimEnd (s : String) : String := .ofList (s.toList.rdropWhile isWhitespace)

def trimEndMatches (s : String) (c : Char) : String := .ofList (s.toList.rdropWhile (· = c))

def trimMatches (s : String) (c : Char) : String :=
  .ofList ((s.toList.dropWhile (· = c)).rdropWhile (· = c))

def stripPrefix (s lead : String) : Option String :=
  if lead.toList.isPrefixOf s.toList then some (.ofList (s.toList.drop lead.toList.length))
  else none

def stripSuffix (s tail : String) : Option String :=
  if tail.toList.isSuffixOf s.toList then
    some (.ofList (s.toList.take (s.toList.length - tail.toList.length)))
  else none

/-- The text before and after the first occurrence of a separator. -/
def cut (sep : List Char) : List Char → Option (List Char × List Char)
  | [] => if sep.isEmpty then some ([], []) else none
  | c :: rest =>
    if sep.isPrefixOf (c :: rest) then some ([], (c :: rest).drop sep.length)
    else (cut sep rest).map fun parts => (c :: parts.1, parts.2)

/-- The text after a cut is shorter by the separator. -/
theorem length_of_cut {sep text before after : List Char} (h : cut sep text = some (before, after)) :
    after.length + sep.length ≤ text.length := by
  induction text generalizing before with
  | nil =>
    unfold cut at h
    split at h
    · rename_i hempty
      cases h
      rw [List.isEmpty_iff.mp hempty]
      exact le_refl _
    · cases h
  | cons c rest ih =>
    unfold cut at h
    split at h
    · rename_i hprefix
      cases h
      have hle := (List.isPrefixOf_iff_prefix.mp hprefix).length_le
      rw [List.length_drop]
      omega
    · obtain ⟨parts, hparts, heq⟩ := Option.map_eq_some_iff.mp h
      cases heq
      have hle := ih hparts
      rw [List.length_cons]
      omega

theorem cut_eq_none_iff {sep text : List Char} : cut sep text = none ↔ ¬ sep <:+: text := by
  induction text with
  | nil =>
    unfold cut
    rw [List.infix_nil]
    split
    · rename_i hempty
      exact iff_of_false (Option.some_ne_none _) (not_not.mpr (List.isEmpty_iff.mp hempty))
    · rename_i hempty
      exact iff_of_true rfl (mt List.isEmpty_iff.mpr hempty)
  | cons c rest ih =>
    unfold cut
    rw [List.infix_cons_iff, not_or]
    split
    · rename_i hprefix
      exact iff_of_false (Option.some_ne_none _) fun h => h.1 (List.isPrefixOf_iff_prefix.mp hprefix)
    · rename_i hprefix
      rw [Option.map_eq_none_iff, ih]
      exact ⟨fun h => ⟨mt List.isPrefixOf_iff_prefix.mpr hprefix, h⟩, fun h => h.2⟩

/-- What is left after trimming stood in the text. -/
theorem trim_infix (s : String) : (trim s).toList <:+: s.toList := by
  unfold trim
  rw [String.toList_ofList]
  exact (List.rdropWhile_prefix isWhitespace _).isInfix.trans (List.dropWhile_suffix isWhitespace).isInfix

/-- `str::parse::<usize>` on a 64-bit machine. -/
def parseUsize (s : String) : Option ℕ :=
  let digits := match s.toList with
    | '+' :: rest => rest
    | all => all
  if digits.isEmpty || !digits.all Char.isDigit then none
  else
    let n := digits.foldl (fun n c => 10 * n + (c.toNat - '0'.toNat)) 0
    if n < 2 ^ 64 then some n else none

/-- The decimal form of a number is read as that number, where it fits. -/
theorem parseUsize_toString (n : ℕ) :
    parseUsize (toString n) = if n < 2 ^ 64 then some n else none := by
  have htext : (toString n).toList = Nat.toDigits 10 n := Nat.toList_repr
  have hdigits : ∀ c ∈ Nat.toDigits 10 n, c.isDigit = true := fun c hc =>
    Nat.isDigit_of_mem_toDigits (by decide) (by decide) hc
  have hvalue : (Nat.toDigits 10 n).foldl (fun n c => 10 * n + (c.toNat - '0'.toNat)) 0 = n := by
    rw [← Nat.ofDigitChars_eq_foldl]
    exact Nat.ofDigitChars_ten_toDigits
  have hdecimal : ((Nat.toDigits 10 n).isEmpty || !(Nat.toDigits 10 n).all Char.isDigit) = false := by
    rw [List.all_eq_true.mpr hdigits, List.isEmpty_eq_false_iff.mpr Nat.toDigits_ne_nil]
    rfl
  simp only [parseUsize, htext]
  split
  · rename_i rest hplus
    have hplus := hdigits '+' (hplus ▸ List.mem_cons_self)
    cases hplus
  · rw [hdecimal, hvalue]
    rfl

theorem stripPrefix_append (lead rest : String) : stripPrefix (lead ++ rest) lead = some rest := by
  have hprefix : lead.toList.isPrefixOf (lead ++ rest).toList = true := by
    rw [String.toList_append]
    exact List.isPrefixOf_iff_prefix.mpr (List.prefix_append _ _)
  rw [stripPrefix, if_pos hprefix, String.toList_append, List.drop_left, String.ofList_toList]

/-- All segments between separators, empty ones included. -/
def split (s : String) (sep : Char) : List String := (s.toList.splitOn sep).map .ofList

def splitWhitespace (s : String) : List String :=
  ((s.toList.splitOnP isWhitespace).filter fun segment => !segment.isEmpty).map .ofList

def asciiLower (c : Char) : Char :=
  if 'A' ≤ c ∧ c ≤ 'Z' then .ofNat (c.toNat + 32) else c

def toAsciiLowercase (s : String) : String := .ofList (s.toList.map asciiLower)

def asciiUpper (c : Char) : Char :=
  if 'a' ≤ c ∧ c ≤ 'z' then .ofNat (c.toNat - 32) else c

def toAsciiUppercase (s : String) : String := .ofList (s.toList.map asciiUpper)

def eqIgnoreAsciiCase (s other : String) : Bool := toAsciiLowercase s = toAsciiLowercase other

end RustMcpCore.Library.Text
