import Mathlib.Data.List.Basic
import Mathlib.Data.List.Infix

/-! # JSON text from left to right

A reader takes one character after the other and gives out tokens. What it does next depends on
the containers it is in and on what may follow, never on what a string literal has said.
-/
namespace RustMcpCore.Library.JsonText

inductive Token
  | beginArray
  | endArray
  | beginObject
  | endObject
  | key (text : List Char)
  | string (text : List Char)
  | number (text : List Char)
  | bool (b : Bool)
  | null
  deriving DecidableEq

/-! ## String literals -/

/-- A string literal behind its opening quote, with the characters it has stood for so far. -/
inductive Quoted
  | text (read : List Char)
  | escape (read : List Char)
  /-- The digits of a code unit, which may be the second one of a pair. -/
  | hex (read : List Char) (high : Option ℕ) (count value : ℕ)
  /-- Behind the first code unit of a pair. -/
  | paired (read : List Char) (high : ℕ)
  | pairedEscape (read : List Char) (high : ℕ)
  deriving DecidableEq

def hexDigit (c : Char) : Option ℕ :=
  if '0' ≤ c ∧ c ≤ '9' then some (c.toNat - '0'.toNat)
  else if 'a' ≤ c ∧ c ≤ 'f' then some (c.toNat - 'a'.toNat + 10)
  else if 'A' ≤ c ∧ c ≤ 'F' then some (c.toNat - 'A'.toNat + 10)
  else none

def unescape : Char → Option Char
  | '"' => some '"'
  | '\\' => some '\\'
  | '/' => some '/'
  | 'b' => some '\x08'
  | 'f' => some '\x0c'
  | 'n' => some '\n'
  | 'r' => some '\r'
  | 't' => some '\t'
  | _ => none

namespace Quoted

/-- A code unit of four digits. A surrogate needs its other half. -/
def unit (read : List Char) (high : Option ℕ) (value : ℕ) : Option Quoted :=
  match high with
  | none =>
    if 0xD800 ≤ value ∧ value < 0xDC00 then some (.paired read value)
    else if 0xDC00 ≤ value ∧ value < 0xE000 then none
    else some (.text (read ++ [.ofNat value]))
  | some high =>
    if 0xDC00 ≤ value ∧ value < 0xE000 then
      some (.text (read ++ [.ofNat (0x10000 + (high - 0xD800) * 0x400 + (value - 0xDC00))]))
    else none

/-- One character within a literal. The quote that closes it is not taken here. -/
def step : Quoted → Char → Option Quoted
  | .text read, c =>
    if c = '\\' then some (.escape read)
    else if c = '"' ∨ c.toNat < 0x20 then none
    else some (.text (read ++ [c]))
  | .escape read, c =>
    if c = 'u' then some (.hex read none 0 0) else (unescape c).map fun c => .text (read ++ [c])
  | .hex read high count value, c =>
    (hexDigit c).bind fun digit =>
      if count = 3 then unit read high (value * 16 + digit)
      else some (.hex read high (count + 1) (value * 16 + digit))
  | .paired read high, c => if c = '\\' then some (.pairedEscape read high) else none
  | .pairedEscape read high, c => if c = 'u' then some (.hex read (some high) 0 0) else none

def run (quoted : Quoted) (text : List Char) : Option Quoted := text.foldlM step quoted

/-- What a literal has stood for so far. -/
def read : Quoted → List Char
  | .text read | .escape read | .hex read _ _ _ | .paired read _ | .pairedEscape read _ => read

/-- The characters that it took at least. -/
def taken : Quoted → ℕ
  | .text read => read.length
  | .escape read | .hex read _ _ _ | .paired read _ | .pairedEscape read _ => read.length + 1

end Quoted

/-! ## Numbers -/

inductive Numeral
  | minus
  | zero
  | whole
  | point
  | fraction
  | exponent
  | sign
  | power
  deriving DecidableEq

namespace Numeral

def start (c : Char) : Option Numeral :=
  if c = '-' then some .minus
  else if c = '0' then some .zero
  else if c.isDigit then some .whole
  else none

def afterWhole (c : Char) : Option Numeral :=
  if c = '.' then some .point
  else if c = 'e' ∨ c = 'E' then some .exponent
  else none

def step : Numeral → Char → Option Numeral
  | .minus, c => if c = '0' then some .zero else if c.isDigit then some .whole else none
  | .zero, c => afterWhole c
  | .whole, c => if c.isDigit then some .whole else afterWhole c
  | .point, c => if c.isDigit then some .fraction else none
  | .fraction, c =>
    if c.isDigit then some .fraction else if c = 'e' ∨ c = 'E' then some .exponent else none
  | .exponent, c =>
    if c = '+' ∨ c = '-' then some .sign else if c.isDigit then some .power else none
  | .sign, c | .power, c => if c.isDigit then some .power else none

def complete : Numeral → Bool
  | .zero | .whole | .fraction | .power => true
  | .minus | .point | .exponent | .sign => false

end Numeral

/-! ## The reader -/

inductive Container
  | array
  | object
  deriving DecidableEq

/-- What may come next between tokens. -/
inductive Expects
  | value
  /-- A value, or the end of an array. -/
  | item
  /-- A key, or the end of an object. -/
  | member
  | key
  | colon
  /-- What follows a value. -/
  | more
  deriving DecidableEq

inductive Reader
  | between (stack : List Container) (expects : Expects)
  | literal (stack : List Container) (asKey : Bool) (quoted : Quoted)
  | word (stack : List Container) (token : Token) (rest : List Char)
  | number (stack : List Container) (numeral : Numeral) (text : List Char)
  deriving DecidableEq

def isWhitespace (c : Char) : Bool := c = ' ' ∨ c = '\n' ∨ c = '\t' ∨ c = '\r'

namespace Reader

/-- A step to a reader that gives out no token. -/
def silent (reader : Reader) : Option (Reader × List Token) := some (reader, [])

def beginLiteral (stack : List Container) (asKey : Bool) : Option (Reader × List Token) :=
  silent (.literal stack asKey (.text []))

def beginValue (stack : List Container) (c : Char) : Option (Reader × List Token) :=
  if c = '"' then beginLiteral stack false
  else if c = '[' then some (.between (.array :: stack) .item, [.beginArray])
  else if c = '{' then some (.between (.object :: stack) .member, [.beginObject])
  else if c = 't' then silent (.word stack (.bool true) ['r', 'u', 'e'])
  else if c = 'f' then silent (.word stack (.bool false) ['a', 'l', 's', 'e'])
  else if c = 'n' then silent (.word stack .null ['u', 'l', 'l'])
  else (Numeral.start c).bind fun numeral => silent (.number stack numeral [c])

/-- What follows a value. Outside of all containers there is nothing. -/
def afterValue : List Container → Char → Option (Reader × List Token)
  | [], _ => none
  | .array :: stack, c =>
    if c = ',' then silent (.between (.array :: stack) .value)
    else if c = ']' then some (.between stack .more, [.endArray])
    else none
  | .object :: stack, c =>
    if c = ',' then silent (.between (.object :: stack) .key)
    else if c = '}' then some (.between stack .more, [.endObject])
    else none

def stepBetween (stack : List Container) (expects : Expects) (c : Char) :
    Option (Reader × List Token) :=
  if isWhitespace c then silent (.between stack expects)
  else
    match expects with
    | .value => beginValue stack c
    | .item => if c = ']' then afterValue stack c else beginValue stack c
    | .member =>
      if c = '}' then afterValue stack c else if c = '"' then beginLiteral stack true else none
    | .key => if c = '"' then beginLiteral stack true else none
    | .colon => if c = ':' then silent (.between stack .value) else none
    | .more => afterValue stack c

/-- Behind a literal a key has its colon, and a value what follows values. -/
def following (stack : List Container) (asKey : Bool) : Reader :=
  .between stack (if asKey then .colon else .more)

def literalToken (asKey : Bool) (text : List Char) : Token := if asKey then .key text else .string text

def stepLiteral (stack : List Container) (asKey : Bool) (quoted : Quoted) (c : Char) :
    Option (Reader × List Token) :=
  match quoted with
  | .text read =>
    if c = '"' then some (following stack asKey, [literalToken asKey read])
    else (Quoted.step (.text read) c).bind fun quoted => silent (.literal stack asKey quoted)
  | quoted => (quoted.step c).bind fun quoted => silent (.literal stack asKey quoted)

def stepWord (stack : List Container) (token : Token) (c : Char) :
    List Char → Option (Reader × List Token)
  | [] => none
  | [last] => if c = last then some (.between stack .more, [token]) else none
  | next :: rest => if c = next then silent (.word stack token rest) else none

/-- A number ends where it cannot go on. -/
def stepNumber (stack : List Container) (numeral : Numeral) (text : List Char) (c : Char) :
    Option (Reader × List Token) :=
  match numeral.step c with
  | some numeral => silent (.number stack numeral (text ++ [c]))
  | none =>
    if numeral.complete then
      (stepBetween stack .more c).map fun (reader, tokens) => (reader, .number text :: tokens)
    else none

def step : Reader → Char → Option (Reader × List Token)
  | .between stack expects, c => stepBetween stack expects c
  | .literal stack asKey quoted, c => stepLiteral stack asKey quoted c
  | .word stack token rest, c => stepWord stack token c rest
  | .number stack numeral text, c => stepNumber stack numeral text c

def run : Reader → List Char → Option (Reader × List Token)
  | reader, [] => some (reader, [])
  | reader, c :: text =>
    (step reader c).bind fun (reader, tokens) =>
      (run reader text).map fun (reader, rest) => (reader, tokens ++ rest)

/-- The tokens that are complete only with the end of the text. -/
def finish : Reader → Option (List Token)
  | .between [] .more => some []
  | .number [] numeral text => if numeral.complete then some [.number text] else none
  | _ => none

/-- The tokens of the rest of a text. -/
def rest (reader : Reader) (text : List Char) : Option (List Token) :=
  (reader.run text).bind fun (reader, tokens) => reader.finish.map (tokens ++ ·)

end Reader

/-- The tokens of a JSON text. -/
def tokens (text : List Char) : Option (List Token) := Reader.rest (.between [] .value) text

example : tokens "\x7b\"a\": [1.5e3, true], \"b\\u00e9\": null\x7d".toList =
    some [.beginObject, .key ['a'], .beginArray, .number ['1', '.', '5', 'e', '3'], .bool true,
      .endArray, .key ['b', 'é'], .null, .endObject] := by
  decide

/-! ## What a literal stands for -/

/-- Text that stands for itself in a literal. -/
def Plain (text : List Char) : Prop := ∀ c ∈ text, c ≠ '"' ∧ c ≠ '\\' ∧ ¬ c.toNat < 0x20

instance (text : List Char) : Decidable (Plain text) :=
  decidable_of_iff ((text.all fun c => c ≠ '"' && c ≠ '\\' && !decide (c.toNat < 0x20)) = true) (by
    simp only [Plain, List.all_eq_true, Bool.and_eq_true, decide_eq_true_eq, Bool.not_eq_true',
      decide_eq_false_iff_not, and_assoc])

namespace Quoted
variable {quoted next : Quoted} {text value : List Char} {c : Char}

/-- One character may add one to what a literal stands for. -/
structure Grows (quoted next : Quoted) : Prop where
  reads : quoted.read <+: next.read
  length : next.read.length ≤ quoted.read.length + 1
  taken : next.taken ≤ quoted.taken + 1

theorem length_le_taken (quoted : Quoted) : quoted.read.length ≤ quoted.taken := by
  cases quoted with
  | text read => exact Nat.le_refl _
  | escape read => exact Nat.le_succ _
  | hex read high count value => exact Nat.le_succ _
  | paired read high => exact Nat.le_succ _
  | pairedEscape read high => exact Nat.le_succ _

theorem grows_text (quoted : Quoted) (c : Char) : quoted.Grows (.text (quoted.read ++ [c])) where
  reads := List.prefix_append _ _
  length := (List.length_append).le
  taken := by
    change (quoted.read ++ [c]).length ≤ _
    rw [List.length_append]
    exact Nat.add_le_add_right quoted.length_le_taken 1

/-- A character that is part of an escape adds nothing. -/
theorem grows_same (hread : next.read = quoted.read) (htaken : next.taken = quoted.read.length + 1) :
    quoted.Grows next where
  reads := by rw [hread]
  length := by
    rw [hread]
    exact Nat.le_succ _
  taken := by
    rw [htaken]
    exact Nat.add_le_add_right quoted.length_le_taken 1

theorem grows_unit {high : Option ℕ} {value : ℕ} (h : unit quoted.read high value = some next) :
    quoted.Grows next := by
  cases high with
  | none =>
    simp only [unit] at h
    split at h
    · rw [← Option.some.inj h]
      exact grows_same rfl rfl
    · split at h
      · cases h
      · rw [← Option.some.inj h]
        exact grows_text quoted _
  | some high =>
    simp only [unit] at h
    split at h
    · rw [← Option.some.inj h]
      exact grows_text quoted _
    · cases h

theorem grows_step (h : quoted.step c = some next) : quoted.Grows next := by
  cases quoted with
  | text read =>
    simp only [step] at h
    split at h
    · rw [← Option.some.inj h]
      exact grows_same rfl rfl
    · split at h
      · cases h
      · rw [← Option.some.inj h]
        exact grows_text (.text read) c
  | escape read =>
    simp only [step] at h
    split at h
    · rw [← Option.some.inj h]
      exact grows_same rfl rfl
    · obtain ⟨char, -, rfl⟩ := Option.map_eq_some_iff.mp h
      exact grows_text (.escape read) char
  | hex read high count value =>
    obtain ⟨digit, -, hunit⟩ := Option.bind_eq_some_iff.mp h
    split at hunit
    · exact @grows_unit (.hex read high count value) next high _ hunit
    · rw [← Option.some.inj hunit]
      exact grows_same rfl rfl
  | paired read high =>
    simp only [step] at h
    split at h
    · rw [← Option.some.inj h]
      exact grows_same rfl rfl
    · cases h
  | pairedEscape read high =>
    simp only [step] at h
    split at h
    · rw [← Option.some.inj h]
      exact grows_same rfl rfl
    · cases h

theorem run_cons (quoted : Quoted) (c : Char) (text : List Char) :
    quoted.run (c :: text) = (quoted.step c).bind fun next => next.run text :=
  List.foldlM_cons

theorem run_append (quoted : Quoted) (text more : List Char) :
    quoted.run (text ++ more) = (quoted.run text).bind fun next => next.run more :=
  List.foldlM_append

theorem run_grows (h : quoted.run text = some next) :
    quoted.read <+: next.read ∧ next.read.length ≤ quoted.read.length + text.length ∧
      next.taken ≤ quoted.taken + text.length := by
  induction text generalizing quoted with
  | nil =>
    rw [← Option.some.inj h]
    exact ⟨List.prefix_rfl, Nat.le_refl _, Nat.le_refl _⟩
  | cons c text ih =>
    rw [run_cons] at h
    obtain ⟨middle, hstep, hrest⟩ := Option.bind_eq_some_iff.mp h
    have hgrows := grows_step hstep
    obtain ⟨hreads, hlength, htaken⟩ := ih hrest
    have hstepLength := hgrows.length
    have hstepTaken := hgrows.taken
    rw [List.length_cons]
    exact ⟨hgrows.reads.trans hreads, by omega, by omega⟩

/-- Text that has stood for as many characters as it has is plain. -/
theorem plain_of_length {read : List Char} (h : run (.text read) text = some (.text value))
    (hlength : value.length = read.length + text.length) : Plain text := by
  induction text generalizing read with
  | nil => exact fun _ hmem => absurd hmem List.not_mem_nil
  | cons c text ih =>
    rw [run_cons] at h
    obtain ⟨middle, hstep, hrest⟩ := Option.bind_eq_some_iff.mp h
    simp only [step] at hstep
    rw [List.length_cons] at hlength
    split at hstep
    · obtain rfl := Option.some.inj hstep
      have hle := (run_grows hrest).2.1
      change value.length ≤ read.length + text.length at hle
      omega
    · rename_i hescape
      split at hstep
      · cases hstep
      · rename_i hplain
        obtain rfl := Option.some.inj hstep
        obtain ⟨hquote, hcontrol⟩ := not_or.mp hplain
        refine List.forall_mem_cons.mpr ⟨⟨hquote, hescape, hcontrol⟩, ih hrest ?_⟩
        rw [List.length_append, List.length_singleton]
        omega

/-- A quote within a literal is escaped, so that it stands for itself. -/
theorem step_quote (h : quoted.step '"' = some next) :
    quoted = .escape quoted.read ∧ next = .text (quoted.read ++ ['"']) := by
  cases quoted with
  | text read => cases h
  | escape read => exact ⟨rfl, (Option.some.inj h).symm⟩
  | hex read high count value => cases h
  | paired read high => cases h
  | pairedEscape read high => cases h

/-- No literal stands for what is before a quote of its own text, with the quote. -/
theorem not_reads_itself {after : List Char}
    (h : run (.text []) (value ++ '"' :: after) = some (.text value)) : False := by
  obtain ⟨first, more, hsplit, hfirst⟩ : ∃ first more,
      value ++ ['"'] = first ++ '"' :: more ∧ '"' ∉ first :=
    List.eq_append_cons_of_mem (List.mem_append_right value List.mem_cons_self)
  have htext : value ++ '"' :: after = first ++ '"' :: (more ++ after) := by
    rw [← List.singleton_append, ← List.append_assoc, hsplit]
    simp only [List.append_assoc, List.cons_append]
  rw [htext, run_append] at h
  obtain ⟨before, hbefore, hrest⟩ := Option.bind_eq_some_iff.mp h
  rw [run_cons] at hrest
  obtain ⟨next, hstep, hrest⟩ := Option.bind_eq_some_iff.mp hrest
  obtain ⟨hescape, rfl⟩ := step_quote hstep
  -- The escaped quote stands earlier in the value than it does in the text.
  have hreads : before.read ++ ['"'] <+: value := (run_grows hrest).1
  have htaken := (run_grows hbefore).2.2
  rw [hescape] at htaken
  have hshort : (before.read ++ ['"']).length ≤ first.length := by
    rw [List.length_append, List.length_singleton]
    exact htaken.trans (Nat.zero_add _).le
  have hvalue : value <+: value ++ ['"'] := List.prefix_append _ _
  have hearly : before.read ++ ['"'] <+: first := List.prefix_of_prefix_length_le
    (hreads.trans hvalue) (by rw [hsplit]; exact List.prefix_append _ _) hshort
  exact hfirst (hearly.subset (List.mem_append_right _ List.mem_cons_self))

/-- A literal in the place of a value and its closing quote stands for that value only if the value
is plain. -/
theorem plain_of_run {literal after : List Char}
    (hsplit : value ++ '"' :: after = literal ++ '"' :: text)
    (h : run (.text []) literal = some (.text value)) : Plain value := by
  have hlength : value.length ≤ literal.length :=
    (run_grows h).2.1.trans (Nat.zero_add _).le
  rcases List.append_eq_append_iff.mp hsplit with ⟨more, rfl, hmore⟩ | ⟨more, rfl, -⟩
  · cases more with
    | nil =>
      rw [List.append_nil] at h
      exact plain_of_length h (Nat.zero_add _).symm
    | cons c more =>
      obtain ⟨rfl, -⟩ := List.cons.inj hmore
      exact (not_reads_itself h).elim
  · rw [List.length_append] at hlength
    have hnone : more = [] := List.length_eq_zero_iff.mp (by omega)
    rw [hnone, List.append_nil] at h ⊢
    exact plain_of_length h (Nat.zero_add _).symm

end Quoted

/-! ## A literal in a text -/

namespace Reader
variable {reader next : Reader} {text more : List Char} {given out : List Token}
variable {stack : List Container} {asKey : Bool}

theorem rest_of_step {c : Char} (h : reader.step c = some (next, given)) (text : List Char) :
    reader.rest (c :: text) = (next.rest text).map (given ++ ·) := by
  unfold rest
  rw [run, h]
  cases hrun : next.run text with
  | none => simp only [Option.bind_some, hrun, Option.map_none, Option.bind_none]
  | some result =>
    obtain ⟨last, later⟩ := result
    simp only [Option.bind_some, hrun, Option.map_some, Option.map_map, Function.comp_def,
      List.append_assoc]

theorem rest_of_no_step {c : Char} (h : reader.step c = none) (text : List Char) :
    reader.rest (c :: text) = none := by
  unfold rest
  rw [run, h]
  rfl

theorem rest_append (h : reader.run text = some (next, given)) (more : List Char) :
    reader.rest (text ++ more) = (next.rest more).map (given ++ ·) := by
  induction text generalizing reader given with
  | nil =>
    obtain ⟨rfl, rfl⟩ := Prod.mk.inj (Option.some.inj h)
    exact Option.map_id'.symm
  | cons c text ih =>
    rw [run] at h
    obtain ⟨⟨middle, first⟩, hstep, hrest⟩ := Option.bind_eq_some_iff.mp h
    obtain ⟨⟨last, later⟩, hrun, hpair⟩ := Option.map_eq_some_iff.mp hrest
    obtain ⟨rfl, rfl⟩ := Prod.mk.inj hpair
    rw [List.cons_append, rest_of_step hstep, ih hrun, Option.map_map]
    simp only [Function.comp_def, List.append_assoc]

theorem rest_close (stack : List Container) (asKey : Bool) (value after : List Char) :
    (literal stack asKey (.text value)).rest ('"' :: after) =
      ((following stack asKey).rest after).map (literalToken asKey value :: ·) := by
  have hstep : (literal stack asKey (.text value)).step '"' =
      some (following stack asKey, [literalToken asKey value]) := rfl
  rw [rest_of_step hstep]
  rfl

theorem step_literal {quoted : Quoted} {c : Char} (h : ∀ read, quoted = .text read → c ≠ '"') :
    (literal stack asKey quoted).step c =
      (quoted.step c).bind fun quoted => silent (.literal stack asKey quoted) := by
  cases quoted with
  | text read => exact if_neg (h read rfl)
  | escape read => rfl
  | hex read high count value => rfl
  | paired read high => rfl
  | pairedEscape read high => rfl

theorem rest_plain {value : List Char} (h : Plain value) (read after : List Char) :
    (literal stack asKey (.text read)).rest (value ++ '"' :: after) =
      ((following stack asKey).rest after).map (literalToken asKey (read ++ value) :: ·) := by
  induction value generalizing read with
  | nil =>
    rw [List.nil_append, List.append_nil]
    exact rest_close stack asKey read after
  | cons c value ih =>
    obtain ⟨⟨hquote, hescape, hcontrol⟩, hvalue⟩ := List.forall_mem_cons.mp h
    have hnext : Quoted.step (.text read) c = some (.text (read ++ [c])) := by
      rw [Quoted.step, if_neg hescape, if_neg (not_or.mpr ⟨hquote, hcontrol⟩)]
    have hstep : (literal stack asKey (.text read)).step c =
        silent (.literal stack asKey (.text (read ++ [c]))) := by
      rw [step_literal fun _ _ => hquote, hnext, Option.bind_some]
    rw [List.cons_append, rest_of_step hstep, ih hvalue, List.append_assoc, List.singleton_append]
    exact Option.map_id'

/-- A literal ends with a quote, and gives out what it has stood for. -/
theorem exists_close {quoted : Quoted} (h : (literal stack asKey quoted).rest text = some out) :
    ∃ inside after value later, text = inside ++ '"' :: after ∧
      quoted.run inside = some (.text value) ∧ out = literalToken asKey value :: later := by
  induction text generalizing quoted out with
  | nil => cases h
  | cons c text ih =>
    by_cases hclose : ∃ read, quoted = .text read ∧ c = '"'
    · obtain ⟨read, rfl, rfl⟩ := hclose
      rw [rest_close] at h
      obtain ⟨later, -, rfl⟩ := Option.map_eq_some_iff.mp h
      exact ⟨[], text, read, later, rfl, rfl, rfl⟩
    · have hstep : (literal stack asKey quoted).step c =
          (quoted.step c).bind fun quoted => silent (.literal stack asKey quoted) :=
        step_literal fun read hread hquote => hclose ⟨read, hread, hquote⟩
      cases hnext : quoted.step c with
      | none =>
        rw [hnext] at hstep
        rw [rest_of_no_step hstep] at h
        cases h
      | some next =>
        rw [hnext] at hstep
        rw [rest_of_step hstep] at h
        obtain ⟨later, hlater, rfl⟩ := Option.map_eq_some_iff.mp h
        obtain ⟨inside, after, value, final, rfl, hrun, rfl⟩ := ih hlater
        refine ⟨c :: inside, after, value, final, rfl, ?_, rfl⟩
        rw [Quoted.run_cons, hnext, Option.bind_some, hrun]

theorem literalToken_inj {value other : List Char}
    (h : literalToken asKey value = literalToken asKey other) : value = other := by
  cases asKey with
  | true => exact Token.key.inj h
  | false => exact Token.string.inj h

end Reader

/-- A text has a place for a string literal, with the tokens before it and those after it. -/
structure LiteralBetween (before after : List Char) (asKey : Bool) (pre post : List Token) :
    Prop where
  read : ∃ stack, Reader.run (.between [] .value) (before ++ ['"']) =
      some (.literal stack asKey (.text []), pre) ∧
    (Reader.following stack asKey).rest after = some post

/-- A value that is put in the place of a literal is read there, and everything else as it would
be with another one, exactly if the value is plain. -/
theorem LiteralBetween.tokens_iff {before after : List Char} {asKey : Bool} {pre post : List Token}
    (h : LiteralBetween before after asKey pre post) (value : List Char) :
    tokens (before ++ '"' :: (value ++ '"' :: after)) =
        some (pre ++ Reader.literalToken asKey value :: post) ↔ Plain value := by
  obtain ⟨stack, hbefore, hafter⟩ := h.read
  have htokens : tokens (before ++ '"' :: (value ++ '"' :: after)) =
      ((Reader.literal stack asKey (.text [])).rest (value ++ '"' :: after)).map (pre ++ ·) := by
    rw [← Reader.rest_append hbefore, List.append_assoc]
    rfl
  rw [htokens]
  constructor
  · intro h
    obtain ⟨out, hout, hpre⟩ := Option.map_eq_some_iff.mp h
    obtain rfl := List.append_cancel_left hpre
    obtain ⟨inside, later, found, final, hsplit, hrun, htoken⟩ := Reader.exists_close hout
    obtain rfl := Reader.literalToken_inj (List.cons.inj htoken).1
    exact Quoted.plain_of_run hsplit hrun
  · intro hplain
    rw [Reader.rest_plain hplain, hafter]
    rfl

end RustMcpCore.Library.JsonText
