import Mathlib.Data.List.Basic

/-! # The format `application/x-www-form-urlencoded`

A form is a list of pairs of texts, and its body is a list of bytes. Any body can be parsed,
and what a serialized form is parsed to is the form again. Texts are given by how they are
written as bytes and how any bytes are read.
-/
namespace RustMcpCore.Library.FormUrlencoded

abbrev Bytes := List UInt8

/-! ## Bytes -/

/-- `*`, `-`, `.`, `_`, digits and letters are written as they are. -/
def unchanged (b : UInt8) : Bool :=
  b = 42 || b = 45 || b = 46 || b = 95 || (48 ≤ b && b ≤ 57) || (65 ≤ b && b ≤ 90) ||
    (97 ≤ b && b ≤ 122)

def hexDigit (n : UInt8) : UInt8 := if n < 10 then 48 + n else 55 + n

def hexValue (b : UInt8) : Option UInt8 :=
  if 48 ≤ b ∧ b ≤ 57 then some (b - 48)
  else if 65 ≤ b ∧ b ≤ 70 then some (b - 55)
  else if 97 ≤ b ∧ b ≤ 102 then some (b - 87)
  else none

def encodeByte (b : UInt8) : Bytes :=
  if unchanged b then [b] else if b = 32 then [43] else [37, hexDigit (b / 16), hexDigit (b % 16)]

/-- The byte of two digits after a percent sign. -/
def hexByte (high low : UInt8) : Option UInt8 :=
  (hexValue high).bind fun h => (hexValue low).map fun l => 16 * h + l

/-- A percent sign with no two digits after it stands for itself. -/
def percentDecode : Bytes → Bytes
  | [] => []
  | [b] => [b]
  | [b, c] => [b, c]
  | b :: high :: low :: rest =>
    if b = 37 then
      match hexByte high low with
      | some decoded => decoded :: percentDecode rest
      | none => b :: percentDecode (high :: low :: rest)
    else b :: percentDecode (high :: low :: rest)

def replacePlus (bytes : Bytes) : Bytes := bytes.map fun b => if b = 43 then 32 else b

def encode (bytes : Bytes) : Bytes := bytes.flatMap encodeByte

def decode (bytes : Bytes) : Bytes := percentDecode (replacePlus bytes)

theorem percentDecode_cons {b : UInt8} (h : b ≠ 37) (rest : Bytes) :
    percentDecode (b :: rest) = b :: percentDecode rest := by
  cases rest with
  | nil => rfl
  | cons high rest =>
    cases rest with
    | nil => rw [percentDecode, percentDecode]
    | cons low rest => rw [percentDecode, if_neg h]

theorem percentDecode_hexByte {high low decoded : UInt8} (h : hexByte high low = some decoded)
    (rest : Bytes) : percentDecode (37 :: high :: low :: rest) = decoded :: percentDecode rest := by
  rw [percentDecode, if_pos rfl, h]

/-- What holds of the bytes one by one is decided by looking at all of them. -/
theorem forall_byte {P : UInt8 → Prop} (h : ∀ n : Fin 256, P (.ofNat n)) (b : UInt8) : P b := by
  have hb := h ⟨b.toNat, b.toNat_lt⟩
  rwa [UInt8.ofNat_toNat] at hb

theorem hexByte_hexDigit : ∀ b : UInt8, hexByte (hexDigit (b / 16)) (hexDigit (b % 16)) = some b :=
  forall_byte (by decide +kernel)

theorem hexDigit_ne : ∀ b : UInt8, hexDigit (b / 16) ≠ 43 ∧ hexDigit (b % 16) ≠ 43 :=
  forall_byte (by decide +kernel)

theorem unchanged_ne : ∀ b : UInt8, unchanged b = true → b ≠ 37 ∧ b ≠ 43 :=
  forall_byte (by decide +kernel)

theorem separators_not_mem_encodeByte : ∀ b : UInt8, 38 ∉ encodeByte b ∧ 61 ∉ encodeByte b :=
  forall_byte (by decide +kernel)

/-- A byte is read back from wherever it was written. -/
theorem decode_encodeByte (b : UInt8) (rest : Bytes) :
    decode (encodeByte b ++ rest) = b :: decode rest := by
  unfold encodeByte decode
  split
  · rename_i hunchanged
    obtain ⟨hpercent, hplus⟩ := unchanged_ne b hunchanged
    have hreplaced : replacePlus ([b] ++ rest) = b :: replacePlus rest := by
      simp [replacePlus, hplus]
    rw [hreplaced, percentDecode_cons hpercent]
  · split
    · rename_i hspace
      subst hspace
      have hreplaced : replacePlus ([43] ++ rest) = 32 :: replacePlus rest := by simp [replacePlus]
      rw [hreplaced, percentDecode_cons (by decide)]
    · obtain ⟨hhigh, hlow⟩ := hexDigit_ne b
      have hreplaced : replacePlus ([37, hexDigit (b / 16), hexDigit (b % 16)] ++ rest) =
          37 :: hexDigit (b / 16) :: hexDigit (b % 16) :: replacePlus rest := by
        simp [replacePlus, hhigh, hlow]
      rw [hreplaced, percentDecode_hexByte (hexByte_hexDigit b)]

theorem decode_encode (bytes : Bytes) : decode (encode bytes) = bytes := by
  induction bytes with
  | nil => rfl
  | cons b rest ih =>
    have hcons : encode (b :: rest) = encodeByte b ++ encode rest := List.flatMap_cons
    rw [hcons, decode_encodeByte, ih]

theorem separators_not_mem_encode (bytes : Bytes) : 38 ∉ encode bytes ∧ 61 ∉ encode bytes := by
  constructor
  · intro h
    obtain ⟨b, -, hb⟩ := List.mem_flatMap.mp h
    exact (separators_not_mem_encodeByte b).1 hb
  · intro h
    obtain ⟨b, -, hb⟩ := List.mem_flatMap.mp h
    exact (separators_not_mem_encodeByte b).2 hb

/-! ## Pairs -/

/-- A sequence without `=` is a name. -/
def parsePair (sequence : Bytes) : Bytes × Bytes :=
  (decode (sequence.takeWhile (· ≠ 61)), decode ((sequence.dropWhile (· ≠ 61)).drop 1))

def parseBytes (body : Bytes) : List (Bytes × Bytes) :=
  ((body.splitOn 38).filter (!·.isEmpty)).map parsePair

def serializePair (pair : Bytes × Bytes) : Bytes := encode pair.1 ++ 61 :: encode pair.2

def serializeBytes (pairs : List (Bytes × Bytes)) : Bytes :=
  [38].intercalate (pairs.map serializePair)

theorem parsePair_serializePair (pair : Bytes × Bytes) : parsePair (serializePair pair) = pair := by
  obtain ⟨name, value⟩ := pair
  have hname : ∀ b ∈ encode name, (decide (b ≠ 61)) = true := by
    intro b hb
    refine decide_eq_true fun heq => ?_
    exact (separators_not_mem_encode name).2 (heq ▸ hb)
  have hhead : (encode name ++ 61 :: encode value).takeWhile (· ≠ 61) = encode name := by
    rw [List.takeWhile_append_of_pos hname]
    simp
  have htail : (encode name ++ 61 :: encode value).dropWhile (· ≠ 61) = 61 :: encode value := by
    rw [List.dropWhile_append_of_pos hname]
    simp
  unfold parsePair serializePair
  rw [hhead, htail, List.drop_one, List.tail_cons, decode_encode, decode_encode]

theorem serializePair_spec (pair : Bytes × Bytes) :
    38 ∉ serializePair pair ∧ (serializePair pair).isEmpty = false := by
  constructor
  · intro h
    rcases List.mem_append.mp h with h | h
    · exact (separators_not_mem_encode pair.1).1 h
    · rcases List.mem_cons.mp h with h | h
      · exact absurd h (by decide)
      · exact (separators_not_mem_encode pair.2).1 h
  · unfold serializePair
    cases encode pair.1 with
    | nil => rfl
    | cons b rest => rfl

theorem parseBytes_serializeBytes (pairs : List (Bytes × Bytes)) :
    parseBytes (serializeBytes pairs) = pairs := by
  cases pairs with
  | nil => rfl
  | cons pair rest =>
    have hmarks : ∀ sequence ∈ (pair :: rest).map serializePair, 38 ∉ sequence := by
      intro sequence hsequence
      obtain ⟨written, -, rfl⟩ := List.mem_map.mp hsequence
      exact (serializePair_spec written).1
    have hfull : ∀ sequence ∈ (pair :: rest).map serializePair, (!sequence.isEmpty) = true := by
      intro sequence hsequence
      obtain ⟨written, -, rfl⟩ := List.mem_map.mp hsequence
      rw [(serializePair_spec written).2]
      rfl
    unfold parseBytes serializeBytes
    rw [List.splitOn_intercalate 38 hmarks (List.cons_ne_nil _ _), List.filter_eq_self.mpr hfull,
      List.map_map]
    refine (List.map_congr_left fun written _ => ?_).trans (List.map_id _)
    exact parsePair_serializePair written

/-! ## Texts -/

/-- How texts are written, and how any bytes are read. -/
structure Encoding (T : Type) where
  bytes : T → Bytes
  ofBytes : Bytes → T
  ofBytes_bytes : ∀ text, ofBytes (bytes text) = text

section Forms
variable {T : Type} (encoding : Encoding T)

def parse (body : Bytes) : List (T × T) :=
  (parseBytes body).map (Prod.map encoding.ofBytes encoding.ofBytes)

def serialize (form : List (T × T)) : Bytes :=
  serializeBytes (form.map (Prod.map encoding.bytes encoding.bytes))

/-- A form is read back. -/
theorem parse_serialize (form : List (T × T)) : parse encoding (serialize encoding form) = form := by
  unfold parse serialize
  rw [parseBytes_serializeBytes, List.map_map]
  refine (List.map_congr_left fun pair _ => ?_).trans (List.map_id _)
  obtain ⟨name, value⟩ := pair
  simp only [Function.comp_apply, Prod.map_apply, encoding.ofBytes_bytes, id_eq]

end Forms

end RustMcpCore.Library.FormUrlencoded
