import RustMcpCore.Library.FormUrlencoded

/-! # UTF-8 that may be malformed

Bytes are read character by character. Where no character starts, the longest start of one is
replaced as a whole, and a byte that starts none by itself.
-/
namespace RustMcpCore.Library.Utf8

def REPLACEMENT_CHARACTER : Char := '\uFFFD'

/-- How many bytes after the first go on as the start of a character, if none is complete. -/
def continued (first : UInt8) (rest : List UInt8) : ℕ :=
  let second (low high : UInt8) : Bool := rest.head?.any fun b => low ≤ b && b ≤ high
  if first = 224 then if second 160 191 then 1 else 0
  else if first = 237 then if second 128 159 then 1 else 0
  else if 225 ≤ first ∧ first ≤ 239 then if second 128 191 then 1 else 0
  else
    let three (low high : UInt8) : ℕ :=
      if second low high then
        if rest.tail.head?.any fun b => 128 ≤ b && b ≤ 191 then 2 else 1
      else 0
    if first = 240 then three 144 191
    else if 241 ≤ first ∧ first ≤ 243 then three 128 191
    else if first = 244 then three 128 143
    else 0

/-- `String::from_utf8_lossy`. -/
def fromUtf8Lossy : List UInt8 → List Char
  | [] => []
  | first :: rest =>
    match (first :: rest).toByteArray.utf8DecodeChar? 0 with
    | some c => c :: fromUtf8Lossy (rest.drop (c.utf8Size - 1))
    | none => REPLACEMENT_CHARACTER :: fromUtf8Lossy (rest.drop (continued first rest))
termination_by bytes => bytes.length
decreasing_by
  all_goals
    simp only [List.length_drop, List.length_cons]
    omega

def bytesOf (text : List Char) : List UInt8 := text.flatMap String.utf8EncodeChar

theorem fromUtf8Lossy_char (c : Char) (rest : List UInt8) :
    fromUtf8Lossy (String.utf8EncodeChar c ++ rest) = c :: fromUtf8Lossy rest := by
  have hread : (String.utf8EncodeChar c ++ rest).toByteArray.utf8DecodeChar? 0 = some c := by
    rw [List.toByteArray_append]
    exact ByteArray.utf8DecodeChar?_utf8EncodeChar_append
  have hlength : (String.utf8EncodeChar c).length = c.utf8Size := String.length_utf8EncodeChar c
  cases hbytes : String.utf8EncodeChar c with
  | nil =>
    rw [hbytes] at hlength
    exact absurd hlength.symm (Nat.ne_of_gt c.utf8Size_pos)
  | cons first others =>
    rw [hbytes, List.cons_append] at hread
    rw [hbytes, List.length_cons] at hlength
    rw [List.cons_append, fromUtf8Lossy, hread]
    have hsize : c.utf8Size - 1 = others.length := by omega
    simp only [hsize, List.drop_left]

/-- What was written as UTF-8 is read as it is. -/
theorem fromUtf8Lossy_bytesOf (text : List Char) : fromUtf8Lossy (bytesOf text) = text := by
  induction text with
  | nil => rw [bytesOf, List.flatMap_nil, fromUtf8Lossy]
  | cons c rest ih =>
    have hcons : bytesOf (c :: rest) = String.utf8EncodeChar c ++ bytesOf rest := List.flatMap_cons
    rw [hcons, fromUtf8Lossy_char, ih]

def encoding : FormUrlencoded.Encoding String where
  bytes text := bytesOf text.toList
  ofBytes bytes := .ofList (fromUtf8Lossy bytes)
  ofBytes_bytes text := by rw [fromUtf8Lossy_bytesOf, String.ofList_toList]

end RustMcpCore.Library.Utf8
