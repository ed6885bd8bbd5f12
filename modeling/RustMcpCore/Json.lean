import Mathlib.Data.List.Basic

/-! # JSON values as `serde_json` holds them

Numbers keep the three forms of the parser: integers that fit `u64`, negative
integers that fit `i64`, and anything else as the bits of a finite double.
-/
namespace RustMcpCore

inductive Number
  | posInt (n : UInt64)
  | negInt (n : Int64)
  | float (bits : UInt64)
  deriving DecidableEq

inductive Value
  | null
  | bool (b : Bool)
  | number (n : Number)
  | string (s : String)
  | array (items : List Value)
  | object (fields : List (String × Value))

namespace Value

/-- `Value::get` with a string index: only an object has named members. -/
def get : Value → String → Option Value
  | .object fields, key => fields.lookup key
  | _, _ => none

def asStr : Value → Option String
  | .string s => some s
  | _ => none

def asBool : Value → Option Bool
  | .bool b => some b
  | _ => none

def asU64 : Value → Option UInt64
  | .number (.posInt n) => some n
  | _ => none

def asArray : Value → Option (List Value)
  | .array items => some items
  | _ => none

def asObject : Value → Option (List (String × Value))
  | .object fields => some fields
  | _ => none

/-- The members of an array that are strings, in order. -/
def strings (items : List Value) : List String := items.filterMap asStr

end Value

/-- `serde_json::Map` without `preserve_order`: the members in the order of their keys. -/
abbrev Map := List (String × Value)

namespace Map

def insert : Map → String → Value → Map
  | [], key, value => [(key, value)]
  | (found, old) :: rest, key, value =>
    if key = found then (key, value) :: rest
    else if key < found then (key, value) :: (found, old) :: rest
    else (found, old) :: insert rest key value

def remove (map : Map) (key : String) : Option Value × Map :=
  (map.lookup key, map.filter fun member => member.1 ≠ key)

end Map

/-- What the code takes from `serde_json` besides values: the parser, and the compact
text that `Value::to_string` gives. -/
structure SerdeJson where
  fromStr : String → Except String Value
  toString : Value → String

/-- `serde_json::from_slice`, with the text of an error. -/
abbrev FromSlice := List UInt8 → Except String Value

end RustMcpCore
