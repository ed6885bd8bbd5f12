import RustMcpCore.Config.Root
import RustMcpCore.Errors

/-! # Limits on the size of tool results -/
namespace RustMcpCore

/-- What `serde_json` makes of results, content and values, with the text of an error. -/
structure ResultSerde where
  resultLen : CallToolResult → Except String ℕ
  resultValue : CallToolResult → Except String Value
  contentValue : Content → Except String Value
  valueLen : Value → Except String ℕ

inductive ContentClass
  | text
  | binary
  | other
  deriving DecidableEq

def classifyResource (resource : Map) : ContentClass :=
  if (resource.lookup "text").isSome then .text
  else if (resource.lookup "blob").isSome then .binary
  else .other

def classifyContentBlock (value : Value) : ContentClass :=
  match (value.get "type").bind Value.asStr with
  | some "text" => .text
  | some "image" | some "audio" => .binary
  | some "resource" =>
    match (value.get "resource").bind Value.asObject with
    | some resource => classifyResource resource
    | none => .other
  | _ => .other

structure ResponseBytes where
  text : ℕ
  structured : ℕ
  binary : ℕ
  other : ℕ
  total : ℕ

def ResponseBytes.add (bytes : ResponseBytes) (blockBytes : ℕ) : ContentClass → ResponseBytes
  | .text => { bytes with text := bytes.text + blockBytes }
  | .binary => { bytes with binary := bytes.binary + blockBytes }
  | .other => { bytes with other := bytes.other + blockBytes }

def sizeCheckFailed (what error : String) : McpError :=
  .internalError s!"failed to {what} for size check: {error}" none

section Measure
variable (serde : ResultSerde)

def measureBlock (bytes : ResponseBytes) (content : Content) : Except McpError ResponseBytes := do
  let value ← (serde.contentValue content).mapError (sizeCheckFailed "serialize content block")
  let blockBytes ← (serde.valueLen value).mapError (sizeCheckFailed "encode content block")
  return bytes.add blockBytes (classifyContentBlock value)

def measureStructured : Option Value → Except McpError ℕ
  | none => .ok 0
  | some structured =>
    (serde.valueLen structured).mapError (sizeCheckFailed "serialize structured content")

def measureResultBytes (result : CallToolResult) : Except McpError ResponseBytes := do
  let total ← (serde.resultLen result).mapError (sizeCheckFailed "serialize tool result")
  let structured ← measureStructured serde result.structuredContent
  result.content.foldlM (measureBlock serde)
    { text := 0, structured, binary := 0, other := 0, total }

def checkLimit (value : ℕ) (limit : Option UInt64) (label : String) : Except McpError Unit :=
  match limit with
  | none => .ok ()
  | some limit =>
    if value ≤ limit.toNat then .ok ()
    else .error (.internalError s!"tool response exceeds configured {label} limit" none)

def enforceResponseLimits (result : CallToolResult) :
    Option ResponseLimitsConfig → Except McpError Unit
  | none => .ok ()
  | some limits => do
    let bytes ← measureResultBytes serde result
    checkLimit bytes.text limits.textBytes "text_bytes"
    checkLimit bytes.structured limits.structuredBytes "structured_bytes"
    checkLimit bytes.binary limits.binaryBytes "binary_bytes"
    checkLimit bytes.other limits.otherBytes "other_bytes"
    checkLimit bytes.total limits.totalBytes "total_bytes"

end Measure

end RustMcpCore
