import RustMcpCore.Config.Root
import RustMcpCore.Engine.ToolResponse

/-! # Arguments of prompts and templates, and their completion -/
namespace RustMcpCore
open Library

def schemaProperties (schema : Value) : Option Map := (schema.get "properties").bind Value.asObject

def validateCompletionKeys (completions : Option (HashMap String String)) (schema : Value)
    (entityLabel entityName : String) : Except McpError Unit :=
  match completions with
  | none => .ok ()
  | some completions =>
    let schemaKeys := ((schemaProperties schema).getD []).map Prod.fst
    match completions.keys.find? (· ∉ schemaKeys) with
    | none => .ok ()
    | some key =>
      .error (.invalidRequest (s!"{entityLabel} '{entityName}' completions key '{key}' is not " ++
        "defined in arguments_schema.properties") none)

def validateSchemaArgs (schemas : JsonSchema) (schema : Value) (args : Map)
    (entityLabel entityName : String) : Except McpError Unit := do
  let compiled ← (schemas.validatorFor schema).mapError fun error =>
    McpError.invalidRequest
      s!"invalid arguments_schema for {entityLabel} '{entityName}': {error}" none
  let details := compiled (.object args)
  if details.isEmpty then .ok ()
  else .error (.invalidParams (s!"{entityLabel} arguments validation failed for '{entityName}': " ++
    "; ".intercalate details) none)

def validateCompletionSourceMapping (completions : Option (HashMap String String))
    (completionSources : HashMap String CompletionProviderConfig) (owner : String) :
    Except McpError Unit :=
  match completions with
  | none => .ok ()
  | some completions =>
    match completions.values.find? fun sourceName => (completionSources.lookup sourceName).isNone with
    | none => .ok ()
    | some sourceName => .error (.invalidRequest
        s!"{owner} references unknown completion provider '{sourceName}'" none)

def validateCompletionArgumentExists (schema : Value) (argumentName owner : String) :
    Except McpError Unit :=
  match schemaProperties schema with
  | none => .error (.invalidRequest
      s!"{owner} arguments_schema.properties must be an object" none)
  | some properties =>
    if (properties.lookup argumentName).isSome then .ok ()
    else .error (.invalidParams (s!"{owner} argument '{argumentName}' is not defined in " ++
      "arguments_schema.properties") none)

/-- What `CompletionInfo` accepts as values, with the text of an error. -/
abbrev CompletionRules := List String → Except String Unit

def invalidCompletion (error : String) : McpError :=
  .internalError s!"invalid completion response: {error}" none

def completionInfoFromValuesWithTotal (rules : CompletionRules) (values : List String)
    (total : Option UInt32) (hasMore : Bool) : Except McpError CompletionInfo :=
  ((rules values).mapError invalidCompletion).map fun () =>
    { values, total, hasMore := some hasMore }

def completionInfoFromValues (rules : CompletionRules) (values : List String) :
    Except McpError CompletionInfo :=
  completionInfoFromValuesWithTotal rules values none false

/-- The matches of a prefix, and how many there are. -/
def countMatches (values : List String) (lead : String) :
    Except McpError (List String × UInt32) :=
  let found := values.filter fun candidate => (Text.stripPrefix candidate lead).isSome
  if found.length ≤ 4294967295 then .ok (found, found.length.toUInt32)
  else .error (.internalError "completion result count exceeds u32::MAX" none)

def validateCompletionInfo (rules : CompletionRules) (completion : CompletionInfo) :
    Except McpError CompletionInfo :=
  ((rules completion.values).mapError invalidCompletion).map fun () => completion

end RustMcpCore
