import RustMcpCore.Engine.Prompts

/-! # Resources

A URI names a resource of the catalog, or is matched with the templates. Of what has
one URI or one template the last is served.
-/
namespace RustMcpCore
open Library

inductive ResourceSource
  | inline (content : Option ResourceContentConfig)
  | plugin (pluginName : String) (config : Value)

structure ResolvedResource where
  resource : Resource
  source : ResourceSource

structure ResolvedResourceTemplate where
  template : ResourceTemplate
  argumentsSchema : Value
  completions : Option (HashMap String String)
  source : ResourceSource

structure ResourceCatalog where
  resources : List ResolvedResource
  resourcesByUri : HashMap String ℕ
  templates : List ResolvedResourceTemplate
  templatesByUriTemplate : HashMap String ℕ

namespace ResourceCatalog

def new (resources : List ResolvedResource) (templates : List ResolvedResourceTemplate) :
    ResourceCatalog where
  resources
  resourcesByUri := indexBy (·.resource.raw.uri) resources
  templates
  templatesByUriTemplate := indexBy (·.template.raw.uriTemplate) templates

variable (catalog : ResourceCatalog)

def resourcesPayload : List Resource := catalog.resources.map (·.resource)

def templatesPayload : List ResourceTemplate := catalog.templates.map (·.template)

def resourceByUri (uri : String) : Option ResolvedResource :=
  (catalog.resourcesByUri.lookup uri).bind fun index => catalog.resources[index]?

def templateByUriTemplate (uriTemplate : String) : Option ResolvedResourceTemplate :=
  (catalog.templatesByUriTemplate.lookup uriTemplate).bind fun index => catalog.templates[index]?

end ResourceCatalog

/-! ## Checks -/

/-- The parsers of `url` and of `chrono`, with the text of an error. -/
structure Parsers where
  url : String → Except String Unit
  rfc3339 : String → Except String DateTime

/-- The bits of a number from 0.0 to 1.0, or of -0.0. -/
def isPriority (bits : UInt32) : Bool := bits ≤ 0x3F800000 ∨ bits = 0x80000000

def audienceRole : ResourceAudienceConfig → Role
  | .user => .user
  | .assistant => .assistant

section Checks
variable (parsers : Parsers)

def parseLastModified (value : String) : Except McpError DateTime :=
  (parsers.rfc3339 value).mapError fun error =>
    .invalidRequest s!"invalid resource annotations.last_modified: {error}" none

def mapResourceAnnotations :
    Option ResourceAnnotationsConfig → Except McpError (Option Annotations)
  | none => .ok none
  | some annotations =>
    if annotations.priority.any (!isPriority ·) then
      .error (.invalidRequest "resource annotations.priority must be between 0.0 and 1.0" none)
    else do
      let lastModified ← annotations.lastModified.mapM (parseLastModified parsers)
      return some
        { audience := annotations.audience.map (·.map audienceRole)
          priority := annotations.priority
          lastModified }

def validateResourceUri (uri : String) : Except McpError Unit :=
  (parsers.url uri).mapError fun error =>
    .invalidRequest s!"invalid resource uri '{uri}': {error}" none

/-- A template with `x` for each placeholder, or nothing if one has no name or no end. -/
def normalizeTemplate : Option (List Char) → List Char → Option (List Char)
  | none, [] => some []
  | some _, [] => none
  | none, c :: rest =>
    if c = '{' then normalizeTemplate (some []) rest else (normalizeTemplate none rest).map (c :: ·)
  | some name, c :: rest =>
    if c = '}' then
      if name.isEmpty then none else (normalizeTemplate none rest).map ('x' :: ·)
    else normalizeTemplate (some (name ++ [c])) rest

def validateResourceTemplateUri (uriTemplate : String) : Except McpError Unit :=
  match normalizeTemplate none uriTemplate.toList with
  | none => .error (.invalidRequest
      s!"invalid resource uri_template '{uriTemplate}': invalid placeholder" none)
  | some normalized =>
    if '{' ∈ normalized ∨ '}' ∈ normalized then
      .error (.invalidRequest
        s!"invalid resource uri_template '{uriTemplate}': unbalanced braces" none)
    else
      (parsers.url (.ofList normalized)).mapError fun error =>
        .invalidRequest s!"invalid resource uri_template '{uriTemplate}': {error}" none

def validateResourceTemplateSchema (schemas : JsonSchema) (template : ResourceTemplateConfig) :
    Except McpError Unit := do
  let _ ← (schemas.validatorFor template.argumentsSchema).mapError fun error =>
    let uriTemplate := template.uriTemplate
    McpError.invalidRequest
      s!"invalid arguments_schema for resource template '{uriTemplate}': {error}" none
  validateCompletionKeys template.completions template.argumentsSchema "resource template"
    template.uriTemplate

end Checks

/-! ## Matching -/

inductive UriToken
  | literal (segment : List Char)
  | var (name : String)
  deriving DecidableEq

def literalOf (literal : List Char) : List UriToken :=
  if literal.isEmpty then [] else [.literal literal]

/-- The tokens of a template, with the literal or the name of a variable read so far. -/
def templateTokens : List Char → Option (List Char) → List Char → Option (List UriToken)
  | literal, none, [] => some (literalOf literal)
  | _, some _, [] => none
  | literal, none, c :: rest =>
    if c = '{' then (templateTokens [] (some []) rest).map (literalOf literal ++ ·)
    else templateTokens (literal ++ [c]) none rest
  | literal, some name, c :: rest =>
    if c = '}' then
      if name.isEmpty then none
      else (templateTokens [] none rest).map (.var (.ofList name) :: ·)
    else templateTokens literal (some (name ++ [c])) rest

def nextLiteral : List UriToken → Option (List Char)
  | [] => none
  | .literal segment :: _ => some segment
  | .var _ :: tokens => nextLiteral tokens

/-- A variable takes everything up to the next literal of the template. -/
def matchTokens : List UriToken → Map → List Char → Option Map
  | [], args, uri => if uri.isEmpty then some args else none
  | .literal segment :: tokens, args, uri =>
    if segment.isPrefixOf uri then matchTokens tokens args (uri.drop segment.length) else none
  | .var name :: tokens, args, uri =>
    match nextLiteral tokens with
    | some literal =>
      match Text.cut literal uri with
      | some (value, _) =>
        matchTokens tokens (Map.insert args name (.string (.ofList value))) (uri.drop value.length)
      | none => none
    | none => matchTokens tokens (Map.insert args name (.string (.ofList uri))) []

def matchUriTemplate (uriTemplate uri : String) : Option Map :=
  (templateTokens [] none uriTemplate.toList).bind fun tokens => matchTokens tokens [] uri.toList

end RustMcpCore
