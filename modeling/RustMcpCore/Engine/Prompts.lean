import RustMcpCore.Engine.Completion

/-! # Prompts

The catalog of the prompts of all providers. Of prompts with one name the last one is
served.
-/
namespace RustMcpCore
open Library

inductive PromptSource
  | inline (messages : List PromptTemplateMessageConfig)
  | plugin (pluginName : String) (config : Value)

structure ResolvedPrompt where
  prompt : Prompt
  argumentsSchema : Value
  completions : Option (HashMap String String)
  source : PromptSource

/-- What the `list` of a prompt plugin gives. -/
structure PromptEntry where
  prompt : Prompt
  argumentsSchema : Value
  completions : Option (HashMap String String)

/-- The last index of each key. -/
def indexBy {T : Type} (key : T → String) (entries : List T) : HashMap String ℕ :=
  entries.zipIdx.foldl (fun index entry => index.insert (key entry.1) entry.2) ∅

section Index
variable {T : Type} {key : T → String}

theorem indexBy_concat (entries : List T) (entry : T) :
    indexBy key (entries ++ [entry]) = (indexBy key entries).insert (key entry) entries.length := by
  unfold indexBy
  rw [List.zipIdx_append, List.foldl_append]
  simp

theorem lt_of_indexBy {entries : List T} {name : String} {index : ℕ}
    (h : (indexBy key entries).lookup name = some index) : index < entries.length := by
  induction entries using List.reverseRecOn with
  | nil => cases h
  | append_singleton entries entry ih =>
    rw [indexBy_concat] at h
    rw [List.length_append, List.length_singleton]
    by_cases hname : name = key entry
    · rw [hname, AList.lookup_insert] at h
      cases h
      omega
    · rw [AList.lookup_insert_ne hname] at h
      have hbefore := ih h
      omega

/-- What the index of a name leads to is the last entry of the name. -/
theorem indexBy_find (entries : List T) (name : String) :
    (((indexBy key entries).lookup name).bind fun index => entries[index]?) =
      entries.reverse.find? fun entry => key entry = name := by
  induction entries using List.reverseRecOn with
  | nil => rfl
  | append_singleton entries entry ih =>
    rw [indexBy_concat, List.reverse_concat, List.find?_cons]
    by_cases hname : key entry = name
    · rw [← hname, AList.lookup_insert, decide_eq_true rfl, Option.bind_some,
        List.getElem?_concat_length]
    · rw [AList.lookup_insert_ne (Ne.symm hname), decide_eq_false hname, ← ih]
      refine Option.bind_congr fun index hindex => ?_
      exact List.getElem?_append_left (lt_of_indexBy hindex)

/-- A name that occurs is found. -/
theorem exists_indexed {entries : List T} {given : T} (h : given ∈ entries) :
    ∃ entry, (((indexBy key entries).lookup (key given)).bind fun index => entries[index]?) =
      some entry ∧ entry ∈ entries ∧ key entry = key given := by
  rw [indexBy_find]
  cases hfound : entries.reverse.find? fun entry => key entry = key given with
  | none =>
    have hother := List.find?_eq_none.mp hfound given (List.mem_reverse.mpr h)
    exact absurd (decide_eq_true rfl) hother
  | some entry =>
    have hname := List.find?_some hfound
    rw [decide_eq_true_iff] at hname
    exact ⟨entry, rfl, List.mem_reverse.mp (List.mem_of_find?_eq_some hfound), hname⟩

end Index

structure PromptCatalog where
  entries : List ResolvedPrompt
  byName : HashMap String ℕ

namespace PromptCatalog

def default : PromptCatalog := ⟨[], ∅⟩

def new (entries : List ResolvedPrompt) : PromptCatalog :=
  ⟨entries, indexBy (·.prompt.name) entries⟩

variable (catalog : PromptCatalog)

def prompts : List Prompt := catalog.entries.map (·.prompt)

def lookup (name : String) : Option ResolvedPrompt :=
  (catalog.byName.lookup name).bind fun index => catalog.entries[index]?

end PromptCatalog

def mapIcons (icons : Option (List IconConfig)) : Option (List Icon) :=
  icons.map (·.map fun icon => { src := icon.src, mimeType := icon.mimeType, sizes := icon.sizes })

def promptArgument (required : List String) (name : String) (value : Value) : PromptArgument where
  name
  title := (value.get "title").bind Value.asStr
  description := (value.get "description").bind Value.asStr
  required := some (name ∈ required)

def derivePromptArguments (schema : Value) : Except McpError (Option (List PromptArgument)) :=
  match schema with
  | .object schemaObj =>
    let properties := ((schemaObj.lookup "properties").bind Value.asObject).getD []
    let required := Value.strings (((schemaObj.lookup "required").bind Value.asArray).getD [])
    let arguments := properties.map fun property => promptArgument required property.1 property.2
    .ok (if arguments.isEmpty then none else some arguments)
  | _ => .error (.invalidRequest "prompt arguments_schema must be an object" none)

/-! ## Messages -/

section Messages
variable (models : RmcpModels)

def optionalAnnotations (object : Map) (errorMessage : String) :
    Except McpError (Option Annotations × Map) :=
  extract object ["annotations"] (optionalModel (readModel errorMessage models.annotations))

def optionalIcons (object : Map) (errorMessage : String) :
    Except McpError (Option (List Icon) × Map) :=
  extract object ["icons"] (optionalModel (readModel errorMessage models.icons))

def renderTextContent (object : Map) : Except McpError PromptMessageContent := do
  let (text, _) ← removeRequiredString object ["text"] "text content requires text"
  return .text text

def renderImageContent (object : Map) : Except McpError PromptMessageContent := do
  let (data, object) ← removeRequiredString object ["data"] "image content requires data"
  let (mimeType, object) ←
    removeRequiredString object ["mime_type", "mimeType"] "image content requires mime_type"
  let (metaValue, object) ← removeOptionalMeta models object "_meta" "invalid image _meta"
  let (annotations, _) ← optionalAnnotations models object "invalid image annotations"
  return .image ⟨{ data, mimeType, metaValue }, annotations⟩

/-- Text wins over a blob. -/
def promptResourceContents (uri : String) (mimeType : Option String) (metaValue : Option Map) :
    Option String → Option String → Except McpError ResourceContents
  | some text, _ => .ok (.text uri mimeType text metaValue)
  | none, some blob => .ok (.blob uri mimeType blob metaValue)
  | none, none => .error (.invalidParams "resource content requires text or blob" none)

def renderResourceContent (object : Map) : Except McpError PromptMessageContent := do
  let (uri, object) ← removeRequiredString object ["uri"] "resource content requires uri"
  let (mimeType, object) ← removeOptionalString object ["mime_type", "mimeType"]
  let (contentMeta, object) ←
    removeOptionalMeta models object "content_meta" "invalid resource content_meta"
  let (embeddedMeta, object) ← removeOptionalMeta models object "_meta" "invalid resource _meta"
  let (annotations, object) ← optionalAnnotations models object "invalid resource annotations"
  let (text, object) ← removeOptionalString object ["text"]
  let (blob, _) ← removeOptionalString object ["blob"]
  let resource ← promptResourceContents uri mimeType contentMeta text blob
  return .resource ⟨{ metaValue := embeddedMeta, resource }, annotations⟩

def renderResourceLinkContent (object : Map) : Except McpError PromptMessageContent := do
  let (uri, object) ← removeRequiredString object ["uri"] "resource_link content requires uri"
  let (name, object) ← removeOptionalString object ["name"]
  let (title, object) ← removeOptionalString object ["title"]
  let (description, object) ← removeOptionalString object ["description"]
  let (mimeType, object) ← removeOptionalString object ["mime_type", "mimeType"]
  let (size, object) ← extract object ["size"] resourceLinkSize
  let (metaValue, object) ← removeOptionalMeta models object "_meta" "invalid resource_link _meta"
  let (icons, object) ← optionalIcons models object "invalid resource_link icons"
  let (annotations, _) ← optionalAnnotations models object "invalid resource_link annotations"
  let raw : RawResource :=
    { uri, name := name.getD "resource", title, description, mimeType, size, icons, metaValue }
  return .resourceLink ⟨raw, annotations⟩

def renderTypedPromptContent (object : Map) : Except McpError PromptMessageContent := do
  let (contentType, object) ←
    removeRequiredString object ["type"] "prompt message content object requires type"
  match contentType with
  | "text" => renderTextContent object
  | "image" => renderImageContent models object
  | "resource" => renderResourceContent models object
  | "resource_link" => renderResourceLinkContent models object
  | _ => .error (.invalidParams s!"unsupported prompt message content type: {contentType}" none)

def renderPromptMessageContent : Value → Except McpError PromptMessageContent
  | .string text => .ok (.text text)
  | .object object => renderTypedPromptContent models object
  | _ => .error (.invalidParams "prompt message content must be a string or object" none)

def promptMessageRole : PromptMessageRoleConfig → Role
  | .user => .user
  | .assistant => .assistant

def renderPromptMessages (json : SerdeJson) (messages : List PromptTemplateMessageConfig)
    (args : Value) : Except McpError (List PromptMessage) :=
  messages.mapM fun message => do
    let rendered ← Templating.renderValue json message.content { args, response := none }
    let content ← renderPromptMessageContent models rendered
    return { role := promptMessageRole message.role, content }

end Messages

end RustMcpCore
