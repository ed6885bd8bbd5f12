import RustMcpCore.Clock
import RustMcpCore.Json

/-! # Content of the protocol

The models of `rmcp` that the engine builds from configuration and from rendered
templates.
-/
namespace RustMcpCore

inductive Role
  | user
  | assistant
  deriving DecidableEq

structure Annotations where
  audience : Option (List Role)
  /-- The bits of an `f32`. -/
  priority : Option UInt32
  lastModified : Option DateTime

structure Icon where
  src : String
  mimeType : Option String
  sizes : Option (List String)

inductive ResourceContents
  | text (uri : String) (mimeType : Option String) (text : String) (metaValue : Option Map)
  | blob (uri : String) (mimeType : Option String) (blob : String) (metaValue : Option Map)

structure RawResource where
  uri : String
  name : String
  title : Option String
  description : Option String
  mimeType : Option String
  size : Option UInt32
  icons : Option (List Icon)
  metaValue : Option Map

structure RawEmbeddedResource where
  metaValue : Option Map
  resource : ResourceContents

inductive RawContent
  | text (text : String) (metaValue : Option Map)
  | image (data mimeType : String) (metaValue : Option Map)
  | audio (data mimeType : String)
  | resource (resource : RawEmbeddedResource)
  | resourceLink (resource : RawResource)

structure Annotated (T : Type) where
  raw : T
  annotations : Option Annotations

abbrev Content := Annotated RawContent
abbrev Resource := Annotated RawResource

def Content.text (text : String) : Content := ⟨.text text none, none⟩

def RawResource.new (uri name : String) : RawResource :=
  ⟨uri, name, none, none, none, none, none, none⟩

/-! ## Prompts -/

structure PromptArgument where
  name : String
  title : Option String
  description : Option String
  required : Option Bool

structure Prompt where
  name : String
  title : Option String
  description : Option String
  arguments : Option (List PromptArgument)
  icons : Option (List Icon)

structure RawImageContent where
  data : String
  mimeType : String
  metaValue : Option Map

inductive PromptMessageContent
  | text (text : String)
  | image (image : Annotated RawImageContent)
  | resource (resource : Annotated RawEmbeddedResource)
  | resourceLink (link : Resource)

structure PromptMessage where
  role : Role
  content : PromptMessageContent

structure GetPromptResult where
  description : Option String
  messages : List PromptMessage

/-! ## Tools -/

structure ToolAnnotations where
  title : Option String
  readOnlyHint : Option Bool
  destructiveHint : Option Bool
  idempotentHint : Option Bool
  openWorldHint : Option Bool

/-! ## Resources and completion -/

structure RawResourceTemplate where
  uriTemplate : String
  name : String
  title : Option String
  description : Option String
  mimeType : Option String
  icons : Option (List Icon)

abbrev ResourceTemplate := Annotated RawResourceTemplate

structure ReadResourceResult where
  contents : List ResourceContents

structure CompletionInfo where
  values : List String
  total : Option UInt32
  hasMore : Option Bool

def CompletionInfo.MAX_VALUES : ℕ := 100

inductive Reference
  | prompt (name : String)
  | resource (uri : String)

structure CompleteRequestParams where
  ref : Reference
  argumentName : String
  argumentValue : String

/-- How `serde_json::from_value` reads the models, with the text of an error. -/
structure RmcpModels where
  metaValue : Value → Except String Map
  annotations : Value → Except String Annotations
  icons : Value → Except String (List Icon)

end RustMcpCore
