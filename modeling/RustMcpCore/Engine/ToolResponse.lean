import RustMcpCore.Engine.Templating
import RustMcpCore.Engine.ValueHelpers

/-! # From responses to results

The answer of an upstream becomes content blocks or structured content. A block is an
object with a type, and every type asks for members of its own.
-/
namespace RustMcpCore

/-- The `jsonschema` library: a schema compiles, or not, to what lists the errors of a
value. -/
structure JsonSchema where
  validatorFor : Value → Except String (Value → List String)

def validateStructuredOutput (schemas : JsonSchema) (structured outputSchema : Value) :
    Except McpError Unit := do
  let compiled ← (schemas.validatorFor outputSchema).mapError fun error =>
    McpError.invalidRequest error none
  let messages := compiled structured
  if messages.isEmpty then .ok ()
  else .error (.invalidRequest ("output schema validation failed: " ++ "; ".intercalate messages) none)

def contentFallbackStr : ContentFallback → String
  | .text => "text"
  | .jsonText => "json_text"

def structuredText (json : SerdeJson) (structured : Value) (fallback : Option String) : String :=
  if fallback = some "text" then (structured.asStr).getD (json.toString structured)
  else json.toString structured

def buildStructuredResult (json : SerdeJson) (schemas : JsonSchema) (structured : Value)
    (outputSchema : Option Value) (fallback : Option String) : Except McpError CallToolResult := do
  match outputSchema with
  | some schema => validateStructuredOutput schemas structured schema
  | none => pure ()
  return { content := [Content.text (structuredText json structured fallback)]
           structuredContent := some structured
           isError := some false
           metaValue := none }

def buildContentResult (content : List Content) : CallToolResult := .success content

/-! ## Content blocks -/

section Blocks
variable (models : RmcpModels) (json : SerdeJson)

def parseTextContent (object : Map) : Except McpError Content := do
  let (text, object) ← removeRequiredText json object ["text"] "text content requires text"
  let (metaValue, object) ← removeOptionalMeta models object "_meta" "invalid text _meta"
  let (annotations, _) ←
    removeOptionalAnnotations models object "annotations" "invalid text annotations"
  return ⟨.text text metaValue, annotations⟩

def parseImageContent (object : Map) : Except McpError Content := do
  let (data, object) ← removeRequiredString object ["data"] "image content requires data"
  let (mimeType, object) ←
    removeRequiredString object ["mime_type", "mimeType"] "image content requires mime_type"
  let (metaValue, object) ← removeOptionalMeta models object "_meta" "invalid image _meta"
  let (annotations, _) ←
    removeOptionalAnnotations models object "annotations" "invalid image annotations"
  return ⟨.image data mimeType metaValue, annotations⟩

def parseAudioContent (object : Map) : Except McpError Content := do
  let (data, object) ← removeRequiredString object ["data"] "audio content requires data"
  let (mimeType, object) ←
    removeRequiredString object ["mime_type", "mimeType"] "audio content requires mime_type"
  let (annotations, _) ←
    removeOptionalAnnotations models object "annotations" "invalid audio annotations"
  return ⟨.audio data mimeType, annotations⟩

/-- A size that is no unsigned integer is left out. -/
def resourceLinkSize (found : Option Value) : Except McpError (Option UInt32) :=
  match found.bind Value.asU64 with
  | none => .ok none
  | some size =>
    if size.toNat ≤ 4294967295 then .ok (some size.toUInt32)
    else .error (.invalidParams "resource_link size must be <= 4294967295" none)

def parseToolResourceLinkContent (object : Map) : Except McpError Content := do
  let (uri, object) ← removeRequiredString object ["uri"] "resource_link content requires uri"
  let (name, object) ← removeOptionalString object ["name"]
  let (title, object) ← removeOptionalString object ["title"]
  let (description, object) ← removeOptionalString object ["description"]
  let (mimeType, object) ← removeOptionalString object ["mime_type", "mimeType"]
  let (size, object) ← extract object ["size"] resourceLinkSize
  let (metaValue, object) ← removeOptionalMeta models object "_meta" "invalid resource_link _meta"
  let (icons, object) ← removeOptionalIcons models object "icons" "invalid resource_link icons"
  let (annotations, _) ←
    removeOptionalAnnotations models object "annotations" "invalid resource_link annotations"
  let raw : RawResource :=
    { uri, name := name.getD "resource", title, description, mimeType, size, icons, metaValue }
  return ⟨.resourceLink raw, annotations⟩

/-- The member `resource`, and what is wrong with it. -/
def requireResource : Option Value → Except McpError Map
  | some (.object resource) => .ok resource
  | some _ => .error (.invalidParams "resource content requires resource object" none)
  | none => .error (.invalidParams "resource content requires resource" none)

def resourceContents (uri : String) (mimeType : Option String) (metaValue : Option Map) :
    Option String → Option String → Except McpError ResourceContents
  | some text, none => .ok (.text uri mimeType text metaValue)
  | none, some blob => .ok (.blob uri mimeType blob metaValue)
  | none, none => .error (.invalidParams "resource content requires text or blob" none)
  | some _, some _ =>
    .error (.invalidParams "resource content cannot include both text and blob" none)

def onlyAnnotations : Option Annotations → Option Annotations →
    Except McpError (Option Annotations)
  | some _, some _ => .error (.invalidParams
      "resource content annotations must be set either at top level or in resource" none)
  | some annotations, none => .ok (some annotations)
  | none, some annotations => .ok (some annotations)
  | none, none => .ok none

def parseToolResourceContent (object : Map) : Except McpError Content := do
  let (topLevel, object) ←
    removeOptionalAnnotations models object "annotations" "invalid resource annotations"
  let (embeddedMeta, object) ← removeOptionalMeta models object "_meta" "invalid resource _meta"
  let (resource, _) ← extract object ["resource"] requireResource
  let (uri, resource) ← removeRequiredString resource ["uri"] "resource content requires uri"
  let (mimeType, resource) ← removeOptionalString resource ["mime_type", "mimeType"]
  let (contentMeta, resource) ←
    removeOptionalMeta models resource "_meta" "invalid resource content _meta"
  let (nested, resource) ←
    removeOptionalAnnotations models resource "annotations" "invalid resource annotations"
  let (text, resource) ← removeOptionalString resource ["text"]
  let (blob, _) ← removeOptionalString resource ["blob"]
  let contents ← resourceContents uri mimeType contentMeta text blob
  let annotations ← onlyAnnotations topLevel nested
  return ⟨.resource { metaValue := embeddedMeta, resource := contents }, annotations⟩

def parseTypedContent (contentType : String) (object : Map) : Except McpError Content :=
  match contentType with
  | "text" => parseTextContent models json object
  | "image" => parseImageContent models object
  | "audio" => parseAudioContent models object
  | "resource_link" => parseToolResourceLinkContent models object
  | "resource" => parseToolResourceContent models object
  | _ => .error (.invalidParams s!"unsupported tool response content type: {contentType}" none)

def parseToolContentBlock : Value → Except McpError Content
  | .object object => do
    let (contentType, object) ←
      removeRequiredString object ["type"] "tool response content item requires type"
    parseTypedContent models json contentType object
  | _ => .error (.invalidParams "tool response content item must be an object" none)

def buildContentBlock (ctx : RenderContext) (item : Value) : Except McpError Content := do
  let rendered ← Templating.renderValue json item ctx
  parseToolContentBlock models json rendered

def buildContentBlocks (content : List Value) (ctx : RenderContext) :
    Except McpError (List Content) :=
  content.mapM (buildContentBlock models json ctx)

/-! ## Which blocks are well formed -/

def MetaFits (object : Map) : Prop :=
  ∀ value, object.lookup "_meta" = some value → ∃ metaValue, models.metaValue value = .ok metaValue

/-- Annotations are an object that reads, with `last_modified` for `lastModified`. -/
def AnnotationsFit (object : Map) : Prop :=
  ∀ value, object.lookup "annotations" = some value → ∃ (members : Map) (annotations : Annotations),
    value = .object members ∧
    models.annotations (.object (respell members "last_modified" "lastModified")) = .ok annotations

/-- Icons are an array of objects that reads, with `mime_type` for `mimeType`. -/
def IconsFit (object : Map) : Prop :=
  ∀ value, object.lookup "icons" = some value → ∃ (entries : List Map) (icons : List Icon),
    value = .array (entries.map .object) ∧
    models.icons (.array (entries.map fun icon => .object (respell icon "mime_type" "mimeType"))) =
      .ok icons

def mimeTypeOf (object : Map) : Option Value :=
  (object.lookup "mime_type").or (object.lookup "mimeType")

/-- What an embedded resource holds: a text or a blob. -/
structure ResourceFits (resource : Map) : Prop where
  uri : HasString (resource.lookup "uri")
  metaFits : MetaFits models resource
  annotationsFit : AnnotationsFit models resource
  either : HasString (resource.lookup "text") ↔ ¬ HasString (resource.lookup "blob")

/-- What a block must hold besides its type. -/
def BlockFits (contentType : String) (object : Map) : Prop :=
  match contentType with
  | "text" => object.lookup "text" ≠ none ∧ MetaFits models object ∧ AnnotationsFit models object
  | "image" =>
    HasString (object.lookup "data") ∧ HasString (mimeTypeOf object) ∧ MetaFits models object ∧
      AnnotationsFit models object
  | "audio" =>
    HasString (object.lookup "data") ∧ HasString (mimeTypeOf object) ∧ AnnotationsFit models object
  | "resource_link" =>
    HasString (object.lookup "uri") ∧
      (∀ size, (object.lookup "size").bind Value.asU64 = some size → size.toNat ≤ 4294967295) ∧
      MetaFits models object ∧ IconsFit models object ∧ AnnotationsFit models object
  | "resource" =>
    ∃ resource, object.lookup "resource" = some (.object resource) ∧ MetaFits models object ∧
      AnnotationsFit models object ∧ ResourceFits models resource ∧
      (object.lookup "annotations" = none ∨ resource.lookup "annotations" = none)
  | _ => False

/-- An object with a type, and what the type asks for. -/
def WellFormedBlock (value : Value) : Prop :=
  ∃ object contentType, value = .object object ∧
    object.lookup "type" = some (.string contentType) ∧ BlockFits models contentType object

end Blocks

section Fits
variable {models : RmcpModels} {json : SerdeJson} {object : Map}

theorem found_one {key : String} :
    ([key].findSome? fun key => object.lookup key) = object.lookup key := by
  rw [List.findSome?_cons]
  cases object.lookup key with
  | none => rfl
  | some value => rfl

theorem found_mimeType : (["mime_type", "mimeType"].findSome? fun key => object.lookup key) =
    mimeTypeOf object := by
  rw [List.findSome?_cons, found_one, mimeTypeOf]
  cases object.lookup "mime_type" with
  | none => rfl
  | some value => rfl

theorem metaFits_iff {errorMessage : String} :
    (∃ metaValue, optionalModel (readModel errorMessage models.metaValue) (object.lookup "_meta") =
      .ok metaValue) ↔ MetaFits models object := by
  rw [optionalModel_ok]
  exact forall₂_congr fun _ _ => readModel_ok

theorem annotationsFit_iff {errorMessage : String} :
    (∃ annotations, optionalModel (readAnnotations models errorMessage)
      (object.lookup "annotations") = .ok annotations) ↔ AnnotationsFit models object := by
  rw [optionalModel_ok]
  refine forall₂_congr fun value _ => ?_
  unfold readAnnotations
  rw [exists_ok_bind]
  constructor
  · rintro ⟨normalized, hnormalized, hread⟩
    cases value with
    | object members =>
      cases hnormalized
      obtain ⟨annotations, h⟩ := readModel_ok.mp hread
      exact ⟨members, annotations, rfl, h⟩
    | _ => cases hnormalized
  · rintro ⟨members, annotations, rfl, h⟩
    exact ⟨_, rfl, readModel_ok.mpr ⟨annotations, h⟩⟩

theorem normalizeIcons_ok {icons results : List Value} :
    icons.mapM normalizeIcon = .ok results ↔ ∃ entries : List Map, icons = entries.map .object ∧
      results = entries.map fun icon => .object (respell icon "mime_type" "mimeType") := by
  induction icons generalizing results with
  | nil =>
    constructor
    · intro h
      cases h
      exact ⟨[], rfl, rfl⟩
    · rintro ⟨entries, hentries, rfl⟩
      rw [List.map_eq_nil_iff.mp hentries.symm]
      rfl
  | cons icon rest ih =>
    rw [List.mapM_cons]
    constructor
    · intro h
      obtain ⟨first, hfirst, h⟩ := bind_eq_ok h
      obtain ⟨others, hothers, h⟩ := bind_eq_ok h
      cases h
      obtain ⟨entries, rfl, rfl⟩ := ih.mp hothers
      cases icon with
      | object members =>
        cases hfirst
        exact ⟨members :: entries, rfl, rfl⟩
      | _ => cases hfirst
    · rintro ⟨entries, hentries, rfl⟩
      cases entries with
      | nil => cases hentries
      | cons members entries =>
        obtain ⟨rfl, hrest⟩ := List.cons.inj hentries
        rw [ih.mpr ⟨entries, hrest, rfl⟩]
        rfl

theorem iconsFit_iff {errorMessage : String} :
    (∃ icons, optionalModel (readIcons models errorMessage) (object.lookup "icons") = .ok icons) ↔
      IconsFit models object := by
  rw [optionalModel_ok]
  refine forall₂_congr fun value _ => ?_
  unfold readIcons
  rw [exists_ok_bind]
  constructor
  · rintro ⟨normalized, hnormalized, hread⟩
    cases value with
    | array icons =>
      obtain ⟨results, hresults, rfl⟩ := except_map_eq_ok hnormalized
      obtain ⟨entries, rfl, rfl⟩ := normalizeIcons_ok.mp hresults
      obtain ⟨icons, h⟩ := readModel_ok.mp hread
      exact ⟨entries, icons, rfl, h⟩
    | _ => cases hnormalized
  · rintro ⟨entries, icons, rfl, h⟩
    refine ⟨_, ?_, readModel_ok.mpr ⟨icons, h⟩⟩
    exact congrArg (Except.map Value.array) (normalizeIcons_ok.mpr ⟨entries, rfl, rfl⟩)

theorem parseTextContent_ok : (∃ content, parseTextContent models json object = .ok content) ↔
    object.lookup "text" ≠ none ∧ MetaFits models object ∧ AnnotationsFit models object := by
  unfold parseTextContent removeRequiredText removeOptionalMeta removeOptionalAnnotations
  simp (disch := decide) only [extract_bind_ok, found_one, lookup_removeFirst, exists_ok_pure,
    and_true, exists_and_right, requireText_ok, metaFits_iff, annotationsFit_iff]

theorem parseImageContent_ok : (∃ content, parseImageContent models object = .ok content) ↔
    HasString (object.lookup "data") ∧ HasString (mimeTypeOf object) ∧ MetaFits models object ∧
      AnnotationsFit models object := by
  unfold parseImageContent removeRequiredString removeOptionalMeta removeOptionalAnnotations
  simp (disch := decide) only [extract_bind_ok, found_one, found_mimeType, mimeTypeOf,
    lookup_removeFirst, exists_ok_pure, and_true, exists_and_right, requireString_ok, metaFits_iff,
    annotationsFit_iff]

theorem parseAudioContent_ok : (∃ content, parseAudioContent models object = .ok content) ↔
    HasString (object.lookup "data") ∧ HasString (mimeTypeOf object) ∧
      AnnotationsFit models object := by
  unfold parseAudioContent removeRequiredString removeOptionalAnnotations
  simp (disch := decide) only [extract_bind_ok, found_one, found_mimeType, mimeTypeOf,
    lookup_removeFirst, exists_ok_pure, and_true, exists_and_right, requireString_ok,
    annotationsFit_iff]

theorem optionalString_ok {found : Option Value} :
    (∃ text, optionalString found = .ok text) ↔ True := iff_true_intro ⟨_, rfl⟩

theorem resourceLinkSize_ok {found : Option Value} :
    (∃ size, resourceLinkSize found = .ok size) ↔
      ∀ size, found.bind Value.asU64 = some size → size.toNat ≤ 4294967295 := by
  unfold resourceLinkSize
  cases found.bind Value.asU64 with
  | none => exact iff_of_true ⟨_, rfl⟩ nofun
  | some size =>
    simp only [Option.some.injEq, forall_eq']
    split
    · exact iff_of_true ⟨_, rfl⟩ ‹_›
    · exact iff_of_false (fun ⟨_, h⟩ => by cases h) ‹_›

theorem parseToolResourceLinkContent_ok :
    (∃ content, parseToolResourceLinkContent models object = .ok content) ↔
      HasString (object.lookup "uri") ∧
      (∀ size, (object.lookup "size").bind Value.asU64 = some size → size.toNat ≤ 4294967295) ∧
      MetaFits models object ∧ IconsFit models object ∧ AnnotationsFit models object := by
  unfold parseToolResourceLinkContent removeRequiredString removeOptionalString removeOptionalMeta
    removeOptionalIcons removeOptionalAnnotations
  simp (disch := decide) only [extract_bind_ok, found_one, found_mimeType, mimeTypeOf,
    lookup_removeFirst, exists_ok_pure, and_true, true_and, exists_and_right, requireString_ok,
    optionalString_ok, resourceLinkSize_ok, metaFits_iff, iconsFit_iff, annotationsFit_iff]

theorem hasString_iff {found : Option Value} :
    HasString found ↔ (found.bind Value.asStr).isSome = true := by
  rcases found with _ | value
  · exact iff_of_false (fun ⟨_, h⟩ => by cases h) nofun
  · cases value with
    | string text => exact iff_of_true ⟨text, rfl⟩ rfl
    | _ => exact iff_of_false (fun ⟨_, h⟩ => by cases h) nofun

theorem optionalModel_none {T : Type} {read : Value → Except McpError T} {found : Option Value}
    {model : Option T} (h : optionalModel read found = .ok model) : model = none ↔ found = none := by
  cases found with
  | none =>
    cases h
    exact iff_of_true rfl rfl
  | some value =>
    obtain ⟨model, _, rfl⟩ := except_map_eq_ok h
    exact iff_of_false nofun nofun

theorem resourceContents_ok {uri : String} {mimeType text blob : Option String}
    {metaValue : Option Map} :
    (∃ contents, resourceContents uri mimeType metaValue text blob = .ok contents) ↔
      (text.isSome = true ↔ ¬ blob.isSome = true) := by
  cases text with
  | none =>
    cases blob with
    | none => exact iff_of_false (fun ⟨_, h⟩ => by cases h) (by decide)
    | some blob => exact iff_of_true ⟨_, rfl⟩ (by simp)
  | some text =>
    cases blob with
    | none => exact iff_of_true ⟨_, rfl⟩ (by simp)
    | some blob => exact iff_of_false (fun ⟨_, h⟩ => by cases h) (by simp)

theorem onlyAnnotations_ok {topLevel nested : Option Annotations} :
    (∃ annotations, onlyAnnotations topLevel nested = .ok annotations) ↔
      topLevel = none ∨ nested = none := by
  cases topLevel with
  | none =>
    refine iff_of_true ?_ (.inl rfl)
    cases nested with
    | none => exact ⟨_, rfl⟩
    | some nested => exact ⟨_, rfl⟩
  | some topLevel =>
    cases nested with
    | none => exact iff_of_true ⟨_, rfl⟩ (.inr rfl)
    | some nested => exact iff_of_false (fun ⟨_, h⟩ => by cases h) (by simp)

theorem requireResource_eq_ok {found : Option Value} {resource : Map} :
    requireResource found = .ok resource ↔ found = some (.object resource) := by
  rcases found with _ | value
  · exact iff_of_false nofun nofun
  · cases value with
    | object members =>
      constructor
      · intro h
        cases h
        rfl
      · intro h
        cases h
        rfl
    | _ => exact iff_of_false nofun nofun

theorem parseToolResourceContent_ok :
    (∃ content, parseToolResourceContent models object = .ok content) ↔
      ∃ resource, object.lookup "resource" = some (.object resource) ∧ MetaFits models object ∧
        AnnotationsFit models object ∧ ResourceFits models resource ∧
        (object.lookup "annotations" = none ∨ resource.lookup "annotations" = none) := by
  unfold parseToolResourceContent removeRequiredString removeOptionalString removeOptionalMeta
    removeOptionalAnnotations
  simp (disch := decide) only [extract_bind_ok, exists_ok_bind, found_one, lookup_removeFirst,
    exists_ok_pure, and_true, exists_and_right, exists_eq_left', requireString_ok, metaFits_iff,
    requireResource_eq_ok, optionalString, Except.ok.injEq, resourceContents_ok,
    onlyAnnotations_ok, ← hasString_iff]
  constructor
  · rintro ⟨topLevel, htop, hmeta, resource, hmember, huri, _, hcontent, nested, hnested, heither, honce⟩
    refine ⟨resource, hmember, hmeta, annotationsFit_iff.mp ⟨topLevel, htop⟩,
      ⟨huri, hcontent, annotationsFit_iff.mp ⟨nested, hnested⟩, heither⟩, ?_⟩
    rwa [optionalModel_none htop, optionalModel_none hnested] at honce
  · rintro ⟨resource, hmember, hmeta, hannotations, hfits, honce⟩
    obtain ⟨topLevel, htop⟩ := annotationsFit_iff.mpr hannotations
    obtain ⟨nested, hnested⟩ := annotationsFit_iff.mpr hfits.annotationsFit
    refine ⟨topLevel, htop, hmeta, resource, hmember, hfits.uri, ⟨_, rfl⟩, hfits.metaFits, nested,
      hnested, hfits.either, ?_⟩
    rwa [optionalModel_none htop, optionalModel_none hnested]

/-- A block of one of the five types is read exactly if it holds what its type asks for. -/
theorem parseTypedContent_ok {contentType : String} :
    (∃ content, parseTypedContent models json contentType object = .ok content) ↔
      BlockFits models contentType object := by
  unfold parseTypedContent BlockFits
  split
  · exact parseTextContent_ok
  · exact parseImageContent_ok
  · exact parseAudioContent_ok
  · exact parseToolResourceLinkContent_ok
  · exact parseToolResourceContent_ok
  · exact iff_of_false (fun ⟨_, h⟩ => by cases h) id

theorem metaFits_removeFirst {keys : List String} (h : "_meta" ∉ keys) :
    MetaFits models (removeFirst object keys).2 ↔ MetaFits models object := by
  unfold MetaFits
  rw [lookup_removeFirst h]

theorem annotationsFit_removeFirst {keys : List String} (h : "annotations" ∉ keys) :
    AnnotationsFit models (removeFirst object keys).2 ↔ AnnotationsFit models object := by
  unfold AnnotationsFit
  rw [lookup_removeFirst h]

theorem iconsFit_removeFirst {keys : List String} (h : "icons" ∉ keys) :
    IconsFit models (removeFirst object keys).2 ↔ IconsFit models object := by
  unfold IconsFit
  rw [lookup_removeFirst h]

/-- The type is read first, and no type asks for it again. -/
theorem blockFits_rest {contentType : String} :
    BlockFits models contentType (removeFirst object ["type"]).2 ↔
      BlockFits models contentType object := by
  unfold BlockFits
  simp (disch := decide) only [mimeTypeOf, lookup_removeFirst, metaFits_removeFirst,
    annotationsFit_removeFirst, iconsFit_removeFirst]

theorem parseToolContentBlock_ok {value : Value} :
    (∃ content, parseToolContentBlock models json value = .ok content) ↔
      WellFormedBlock models value := by
  cases value with
  | object object =>
    unfold parseToolContentBlock removeRequiredString
    rw [extract_bind_ok, found_one]
    constructor
    · rintro ⟨contentType, htype, h⟩
      obtain ⟨text, hfound⟩ := requireString_ok.mp ⟨contentType, htype⟩
      rw [hfound] at htype
      cases htype
      exact ⟨object, _, rfl, hfound, blockFits_rest.mp (parseTypedContent_ok.mp h)⟩
    · rintro ⟨members, contentType, hvalue, hfound, h⟩
      cases hvalue
      refine ⟨contentType, ?_, parseTypedContent_ok.mpr (blockFits_rest.mpr h)⟩
      rw [hfound]
      rfl
  | _ => exact iff_of_false (fun ⟨_, h⟩ => by cases h) fun ⟨_, _, h, _⟩ => by cases h

/-- The items of a response become blocks if each renders to a well-formed one. -/
theorem buildContentBlocks_ok {items : List Value} {ctx : RenderContext} :
    (∃ contents, buildContentBlocks models json items ctx = .ok contents) ↔
      ∀ item ∈ items, Templating.Renders json ctx item ∧
        ∀ rendered, Templating.renderValue json item ctx = .ok rendered →
          WellFormedBlock models rendered := by
  unfold buildContentBlocks buildContentBlock
  rw [exists_ok_mapM]
  refine forall₂_congr fun item _ => ?_
  rw [exists_ok_bind, ← Templating.renderValue_ok]
  constructor
  · rintro ⟨rendered, hrendered, h⟩
    refine ⟨⟨rendered, hrendered⟩, fun other hother => ?_⟩
    cases hrendered.symm.trans hother
    exact parseToolContentBlock_ok.mp h
  · rintro ⟨⟨rendered, hrendered⟩, h⟩
    exact ⟨rendered, hrendered, parseToolContentBlock_ok.mpr (h rendered hrendered)⟩

/-- The schema compiles and finds nothing wrong. -/
def SchemaAccepts (schemas : JsonSchema) (schema structured : Value) : Prop :=
  ∃ compiled, schemas.validatorFor schema = .ok compiled ∧ compiled structured = []

theorem validateStructuredOutput_ok {schemas : JsonSchema} {structured schema : Value} :
    (∃ done, validateStructuredOutput schemas structured schema = .ok done) ↔
      SchemaAccepts schemas schema structured := by
  unfold validateStructuredOutput SchemaAccepts
  cases schemas.validatorFor schema with
  | error error => exact iff_of_false (fun ⟨_, h⟩ => by cases h) fun ⟨_, h, _⟩ => by cases h
  | ok compiled =>
    simp only [Except.mapError, Except.ok.injEq, exists_eq_left', ← List.isEmpty_iff]
    change (∃ done, (if (compiled structured).isEmpty then _ else _) = _) ↔ _
    split
    · exact iff_of_true ⟨_, rfl⟩ ‹_›
    · exact iff_of_false (fun ⟨_, h⟩ => by cases h) ‹_›

theorem buildStructuredResult_ok {schemas : JsonSchema} {structured : Value}
    {outputSchema : Option Value} {fallback : Option String} :
    (∃ result, buildStructuredResult json schemas structured outputSchema fallback = .ok result) ↔
      ∀ schema, outputSchema = some schema → SchemaAccepts schemas schema structured := by
  unfold buildStructuredResult
  cases outputSchema with
  | none => exact iff_of_true ⟨_, rfl⟩ nofun
  | some schema =>
    simp only [exists_ok_bind, exists_ok_pure, and_true, validateStructuredOutput_ok,
      Option.some.injEq, forall_eq']

end Fits

end RustMcpCore
