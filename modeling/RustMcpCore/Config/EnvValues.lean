import RustMcpCore.Config.Loading
import RustMcpCore.Library.JsonText

/-! # Values of the environment in a JSON file

The placeholders of a file are expanded before its text is parsed, so that a value is read as a
part of the text. Inside a string literal it is read as itself if it needs no escape there.
-/
namespace RustMcpCore
open Library

/-! ## What `serde_json` makes of the tokens -/

namespace JsonValue
open JsonText

/-- A container that is not closed yet. -/
inductive Partial
  | array (items : List Value)
  | object (members : Map) (key : Option String)

structure Builder where
  stack : List Partial
  root : Option Value

/-- A number of the given text, unless it is out of range. -/
abbrev ReadsNumber := List Char → Option Number

def place (builder : Builder) (value : Value) : Option Builder :=
  match builder.stack with
  | [] => some { builder with root := some value }
  | .array items :: stack => some { builder with stack := .array (items ++ [value]) :: stack }
  | .object members (some key) :: stack =>
    some { builder with stack := .object (members.insert key value) none :: stack }
  | .object _ none :: _ => none

/-- The default recursion limit lets 127 containers stand in each other. -/
def enter (builder : Builder) (container : Partial) : Option Builder :=
  if builder.stack.length < 127 then some { builder with stack := container :: builder.stack }
  else none

def leaveArray (builder : Builder) : Option Builder :=
  match builder.stack with
  | .array items :: stack => place { builder with stack } (.array items)
  | _ => none

def leaveObject (builder : Builder) : Option Builder :=
  match builder.stack with
  | .object members none :: stack => place { builder with stack } (.object members)
  | _ => none

def addKey (builder : Builder) (key : String) : Option Builder :=
  match builder.stack with
  | .object members none :: stack =>
    some { builder with stack := .object members (some key) :: stack }
  | _ => none

def add (number : ReadsNumber) (builder : Builder) : Token → Option Builder
  | .beginArray => enter builder (.array [])
  | .endArray => leaveArray builder
  | .beginObject => enter builder (.object [] none)
  | .endObject => leaveObject builder
  | .key text => addKey builder (.ofList text)
  | .string text => place builder (.string (.ofList text))
  | .number text => (number text).bind fun n => place builder (.number n)
  | .bool b => place builder (.bool b)
  | .null => place builder .null

def build (number : ReadsNumber) (builder : Builder) (tokens : List Token) : Option Builder :=
  tokens.foldlM (add number) builder

/-- The value of a document. -/
def fromTokens (number : ReadsNumber) (tokens : List Token) : Option Value :=
  (build number ⟨[], none⟩ tokens).bind (·.root)

/-! Whether there is a value does not depend on what the literals say. -/

/-- Which containers are open, and which of them wait for the value of a key. -/
abbrev Shape := List (Option Bool) × Bool

def Partial.shape : Partial → Option Bool
  | .array _ => none
  | .object _ key => some key.isSome

def Builder.shape (builder : Builder) : Shape :=
  (builder.stack.map Partial.shape, builder.root.isSome)

def placeShape : Shape → Option Shape
  | ([], _) => some ([], true)
  | (none :: stack, root) => some (none :: stack, root)
  | (some true :: stack, root) => some (some false :: stack, root)
  | (some false :: _, _) => none

section Shapes
variable {number : ReadsNumber} {builder other : Builder}

theorem place_shape (builder : Builder) (value : Value) :
    (place builder value).map Builder.shape = placeShape builder.shape := by
  obtain ⟨stack, root⟩ := builder
  cases stack with
  | nil => rfl
  | cons container stack =>
    cases container with
    | array items => rfl
    | object members key =>
      cases key with
      | none => rfl
      | some key => rfl

theorem leaveArray_shape (builder : Builder) : (leaveArray builder).map Builder.shape =
    match builder.shape with
    | (none :: stack, root) => placeShape (stack, root)
    | _ => none := by
  obtain ⟨stack, root⟩ := builder
  cases stack with
  | nil => rfl
  | cons container stack =>
    cases container with
    | array items => exact place_shape _ _
    | object members key => rfl

theorem leaveObject_shape (builder : Builder) : (leaveObject builder).map Builder.shape =
    match builder.shape with
    | (some false :: stack, root) => placeShape (stack, root)
    | _ => none := by
  obtain ⟨stack, root⟩ := builder
  cases stack with
  | nil => rfl
  | cons container stack =>
    cases container with
    | array items => rfl
    | object members key =>
      cases key with
      | none => exact place_shape _ _
      | some key => rfl

theorem addKey_shape (builder : Builder) (key : String) : (addKey builder key).map Builder.shape =
    match builder.shape with
    | (some false :: stack, root) => some (some true :: stack, root)
    | _ => none := by
  obtain ⟨stack, root⟩ := builder
  cases stack with
  | nil => rfl
  | cons container stack =>
    cases container with
    | array items => rfl
    | object members key =>
      cases key with
      | none => rfl
      | some key => rfl

theorem enter_shape (builder : Builder) (container : Partial) :
    (enter builder container).map Builder.shape =
      if builder.shape.1.length < 127 then
        some (container.shape :: builder.shape.1, builder.shape.2) else none := by
  unfold enter Builder.shape
  rw [List.length_map]
  split
  · rfl
  · rfl

theorem add_shape (h : builder.shape = other.shape) (token : Token) :
    (add number builder token).map Builder.shape = (add number other token).map Builder.shape := by
  cases token with
  | beginArray => rw [add, add, enter_shape, enter_shape, h]
  | endArray => rw [add, add, leaveArray_shape, leaveArray_shape, h]
  | beginObject => rw [add, add, enter_shape, enter_shape, h]
  | endObject => rw [add, add, leaveObject_shape, leaveObject_shape, h]
  | key text => rw [add, add, addKey_shape, addKey_shape, h]
  | string text => rw [add, add, place_shape, place_shape, h]
  | number text =>
    rw [add, add]
    cases number text with
    | none => rfl
    | some n => exact (place_shape _ _).trans ((congrArg placeShape h).trans (place_shape _ _).symm)
  | bool b => rw [add, add, place_shape, place_shape, h]
  | null => rw [add, add, place_shape, place_shape, h]

theorem add_literal_shape (h : builder.shape = other.shape) (asKey : Bool)
    (text found : List Char) :
    (add number builder (Reader.literalToken asKey text)).map Builder.shape =
      (add number other (Reader.literalToken asKey found)).map Builder.shape := by
  cases asKey with
  | true => exact (addKey_shape _ _).trans (by rw [h]; exact (addKey_shape _ _).symm)
  | false => exact (place_shape _ _).trans ((congrArg placeShape h).trans (place_shape _ _).symm)

theorem build_cons (builder : Builder) (token : Token) (tokens : List Token) :
    build number builder (token :: tokens) =
      (add number builder token).bind fun next => build number next tokens :=
  List.foldlM_cons

theorem bind_shape {first second : Option Builder} {f g : Builder → Option Builder}
    (h : first.map Builder.shape = second.map Builder.shape)
    (hnext : ∀ next next' : Builder, next.shape = next'.shape →
      (f next).map Builder.shape = (g next').map Builder.shape) :
    (first.bind f).map Builder.shape = (second.bind g).map Builder.shape := by
  cases first with
  | none =>
    cases second with
    | none => rfl
    | some next' => cases h
  | some next =>
    cases second with
    | none => cases h
    | some next' => exact hnext next next' (Option.some.inj h)

theorem build_shape (h : builder.shape = other.shape) (tokens : List Token) :
    (build number builder tokens).map Builder.shape =
      (build number other tokens).map Builder.shape := by
  induction tokens generalizing builder other with
  | nil => exact congrArg some h
  | cons token tokens ih =>
    rw [build_cons, build_cons]
    exact bind_shape (add_shape h token) fun _ _ => ih

theorem fromTokens_isSome (number : ReadsNumber) (pre post : List Token) (asKey : Bool)
    (text found : List Char) :
    (fromTokens number (pre ++ Reader.literalToken asKey text :: post)).isSome =
      (fromTokens number (pre ++ Reader.literalToken asKey found :: post)).isSome := by
  have hshape : (build number ⟨[], none⟩ (pre ++ Reader.literalToken asKey text :: post)).map
      Builder.shape = (build number ⟨[], none⟩ (pre ++ Reader.literalToken asKey found :: post)).map
        Builder.shape := by
    unfold build
    rw [List.foldlM_append, List.foldlM_append]
    refine bind_shape rfl fun next next' h => ?_
    rw [List.foldlM_cons, List.foldlM_cons]
    exact bind_shape (add_literal_shape h asKey text found) fun _ _ h => build_shape h post
  have hroot := congrArg (Option.map Prod.snd) hshape
  rw [Option.map_map, Option.map_map] at hroot
  have hisSome : ∀ built : Option Builder,
      (built.bind (·.root)).isSome = (built.map (Prod.snd ∘ Builder.shape)).getD false := by
    intro built
    cases built with
    | none => rfl
    | some builder => rfl
  unfold fromTokens
  rw [hisSome, hisSome, hroot]

end Shapes

/-- `serde_json::from_str` reads JSON text, and the value is the one of its tokens. -/
def ReadsJsonText (json : SerdeJson) (number : ReadsNumber) : Prop :=
  ∀ text, (json.fromStr text).toOption = (tokens text.toList).bind (fromTokens number)

end JsonValue

/-! ## Placeholders in literals -/

namespace Loader

/-- A string literal that is a placeholder of the environment. -/
def envLiteral (name : String) : String := "\"$\x7benv:" ++ name ++ "\x7d\""

section Expansion
variable {surroundings : Surroundings} {before after b a name value : String}

theorem segments_append {segments more : List Segment} {text rest : List Char}
    (h : Segments segments text) (hrest : ∀ tail, rest ≠ '{' :: tail) (hmore : Segments more rest) :
    Segments (segments ++ more) (text ++ rest) := by
  induction h with
  | nil => exact hmore
  | @char c tail segments plain _ ih =>
    refine .char (fun hopen => plain ?_) ih
    obtain ⟨suffix, hsuffix⟩ := hopen
    obtain ⟨rfl, hbrace⟩ := List.cons.inj hsuffix
    cases tail with
    | nil => exact absurd hbrace.symm (hrest suffix)
    | cons next tail =>
      obtain ⟨rfl, -⟩ := List.cons.inj hbrace
      exact ⟨tail, rfl⟩
  | placeholder inside _ ih =>
    simpa only [List.cons_append, List.append_assoc] using Segments.placeholder inside ih

theorem scanEnv_of_expand (h : expandEnvVars surroundings before = .ok b) :
    scanEnv surroundings none before.toList = .ok b.toList := by
  obtain ⟨out, hout, rfl⟩ := except_map_eq_ok h
  rw [hout, String.toList_ofList]

/-- A literal that no placeholder before it runs over has the value in it. -/
theorem expand_literal (hname : name ≠ "") (hinside : '}' ∉ name.toList)
    (hset : surroundings.envVar name = .ok value)
    (hbefore : expandEnvVars surroundings before = .ok b)
    (hafter : expandEnvVars surroundings after = .ok a) :
    expandEnvVars surroundings (before ++ envLiteral name ++ after) =
      .ok (.ofList (b.toList ++ '"' :: (value.toList ++ '"' :: a.toList))) := by
  obtain ⟨lead, hlead, hleadNamed, hb⟩ := scanEnv_iff.mp (scanEnv_of_expand hbefore)
  obtain ⟨tail, htail, htailNamed, ha⟩ := scanEnv_iff.mp (scanEnv_of_expand hafter)
  have hkey : '}' ∉ envLead ++ name.toList := by
    rw [List.mem_append, not_or]
    exact ⟨by decide, hinside⟩
  have hquoted : Segments (.char '"' :: .placeholder (envLead ++ name.toList) :: .char '"' :: tail)
      ('"' :: '$' :: '{' :: (envLead ++ name.toList ++ '}' :: '"' :: after.toList)) :=
    .char (by simp) (.placeholder hkey (.char (by simp) htail))
  have hwhole := segments_append hlead (by simp) hquoted
  have hnamed : emptyName ∉
      lead ++ .char '"' :: .placeholder (envLead ++ name.toList) :: .char '"' :: tail := by
    have hplaceholder : Segment.placeholder (envLead ++ name.toList) ≠ emptyName := by
      intro h
      have hempty := List.append_right_eq_self.mp (Segment.placeholder.inj h)
      exact hname (String.toList_eq_nil_iff.mp hempty)
    have hchar : Segment.char '"' ≠ emptyName := fun h => by cases h
    rw [List.mem_append, not_or]
    exact ⟨hleadNamed, not_mem_cons_segments hchar
      (not_mem_cons_segments hplaceholder (not_mem_cons_segments hchar htailNamed))⟩
  have htext : (before ++ envLiteral name ++ after).toList =
      before.toList ++ '"' :: '$' :: '{' :: (envLead ++ name.toList ++ '}' :: '"' :: after.toList) := by
    simp only [envLiteral, String.toList_append, List.append_assoc]
    rfl
  have hvalue : envValue surroundings (.ofList name.toList) = value := by
    rw [String.ofList_toList, envValue, hset]
  have hexpanded : (lead ++ .char '"' :: .placeholder (envLead ++ name.toList) :: .char '"' ::
      tail).flatMap (expandSegment surroundings) =
        b.toList ++ '"' :: (value.toList ++ '"' :: a.toList) := by
    rw [List.flatMap_append, ← hb, List.flatMap_cons, List.flatMap_cons, List.flatMap_cons, ← ha,
      expandSegment_env, hvalue]
    rfl
  unfold expandEnvVars
  rw [htext, scan_of_segments hwhole hnamed, hexpanded]
  rfl

end Expansion

/-! ## Values in a file -/

/-- A JSON file with a literal that is a placeholder of the environment. -/
structure EnvFile where
  path : String
  extension : String
  before : String
  name : String
  after : String
  json : Text.eqIgnoreAsciiCase extension "json"
  named : name ≠ ""
  inside : '}' ∉ name.toList

def EnvFile.raw (file : EnvFile) : String := file.before ++ envLiteral file.name ++ file.after

section Intact
variable (crates : LoaderCrates) (number : JsonValue.ReadsNumber) (surroundings : Surroundings)

/-- The file is parsed as the document with the value in the place of the literal and with
everything else as it is with another value, it can be read no matter what the value is, and what
is loaded is what the checks and `serde` make of this document. -/
structure ArrivesIntact (file : EnvFile) (value : String) (asKey : Bool)
    (pre post : List JsonText.Token) : Prop where
  parsed : ∃ expanded, expandEnvVars surroundings file.raw = .ok expanded ∧
    JsonText.tokens expanded.toList =
      some (pre ++ JsonText.Reader.literalToken asKey value.toList :: post)
  independent : ∀ other, (loadConfigValue crates.toConfigCrates surroundings file.path
      (some file.extension)).toOption.isSome =
    (JsonValue.fromTokens number
      (pre ++ JsonText.Reader.literalToken asKey other :: post)).isSome
  loaded : ∀ config, loadMcpConfigFromPath crates surroundings file.path (some file.extension) =
      .ok config ↔
    ∃ document, JsonValue.fromTokens number
        (pre ++ JsonText.Reader.literalToken asKey value.toList :: post) = some document ∧
      crates.schemaErrors document = .ok [] ∧ crates.fromValue document = .ok config ∧
      WellFormed document config

variable {crates number surroundings}

theorem toOption_mapError {E F A : Type} (result : Except E A) (f : E → F) :
    (result.mapError f).toOption = result.toOption := by
  cases result with
  | error error => rfl
  | ok value => rfl

theorem toOption_eq_some {E A : Type} {result : Except E A} {value : A} :
    result.toOption = some value ↔ result = .ok value := by
  cases result with
  | error error => exact iff_of_false (fun h => by cases h) fun h => by cases h
  | ok other =>
    exact ⟨fun h => congrArg Except.ok (Option.some.inj h), fun h => congrArg some (Except.ok.inj h)⟩

/-- What is parsed decides what is read. -/
theorem read_of_tokens {file : EnvFile} {expanded : String} {doc : List JsonText.Token}
    (hjson : JsonValue.ReadsJsonText crates.json number)
    (hraw : surroundings.readToString file.path = .ok file.raw)
    (hexpanded : expandEnvVars surroundings file.raw = .ok expanded)
    (hdoc : JsonText.tokens expanded.toList = some doc) :
    (loadConfigValue crates.toConfigCrates surroundings file.path
      (some file.extension)).toOption = JsonValue.fromTokens number doc := by
  have hload : loadConfigValue crates.toConfigCrates surroundings file.path (some file.extension) =
      (crates.json.fromStr expanded).mapError fun error => .invalidRequest error none := by
    unfold loadConfigValue
    rw [hraw]
    change ((expandEnvVars surroundings file.raw).bind _) = _
    rw [hexpanded]
    change ((if Text.eqIgnoreAsciiCase file.extension "json" then crates.json.fromStr
      else crates.yaml) expanded).mapError _ = _
    rw [if_pos file.json]
  rw [hload, toOption_mapError, hjson, hdoc]
  rfl

end Intact

/-- A value of the environment arrives as it is exactly if it needs no escape in a literal. -/
theorem envValue_intact_iff (crates : LoaderCrates) (number : JsonValue.ReadsNumber)
    (hjson : JsonValue.ReadsJsonText crates.json number) (surroundings : Surroundings)
    (file : EnvFile) (hraw : surroundings.readToString file.path = .ok file.raw) (value : String)
    (hset : surroundings.envVar file.name = .ok value) {b a : String} {asKey : Bool}
    {pre post : List JsonText.Token} (hbefore : expandEnvVars surroundings file.before = .ok b)
    (hafter : expandEnvVars surroundings file.after = .ok a)
    (hplace : JsonText.LiteralBetween b.toList a.toList asKey pre post) :
    ArrivesIntact crates number surroundings file value asKey pre post ↔
      JsonText.Plain value.toList := by
  have hexpanded := expand_literal file.named file.inside hset hbefore hafter
  have hiff := hplace.tokens_iff value.toList
  constructor
  · intro h
    obtain ⟨expanded, hsome, htokens⟩ := h.parsed
    obtain rfl := Except.ok.inj (hexpanded.symm.trans hsome)
    rw [String.toList_ofList] at htokens
    exact hiff.mp htokens
  · intro hplain
    have hdoc := hiff.mpr hplain
    rw [← String.toList_ofList (l := b.toList ++ _)] at hdoc
    have hread := read_of_tokens hjson hraw hexpanded hdoc
    refine ⟨⟨_, hexpanded, hdoc⟩, fun other => ?_, fun config => ?_⟩
    · rw [hread]
      exact JsonValue.fromTokens_isSome number pre post asKey value.toList other
    · rw [loadMcpConfigFromPath_eq_ok, ← hread]
      simp only [toOption_eq_some]

/-! ## One file -/

/-- Numbers that are digits alone. -/
def readDigits (text : List Char) : Option Number :=
  if text.all Char.isDigit then
    some (.posInt (.ofNat (text.foldl (fun n c => 10 * n + (c.toNat - 48)) 0)))
  else none

def readingJson : SerdeJson where
  fromStr text := ((JsonText.tokens text.toList).bind (JsonValue.fromTokens readDigits)).elim
    (.error "not a JSON text") .ok
  toString _ := ""

theorem readingJson_reads : JsonValue.ReadsJsonText readingJson readDigits := by
  intro text
  unfold readingJson
  simp only
  cases (JsonText.tokens text.toList).bind (JsonValue.fromTokens readDigits) with
  | none => rfl
  | some value => rfl

/-- The setting of the server, or its default. -/
def serverText (value : Value) (key default : String) : String :=
  (((value.get "server").bind (·.get key)).bind Value.asStr).getD default

/-- The crates on files that give their version, the host and the endpoint at most. -/
def readingCrates : LoaderCrates where
  json := readingJson
  yaml _ := .error "not a YAML text"
  schemaErrors _ := .ok []
  fromValue value := .ok {
    config := { McpConfig.empty with
      server := { ServerSection.default with
        host := serverText value "host" "127.0.0.1"
        endpointPath := serverText value "endpoint_path" "/mcp" } }
    topLevelCombinators := .warn }

/-- A configuration with the host in the environment. -/
def hostFile : EnvFile where
  path := "mcp_config.json"
  extension := "json"
  before := "\x7b\"version\": 1, \"server\": \x7b\"host\": "
  name := "HOST"
  after := "\x7d\x7d"
  json := by decide
  named := by decide
  inside := by decide

/-- The file, and one variable. -/
def hostSurroundings (host : String) : Surroundings where
  envVar name := if name = "HOST" then .ok host else .error "environment variable not found"
  readToString _ := .ok hostFile.raw

def hostBefore : List JsonText.Token :=
  [.beginObject, .key "version".toList, .number ['1'], .key "server".toList, .beginObject,
    .key "host".toList]

theorem hostFile_place : JsonText.LiteralBetween hostFile.before.toList hostFile.after.toList
    false hostBefore [.endObject, .endObject] :=
  ⟨[.object, .object], by decide, by decide⟩

theorem envValue_intact_plain : ArrivesIntact readingCrates readDigits
    (hostSurroundings "mcp.internal") hostFile "mcp.internal" false hostBefore
    [.endObject, .endObject] :=
  (envValue_intact_iff readingCrates _ readingJson_reads (hostSurroundings "mcp.internal") hostFile
    rfl "mcp.internal" rfl (b := hostFile.before) (a := hostFile.after) rfl rfl
    hostFile_place).mpr (by decide)

/-- A value with quotes, and the text that comes of it. -/
def quotedValue : String := "x\", \"endpoint_path\": \"/open"

def injectedText : String :=
  "\x7b\"version\": 1, \"server\": \x7b\"host\": \"x\", \"endpoint_path\": \"/open\"\x7d\x7d"

def openedConfig : ParsedConfig where
  config := { McpConfig.empty with
    server := { ServerSection.default with host := "x", endpointPath := "/open" } }
  topLevelCombinators := .warn

/-- The file is loaded, with another host and another endpoint. -/
theorem quoted_value_injects :
    loadMcpConfigFromPath readingCrates (hostSurroundings quotedValue) hostFile.path
        (some hostFile.extension) = .ok openedConfig ∧
      ¬ ArrivesIntact readingCrates readDigits (hostSurroundings quotedValue) hostFile
        quotedValue false hostBefore [.endObject, .endObject] := by
  have hexpanded : expandEnvVars (hostSurroundings quotedValue) hostFile.raw =
      .ok injectedText := rfl
  have htokens : JsonText.tokens injectedText.toList =
      some (hostBefore ++ [.string ['x'], .key "endpoint_path".toList, .string "/open".toList,
        .endObject, .endObject]) := by decide
  have hread := toOption_eq_some.mp
    (@read_of_tokens readingCrates _ _ _ _ _ readingJson_reads rfl hexpanded htokens)
  refine ⟨?_, fun h => ?_⟩
  · unfold loadMcpConfigFromPath
    rw [hread]
    rfl
  · obtain ⟨expanded, hsome, hparsed⟩ := h.parsed
    obtain rfl := Except.ok.inj (hexpanded.symm.trans hsome)
    rw [htokens] at hparsed
    have hlength := congrArg List.length (Option.some.inj hparsed)
    exact absurd hlength (by decide)

end Loader
end RustMcpCore
