import RustMcpCore.Config.Root
import RustMcpCore.Errors

/-! # Reading objects

A reader takes a member out of an object and hands on the rest. What it leaves behind
are the members under all other keys.
-/
namespace RustMcpCore

/-- `find` over `config.plugins`, then `and_then`. -/
def pluginDefault (config : McpConfig) (pluginType : PluginType) (pluginName : String) :
    Option Value :=
  (config.plugins.find? fun p => p.name = pluginName ∧ p.pluginType = pluginType).bind (·.config)

def mergePluginConfig (config : McpConfig) (pluginType : PluginType) (pluginName : String)
    (pluginConfig : Option Value) : Value :=
  match pluginDefault config pluginType pluginName, pluginConfig with
  | some (.object base), some (.object overrides) =>
    .object (overrides.foldl (fun merged member => Map.insert merged member.1 member.2) base)
  | _, some value => value
  | some value, none => value
  | none, none => .null

/-- The loop over the keys: the first one that is there is taken out. -/
def removeFirst (object : Map) : List String → Option Value × Map
  | [] => (none, object)
  | key :: keys =>
    match Map.remove object key with
    | (some value, rest) => (some value, rest)
    | (none, _) => removeFirst object keys

/-- A reader of the member under the first key that is there. -/
def extract {T : Type} (object : Map) (keys : List String)
    (read : Option Value → Except McpError T) : Except McpError (T × Map) :=
  (read (removeFirst object keys).1).map fun value => (value, (removeFirst object keys).2)

def requireString (message : String) (found : Option Value) : Except McpError String :=
  match found.bind Value.asStr with
  | some text => .ok text
  | none => .error (.invalidParams message none)

def removeRequiredString (object : Map) (keys : List String) (message : String) :
    Except McpError (String × Map) :=
  extract object keys (requireString message)

/-- What is no string is written as JSON. -/
def requireText (json : SerdeJson) (message : String) : Option Value → Except McpError String
  | some (.string value) => .ok value
  | some other => .ok (json.toString other)
  | none => .error (.invalidParams message none)

def removeRequiredText (json : SerdeJson) (object : Map) (keys : List String) (message : String) :
    Except McpError (String × Map) :=
  extract object keys (requireText json message)

def optionalString (found : Option Value) : Except McpError (Option String) :=
  .ok (found.bind Value.asStr)

def removeOptionalString (object : Map) (keys : List String) :
    Except McpError (Option String × Map) :=
  extract object keys optionalString

def readModel {T : Type} (errorMessage : String) (read : Value → Except String T) (value : Value) :
    Except McpError T :=
  (read value).mapError fun error => .invalidParams s!"{errorMessage}: {error}" none

/-- `map`, then `transpose`. -/
def optionalModel {T : Type} (read : Value → Except McpError T) :
    Option Value → Except McpError (Option T)
  | none => .ok none
  | some value => (read value).map some

def removeOptionalMeta (models : RmcpModels) (object : Map) (key errorMessage : String) :
    Except McpError (Option Map × Map) :=
  extract object [key] (optionalModel (readModel errorMessage models.metaValue))

/-- A member gives way to one under another spelling of its key, if that is not there. -/
def respell (object : Map) (key spelling : String) : Map :=
  match Map.remove object key with
  | (some value, rest) => if (rest.lookup spelling).isSome then rest else Map.insert rest spelling value
  | (none, _) => object

def normalizeIcon : Value → Except McpError Value
  | .object icon => .ok (.object (respell icon "mime_type" "mimeType"))
  | _ => .error (.invalidParams "icon entries must be objects" none)

def normalizeIconsValue : Value → Except McpError Value
  | .array icons => (icons.mapM normalizeIcon).map .array
  | _ => .error (.invalidParams "icons must be an array" none)

def normalizeAnnotationsValue : Value → Except McpError Value
  | .object annotations => .ok (.object (respell annotations "last_modified" "lastModified"))
  | _ => .error (.invalidParams "annotations must be an object" none)

def readIcons (models : RmcpModels) (errorMessage : String) (value : Value) :
    Except McpError (List Icon) := do
  let normalized ← normalizeIconsValue value
  readModel errorMessage models.icons normalized

def removeOptionalIcons (models : RmcpModels) (object : Map) (key errorMessage : String) :
    Except McpError (Option (List Icon) × Map) :=
  extract object [key] (optionalModel (readIcons models errorMessage))

def readAnnotations (models : RmcpModels) (errorMessage : String) (value : Value) :
    Except McpError Annotations := do
  let normalized ← normalizeAnnotationsValue value
  readModel errorMessage models.annotations normalized

def removeOptionalAnnotations (models : RmcpModels) (object : Map) (key errorMessage : String) :
    Except McpError (Option Annotations × Map) :=
  extract object [key] (optionalModel (readAnnotations models errorMessage))

/-! ## What the readers find -/

theorem Map.lookup_remove {object : Map} {key other : String} (h : other ≠ key) :
    (Map.remove object key).2.lookup other = object.lookup other := by
  unfold Map.remove
  simp only
  induction object with
  | nil => rfl
  | cons member rest ih =>
    obtain ⟨found, value⟩ := member
    by_cases hfound : found = key
    · rw [List.filter_cons_of_neg (by simpa using hfound), ih, List.lookup_cons]
      have hne : (other == found) = false := by
        rw [hfound]
        exact beq_false_of_ne h
      rw [hne]
    · rw [List.filter_cons_of_pos (by simpa using hfound), List.lookup_cons, List.lookup_cons, ih]

/-- A member that is a string. -/
def HasString (found : Option Value) : Prop := ∃ text, found = some (.string text)

section Readers
variable {object : Map} {keys : List String}

@[simp]
theorem removeFirst_fst : (removeFirst object keys).1 = keys.findSome? fun key => object.lookup key := by
  induction keys with
  | nil => rfl
  | cons key keys ih =>
    unfold removeFirst
    rw [List.findSome?_cons]
    cases hfound : object.lookup key with
    | none =>
      simp only [Map.remove, hfound]
      exact ih
    | some value =>
      simp only [Map.remove, hfound]

/-- A reader leaves the members under all other keys. -/
theorem lookup_removeFirst {key : String} (h : key ∉ keys) :
    (removeFirst object keys).2.lookup key = object.lookup key := by
  induction keys with
  | nil => rfl
  | cons first keys ih =>
    obtain ⟨hne, hrest⟩ := not_or.mp (mt List.mem_cons.mpr h)
    unfold removeFirst
    cases hfound : Map.remove object first with
    | mk found rest =>
      cases found with
      | none => exact ih hrest
      | some value =>
        have hkept : (Map.remove object first).2.lookup key = _ := Map.lookup_remove hne
        rw [hfound] at hkept
        exact hkept

/-- A reader succeeds, and what is done after it. -/
theorem extract_bind_ok {T S : Type} {read : Option Value → Except McpError T}
    {next : T × Map → Except McpError S} :
    (∃ result, (extract object keys read >>= next) = .ok result) ↔
      ∃ value, read (keys.findSome? fun key => object.lookup key) = .ok value ∧
        ∃ result, next (value, (removeFirst object keys).2) = .ok result := by
  rw [exists_ok_bind]
  unfold extract
  rw [removeFirst_fst]
  constructor
  · rintro ⟨_, hread, h⟩
    obtain ⟨value, hvalue, rfl⟩ := except_map_eq_ok hread
    exact ⟨value, hvalue, h⟩
  · rintro ⟨value, hvalue, h⟩
    exact ⟨(value, (removeFirst object keys).2), by rw [hvalue]; rfl, h⟩

theorem requireString_ok {message : String} {found : Option Value} :
    (∃ text, requireString message found = .ok text) ↔ HasString found := by
  constructor
  · rintro ⟨text, h⟩
    unfold requireString at h
    rcases found with _ | value
    · cases h
    · cases value with
      | string text => exact ⟨text, rfl⟩
      | _ => cases h
  · rintro ⟨text, rfl⟩
    exact ⟨text, rfl⟩

theorem requireText_ok {json : SerdeJson} {message : String} {found : Option Value} :
    (∃ text, requireText json message found = .ok text) ↔ found ≠ none := by
  rcases found with _ | value
  · exact iff_of_false (fun ⟨_, h⟩ => by cases h) (fun h => h rfl)
  · refine iff_of_true ?_ nofun
    cases value with
    | _ => exact ⟨_, rfl⟩

theorem optionalModel_ok {T : Type} {read : Value → Except McpError T} {found : Option Value} :
    (∃ model, optionalModel read found = .ok model) ↔
      ∀ value, found = some value → ∃ model, read value = .ok model := by
  cases found with
  | none => exact iff_of_true ⟨_, rfl⟩ nofun
  | some value =>
    refine exists_ok_map.trans ⟨fun h other hother => ?_, fun h => h value rfl⟩
    cases hother
    exact h

theorem readModel_ok {T : Type} {errorMessage : String} {read : Value → Except String T}
    {value : Value} : (∃ model, readModel errorMessage read value = .ok model) ↔
      ∃ model, read value = .ok model :=
  exists_congr fun _ => mapError_eq_ok

end Readers

end RustMcpCore
