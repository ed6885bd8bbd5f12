import RustMcpCore.Errors
import RustMcpCore.Library.Text

/-! # Templates

A string of a template may hold expressions between `${` and `}`. They name a place in
the arguments of the call or in the response of the upstream, and filters for what is
found there.
-/
namespace RustMcpCore
open Library

structure RenderContext where
  args : Value
  response : Option Value

inductive Rendered
  | value (value : Value)
  | omitted

inductive Filter
  | default (value : Value)
  | csv

inductive PathToken
  | field (name : String)
  | index (index : ℕ)
  deriving DecidableEq

namespace Templating

def fieldOf (current : List Char) : List PathToken :=
  if current.isEmpty then [] else [.field (.ofList current)]

def indexOf (digits : List Char) : List PathToken :=
  ((Text.parseUsize (.ofList digits)).map PathToken.index).toList

/-- The loop of `parse_path`: the current name, and the digits after an open bracket. -/
def pathTokens : List Char → Option (List Char) → List Char → List PathToken
  | current, none, [] => fieldOf current
  | _, some digits, [] => indexOf digits
  | current, none, c :: rest =>
    if c = '.' then fieldOf current ++ pathTokens [] none rest
    else if c = '[' then fieldOf current ++ pathTokens [] (some []) rest
    else pathTokens (current ++ [c]) none rest
  | current, some digits, c :: rest =>
    if c = ']' then indexOf digits ++ pathTokens [] none rest
    else pathTokens current (some (digits ++ [c])) rest

def parsePath (path : String) : List PathToken := pathTokens [] none path.toList

def followToken (current : Value) : PathToken → Option Value
  | .field name => current.get name
  | .index index => current.asArray.bind fun items => items[index]?

def selectPath (value : Value) (path : String) : Option Value :=
  (parsePath path).foldlM followToken value

/-- `$` is the whole response, `$.path` a place in it, anything else one in the arguments. -/
def resolveBase (expr : String) (ctx : RenderContext) : Option Value :=
  if expr = "$" then ctx.response
  else
    match Text.stripPrefix expr "$." with
    | some path => ctx.response.bind fun value => selectPath value path
    | none => selectPath ctx.args expr

def isMissing : Option Value → Bool
  | none | some .null => true
  | some _ => false

variable (json : SerdeJson)

def valueToString : Value → String
  | .string value => value
  | .bool value => if value then "true" else "false"
  | .null => "null"
  | value => json.toString value

def toCsvString : Value → String
  | .array items => ",".intercalate (items.map (valueToString json))
  | value => valueToString json value

def parseDefaultLiteral (raw : String) : Value :=
  let trimmed := Text.trim raw
  if trimmed = "" then .null
  else
    match json.fromStr trimmed with
    | .ok value => value
    | .error _ => .string trimmed

def parseFilter (raw : String) : Except McpError Filter :=
  let filter := Text.trim raw
  if Text.eqIgnoreAsciiCase filter "csv" then .ok .csv
  else
    match (Text.stripPrefix filter "default(").bind (Text.stripSuffix · ")") with
    | some inner => .ok (.default (parseDefaultLiteral json inner))
    | none => .error (.invalidParams s!"unsupported filter '{filter}'" none)

/-- The base, whether the expression is optional, and the filters. -/
def parseExpression (expr : String) : Except McpError (String × Bool × List Filter) :=
  let trimmed := Text.trim expr
  let optional := trimmed.toList.getLast? = some '?'
  match Text.split (Text.trimEndMatches trimmed '?') '|' with
  | [] => .error (.invalidParams "empty template expression" none)
  | first :: parts =>
    let base := Text.trim first
    if base = "" then .error (.invalidParams "empty template expression" none)
    else do
      let filters ← parts.mapM (parseFilter json)
      return (base, optional, filters)

def applyFilter (value : Option Value) : Filter → Option Value
  | .default defaultValue => if isMissing value then some defaultValue else value
  | .csv => value.map fun current => .string (toCsvString json current)

def renderExpression (expr : String) (ctx : RenderContext) : Except McpError Rendered := do
  let (base, optional, filters) ← parseExpression json expr
  match filters.foldl (applyFilter json) (resolveBase base ctx) with
  | none | some .null =>
    if optional then return .omitted
    else .error (.invalidParams s!"missing required value for '{base}'" none)
  | some value => return .value value

def singlePlaceholder (value : String) : Option String :=
  match value.toList with
  | '$' :: '{' :: rest =>
    if rest.getLast? = some '}' then
      let inner := rest.dropLast
      if (Text.cut ['$', '{'] inner).isNone && (Text.cut ['}'] inner).isNone then
        some (.ofList inner)
      else none
    else none
  | _ => none

/-- The loop of `render_string`, with the text written so far. Every round takes two
characters at least. -/
def renderText (ctx : RenderContext) : ℕ → List Char → List Char → Except McpError Rendered
  | 0, output, rest => .ok (.value (.string (.ofList (output ++ rest))))
  | rounds + 1, output, rest =>
    match Text.cut ['$', '{'] rest with
    | none => .ok (.value (.string (.ofList (output ++ rest))))
    | some (before, rest) =>
      match Text.cut ['}'] rest with
      | none => .error (.invalidParams "unterminated template expression" none)
      | some (expr, rest) => do
        match ← renderExpression json (.ofList expr) ctx with
        | .value value =>
          renderText ctx rounds (output ++ before ++ (valueToString json value).toList) rest
        | .omitted => renderText ctx rounds (output ++ before) rest

/-- A single placeholder keeps the type of what it finds. -/
def renderString (value : String) (ctx : RenderContext) : Except McpError Rendered :=
  match singlePlaceholder (Text.trim value) with
  | some expr => renderExpression json expr ctx
  | none => renderText json ctx value.toList.length [] value.toList

mutual

def renderInner (template : Value) (ctx : RenderContext) : Except McpError Rendered :=
  match template with
  | .null => .ok (.value .null)
  | .bool value => .ok (.value (.bool value))
  | .number value => .ok (.value (.number value))
  | .string value => renderString json value ctx
  | .array values => (renderItems values ctx).map fun out => .value (.array out)
  | .object map => (renderMembers map [] ctx).map fun out => .value (.object out)

def renderItems (values : List Value) (ctx : RenderContext) : Except McpError (List Value) :=
  match values with
  | [] => .ok []
  | value :: rest => do
    let rendered ← renderInner value ctx
    let out ← renderItems rest ctx
    match rendered with
    | .value rendered => return rendered :: out
    | .omitted => return out

def renderMembers (map : List (String × Value)) (out : Map) (ctx : RenderContext) :
    Except McpError Map :=
  match map with
  | [] => .ok out
  | (key, value) :: rest => do
    match ← renderInner value ctx with
    | .value rendered => renderMembers rest (Map.insert out key rendered) ctx
    | .omitted => renderMembers rest out ctx

end

def renderValue (template : Value) (ctx : RenderContext) : Except McpError Value :=
  (renderInner json template ctx).map fun rendered =>
    match rendered with
    | .value value => value
    | .omitted => .null

/-! ## What renders -/

/-- The expression is well formed, and what it names is there or may be missing. -/
def ExpressionRenders (ctx : RenderContext) (expr : String) : Prop :=
  ∃ base optional filters, parseExpression json expr = .ok (base, optional, filters) ∧
    (optional = true ∨ isMissing (filters.foldl (applyFilter json) (resolveBase base ctx)) = false)

/-- Every expression of a text is closed and renders. -/
inductive TextRenders (ctx : RenderContext) : List Char → Prop
  | plain {text : List Char} (none : Text.cut ['$', '{'] text = none) : TextRenders ctx text
  | expression {text before opened expr after : List Char}
      (starts : Text.cut ['$', '{'] text = some (before, opened))
      (ends : Text.cut ['}'] opened = some (expr, after))
      (renders : ExpressionRenders json ctx (.ofList expr)) (rest : TextRenders ctx after) :
      TextRenders ctx text

def StringRenders (ctx : RenderContext) (value : String) : Prop :=
  match singlePlaceholder (Text.trim value) with
  | some expr => ExpressionRenders json ctx expr
  | none => TextRenders json ctx value.toList

inductive Renders (ctx : RenderContext) : Value → Prop
  | null : Renders ctx .null
  | bool (value : Bool) : Renders ctx (.bool value)
  | number (value : Number) : Renders ctx (.number value)
  | string {value : String} (renders : StringRenders json ctx value) : Renders ctx (.string value)
  | array {values : List Value} (renders : ∀ value ∈ values, Renders ctx value) :
      Renders ctx (.array values)
  | object {map : List (String × Value)} (renders : ∀ member ∈ map, Renders ctx member.2) :
      Renders ctx (.object map)

section Renders
variable {json} {ctx : RenderContext}

theorem renderExpression_ok {expr : String} :
    (∃ rendered, renderExpression json expr ctx = .ok rendered) ↔ ExpressionRenders json ctx expr := by
  unfold renderExpression ExpressionRenders
  rw [exists_ok_bind]
  constructor
  · rintro ⟨⟨base, optional, filters⟩, hparse, rendered, h⟩
    refine ⟨base, optional, filters, hparse, ?_⟩
    simp only at h
    split at h
    · split at h
      · exact .inl ‹_›
      · cases h
    · split at h
      · exact .inl ‹_›
      · cases h
    · rename_i value hnull hvalue
      refine .inr ?_
      rw [hvalue]
      cases value with
      | null => exact absurd rfl hnull
      | _ => rfl
  · rintro ⟨base, optional, filters, hparse, h⟩
    refine ⟨_, hparse, ?_⟩
    simp only
    rcases h with rfl | h
    · split
      · exact ⟨.omitted, rfl⟩
      · exact ⟨.omitted, rfl⟩
      · exact ⟨_, rfl⟩
    · split
      · rename_i hvalue
        rw [hvalue] at h
        cases h
      · rename_i hvalue
        rw [hvalue] at h
        cases h
      · exact ⟨_, rfl⟩

/-- A round of the loop leaves less text than there are rounds left. -/
theorem length_after_round {rounds : ℕ} {text before opened expr after : List Char}
    (hrounds : text.length ≤ rounds + 1) (hstart : Text.cut ['$', '{'] text = some (before, opened))
    (hend : Text.cut ['}'] opened = some (expr, after)) : after.length ≤ rounds := by
  have hopened := Text.length_of_cut hstart
  have hafter := Text.length_of_cut hend
  simp only [List.length_cons, List.length_nil] at hopened hafter
  omega

theorem renderText_ok {rounds : ℕ} {output text : List Char} (hrounds : text.length ≤ rounds) :
    (∃ rendered, renderText json ctx rounds output text = .ok rendered) ↔
      TextRenders json ctx text := by
  induction rounds generalizing output text with
  | zero =>
    rw [List.length_eq_zero_iff.mp (Nat.le_zero.mp hrounds)]
    exact iff_of_true ⟨_, rfl⟩ (.plain rfl)
  | succ rounds ih =>
    unfold renderText
    cases hstart : Text.cut ['$', '{'] text with
    | none => exact iff_of_true ⟨_, rfl⟩ (.plain hstart)
    | some parts =>
      obtain ⟨before, opened⟩ := parts
      simp only
      cases hend : Text.cut ['}'] opened with
      | none =>
        refine iff_of_false (fun ⟨_, h⟩ => by cases h) fun h => ?_
        cases h with
        | plain hplain => cases hplain.symm.trans hstart
        | expression hstarts hends =>
          cases hstarts.symm.trans hstart
          cases hends.symm.trans hend
      | some parts =>
        obtain ⟨expr, after⟩ := parts
        have hafter := length_after_round hrounds hstart hend
        simp only
        rw [exists_ok_bind]
        constructor
        · rintro ⟨rendered, hrendered, h⟩
          refine .expression hstart hend (renderExpression_ok.mp ⟨rendered, hrendered⟩) ?_
          cases rendered with
          | value value => exact (ih hafter).mp h
          | omitted => exact (ih hafter).mp h
        · intro h
          cases h with
          | plain hplain => cases hplain.symm.trans hstart
          | expression hstarts hends hexpr hrest =>
            cases hstarts.symm.trans hstart
            cases hends.symm.trans hend
            obtain ⟨rendered, hrendered⟩ := renderExpression_ok.mpr hexpr
            refine ⟨rendered, hrendered, ?_⟩
            cases rendered with
            | value value => exact (ih hafter).mpr hrest
            | omitted => exact (ih hafter).mpr hrest

theorem renderString_ok {value : String} :
    (∃ rendered, renderString json value ctx = .ok rendered) ↔ StringRenders json ctx value := by
  unfold renderString StringRenders
  split
  · exact renderExpression_ok
  · exact renderText_ok (le_refl _)

mutual

theorem renderInner_ok : ∀ template : Value,
    (∃ rendered, renderInner json template ctx = .ok rendered) ↔ Renders json ctx template
  | .null => iff_of_true ⟨_, rfl⟩ .null
  | .bool value => iff_of_true ⟨_, rfl⟩ (.bool value)
  | .number value => iff_of_true ⟨_, rfl⟩ (.number value)
  | .string value => by
    unfold renderInner
    rw [renderString_ok]
    constructor
    · exact .string
    · intro h
      cases h with
      | string renders => assumption
  | .array values => by
    unfold renderInner
    rw [exists_ok_map, renderItems_ok values]
    constructor
    · exact .array
    · intro h
      cases h with
      | array h => exact h
  | .object map => by
    unfold renderInner
    rw [exists_ok_map, renderMembers_ok map []]
    constructor
    · exact .object
    · intro h
      cases h with
      | object h => exact h

theorem renderItems_ok : ∀ values : List Value,
    (∃ out, renderItems json values ctx = .ok out) ↔ ∀ value ∈ values, Renders json ctx value
  | [] => iff_of_true ⟨_, rfl⟩ (List.forall_mem_nil _)
  | value :: rest => by
    unfold renderItems
    rw [List.forall_mem_cons, ← renderInner_ok value, ← renderItems_ok rest, exists_ok_bind]
    constructor
    · rintro ⟨rendered, hrendered, out, hout⟩
      obtain ⟨tail, htail, _⟩ := bind_eq_ok hout
      exact ⟨⟨rendered, hrendered⟩, tail, htail⟩
    · rintro ⟨⟨rendered, hrendered⟩, tail, htail⟩
      refine ⟨rendered, hrendered, exists_ok_bind.mpr ⟨tail, htail, ?_⟩⟩
      cases rendered with
      | value value => exact ⟨_, rfl⟩
      | omitted => exact ⟨_, rfl⟩

theorem renderMembers_ok : ∀ (map : List (String × Value)) (out : Map),
    (∃ rendered, renderMembers json map out ctx = .ok rendered) ↔
      ∀ member ∈ map, Renders json ctx member.2
  | [], _ => iff_of_true ⟨_, rfl⟩ (List.forall_mem_nil _)
  | (key, value) :: rest, out => by
    unfold renderMembers
    rw [List.forall_mem_cons, ← renderInner_ok value, exists_ok_bind]
    constructor
    · rintro ⟨rendered, hrendered, h⟩
      refine ⟨⟨rendered, hrendered⟩, ?_⟩
      cases rendered with
      | value value => exact (renderMembers_ok rest _).mp h
      | omitted => exact (renderMembers_ok rest _).mp h
    · rintro ⟨⟨rendered, hrendered⟩, h⟩
      refine ⟨rendered, hrendered, ?_⟩
      cases rendered with
      | value value => exact (renderMembers_ok rest _).mpr h
      | omitted => exact (renderMembers_ok rest _).mpr h

end

/-- A template renders exactly if each of its expressions does. -/
theorem renderValue_ok {template : Value} :
    (∃ rendered, renderValue json template ctx = .ok rendered) ↔ Renders json ctx template := by
  unfold renderValue
  rw [exists_ok_map, renderInner_ok]

end Renders

end Templating
end RustMcpCore
