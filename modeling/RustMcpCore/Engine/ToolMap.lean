import RustMcpCore.Engine.Prompts
import RustMcpCore.Library.HashMap

/-! # The tools of the engine

One loop fills the list that clients are shown and the map that calls are looked up in.
The two agree as far as the names of the tools are different.
-/
namespace RustMcpCore
open Library

def valueToObject (value : Value) (label : String) : Except McpError Map :=
  match value with
  | .object map => .ok map
  | _ => .error (.invalidRequest s!"{label} must be an object" none)

/-- `rmcp::model::Tool`. -/
structure Tool where
  name : String
  title : Option String
  description : String
  inputSchema : Map
  outputSchema : Option Map
  annotations : Option ToolAnnotations
  icons : Option (List Icon)
  metaValue : Option Map
  taskSupport : Option TaskSupport

/-- What `rmcp` has to say about tools. -/
structure ToolRules where
  validateAndWarnToolName : String → Bool
  annotations : Value → Except String ToolAnnotations

section Build
variable (rules : ToolRules)

/-- `transpose` of what is read from a value that may be missing. -/
def readOptional {A : Type} (read : Value → Except McpError A) :
    Option Value → Except McpError (Option A)
  | none => .ok none
  | some value => (read value).map some

def buildToolAttr (toolCfg : ToolConfig) : Except McpError Tool := do
  let inputSchema ← valueToObject toolCfg.inputSchema "inputSchema"
  let outputSchema ← readOptional (valueToObject · "outputSchema") toolCfg.outputSchema
  let annotations ← readOptional
    (fun value => (rules.annotations value).mapError fun error => .invalidRequest error none)
    toolCfg.annotations
  let metaValue ← readOptional (valueToObject · "_meta") toolCfg.metaValue
  let taskSupport := toolCfg.execute.taskSupport
  return { name := toolCfg.name
           title := toolCfg.title
           description := toolCfg.description
           inputSchema
           outputSchema
           annotations
           icons := mapIcons toolCfg.icons
           metaValue
           taskSupport := if taskSupport = .forbidden then none else some taskSupport }

variable (toolAllowlist : List String)

def checkToolPlugin (execute : ExecuteConfig) : Except McpError Unit :=
  if execute.executeType = .plugin then
    match execute.asPlugin with
    | none => .error (.invalidRequest "plugin tool requires plugin" none)
    | some config =>
      let pluginName := config.plugin
      if pluginName = "" then .error (.invalidRequest "plugin tool requires plugin" none)
      else if pluginName ∈ toolAllowlist then .ok ()
      else .error (.invalidRequest s!"tool plugin not allowlisted: {pluginName}" none)
  else .ok ()

/-- One round of the loop. -/
def addTool (built : List Tool × HashMap String ToolConfig) (toolCfg : ToolConfig) :
    Except McpError (List Tool × HashMap String ToolConfig) :=
  if !rules.validateAndWarnToolName toolCfg.name then
    .error (.invalidRequest s!"invalid tool name: {toolCfg.name}" none)
  else do
    checkToolPlugin toolAllowlist toolCfg.execute
    let toolAttr ← buildToolAttr rules toolCfg
    return (built.1 ++ [toolAttr], built.2.insert toolCfg.name toolCfg)

def buildToolMap (toolConfigs : List ToolConfig) :
    Except McpError (List Tool × HashMap String ToolConfig) :=
  toolConfigs.foldlM (addTool rules toolAllowlist) ([], ∅)

/-- No tool is listed twice, the map has the listed names, and it finds the configuration that
each tool was built from. -/
structure ToolsAgree (toolConfigs : List ToolConfig) (tools : List Tool)
    (toolMap : HashMap String ToolConfig) : Prop where
  distinct : (tools.map (·.name)).Nodup
  keys : ∀ name, name ∈ toolMap ↔ name ∈ tools.map (·.name)
  built : List.Forall₂ (fun toolCfg tool => buildToolAttr rules toolCfg = .ok tool ∧
    toolMap.lookup tool.name = some toolCfg) toolConfigs tools

end Build

section Agree
variable {rules : ToolRules} {toolAllowlist : List String} {toolConfigs : List ToolConfig}
  {tools : List Tool} {toolMap : HashMap String ToolConfig}

theorem buildToolAttr_name {toolCfg : ToolConfig} {tool : Tool}
    (h : buildToolAttr rules toolCfg = .ok tool) : tool.name = toolCfg.name := by
  unfold buildToolAttr at h
  obtain ⟨inputSchema, -, h⟩ := bind_eq_ok h
  obtain ⟨outputSchema, -, h⟩ := bind_eq_ok h
  obtain ⟨annotations, -, h⟩ := bind_eq_ok h
  obtain ⟨metaValue, -, h⟩ := bind_eq_ok h
  rw [← Except.ok.inj h]

theorem addTool_eq_ok {built : List Tool × HashMap String ToolConfig} {toolCfg : ToolConfig}
    (h : addTool rules toolAllowlist built toolCfg = .ok (tools, toolMap)) :
    ∃ tool, buildToolAttr rules toolCfg = .ok tool ∧ tools = built.1 ++ [tool] ∧
      toolMap = built.2.insert toolCfg.name toolCfg := by
  unfold addTool at h
  split at h
  · cases h
  · obtain ⟨-, -, h⟩ := bind_eq_ok h
    obtain ⟨tool, htool, h⟩ := bind_eq_ok h
    cases h
    exact ⟨tool, htool, rfl, rfl⟩

/-- What the loop has made of the configurations so far: each has its tool, and the last one
under a name is found in the map. -/
structure Filled (rules : ToolRules) (toolConfigs : List ToolConfig) (tools : List Tool)
    (toolMap : HashMap String ToolConfig) : Prop where
  built : List.Forall₂ (fun toolCfg tool => buildToolAttr rules toolCfg = .ok tool) toolConfigs tools
  found : ∀ name, toolMap.lookup name = toolConfigs.reverse.find? fun toolCfg => toolCfg.name = name

theorem filled_nil : Filled rules [] [] ∅ := ⟨.nil, fun _ => rfl⟩

theorem Filled.add {built : List Tool × HashMap String ToolConfig} {toolCfg : ToolConfig}
    (hfilled : Filled rules toolConfigs built.1 built.2)
    (h : addTool rules toolAllowlist built toolCfg = .ok (tools, toolMap)) :
    Filled rules (toolConfigs ++ [toolCfg]) tools toolMap := by
  obtain ⟨tool, htool, rfl, rfl⟩ := addTool_eq_ok h
  refine ⟨List.rel_append hfilled.built (.cons htool .nil), fun name => ?_⟩
  rw [List.reverse_concat, List.find?_cons]
  by_cases hname : toolCfg.name = name
  · rw [← hname, AList.lookup_insert, decide_eq_true rfl]
  · rw [AList.lookup_insert_ne (Ne.symm hname), hfilled.found, decide_eq_false hname]

theorem buildToolMap_filled (h : buildToolMap rules toolAllowlist toolConfigs = .ok (tools, toolMap)) :
    Filled rules toolConfigs tools toolMap := by
  unfold buildToolMap at h
  induction toolConfigs using List.reverseRecOn generalizing tools toolMap with
  | nil =>
    cases h
    exact filled_nil
  | append_singleton rest toolCfg ih =>
    rw [List.foldlM_append] at h
    obtain ⟨⟨before, map⟩, hbefore, h⟩ := bind_eq_ok h
    rw [List.foldlM_cons] at h
    obtain ⟨⟨after, last⟩, hlast, h⟩ := bind_eq_ok h
    cases h
    exact (ih hbefore).add hlast

theorem names_of_built
    (h : List.Forall₂ (fun toolCfg tool => buildToolAttr rules toolCfg = .ok tool) toolConfigs tools) :
    tools.map (·.name) = toolConfigs.map (·.name) := by
  induction h with
  | nil => rfl
  | cons htool _ ih => rw [List.map_cons, List.map_cons, ih, buildToolAttr_name htool]

theorem Filled.keys (h : Filled rules toolConfigs tools toolMap) (name : String) :
    name ∈ toolMap ↔ name ∈ tools.map (·.name) := by
  rw [← AList.lookup_isSome, h.found, names_of_built h.built, List.find?_isSome, List.mem_map]
  simp

/-- Among different names the last configuration under a name is the only one. -/
theorem find?_reverse_of_nodup (h : (toolConfigs.map (·.name)).Nodup) {toolCfg : ToolConfig}
    (hmem : toolCfg ∈ toolConfigs) :
    (toolConfigs.reverse.find? fun other => other.name = toolCfg.name) = some toolCfg := by
  cases hfound : toolConfigs.reverse.find? fun other => other.name = toolCfg.name with
  | none =>
    have hother := List.find?_eq_none.mp hfound toolCfg (List.mem_reverse.mpr hmem)
    exact absurd (decide_eq_true rfl) hother
  | some other =>
    have hname := List.find?_some hfound
    rw [decide_eq_true_iff] at hname
    have hother := List.mem_reverse.mp (List.mem_of_find?_eq_some hfound)
    rw [List.inj_on_of_nodup_map h hother hmem hname]

theorem Filled.agree (h : Filled rules toolConfigs tools toolMap)
    (hnodup : (toolConfigs.map (·.name)).Nodup) : ToolsAgree rules toolConfigs tools toolMap where
  distinct := by
    rw [names_of_built h.built]
    exact hnodup
  keys := h.keys
  built := by
    have hfound : ∀ toolCfg ∈ toolConfigs, toolMap.lookup toolCfg.name = some toolCfg :=
      fun toolCfg hmem => (h.found _).trans (find?_reverse_of_nodup hnodup hmem)
    refine ((List.forall₂_and_left _ _).mpr ⟨hfound, h.built⟩).imp ?_
    rintro toolCfg tool ⟨hlookup, htool⟩
    rw [buildToolAttr_name htool]
    exact ⟨htool, hlookup⟩

/-- The list and the map of the tools agree exactly where no name is configured twice. -/
theorem toolsAgree_iff (h : buildToolMap rules toolAllowlist toolConfigs = .ok (tools, toolMap)) :
    ToolsAgree rules toolConfigs tools toolMap ↔ (toolConfigs.map (·.name)).Nodup := by
  have hfilled := buildToolMap_filled h
  constructor
  · intro hagree
    rw [← names_of_built hfilled.built]
    exact hagree.distinct
  · exact hfilled.agree

end Agree

/-! ## Two tools of one name -/

section Twice

def anyTool : ToolRules where
  validateAndWarnToolName _ := true
  annotations _ := .error "missing field"

/-- A tool that a plugin executes. -/
def pluginTool (description : String) : ToolConfig where
  name := "search"
  description
  cancellable := true
  inputSchema := .object []
  outputSchema := none
  execute := .plugin ⟨"index", none, .forbidden⟩
  response := none

/-- Two tools of one name are accepted, the list has both and the map the last. -/
theorem same_name_accepted :
    ∃ tools toolMap,
      buildToolMap anyTool ["index"] [pluginTool "old", pluginTool "new"] = .ok (tools, toolMap) ∧
      tools.map (·.description) = ["old", "new"] ∧
      (toolMap.lookup "search").map (·.description) = some "new" ∧
      ¬ ToolsAgree anyTool [pluginTool "old", pluginTool "new"] tools toolMap := by
  refine ⟨_, _, rfl, rfl, rfl, fun h => ?_⟩
  exact absurd h.distinct (by decide)

theorem toolsAgree_single :
    ∃ tools toolMap, buildToolMap anyTool ["index"] [pluginTool "new"] = .ok (tools, toolMap) ∧
      ToolsAgree anyTool [pluginTool "new"] tools toolMap := by
  refine ⟨_, _, rfl, ?_⟩
  have hbuilt : buildToolMap anyTool ["index"] [pluginTool "new"] = .ok (_, _) := rfl
  exact (toolsAgree_iff hbuilt).mpr (List.nodup_singleton _)

end Twice
end RustMcpCore
