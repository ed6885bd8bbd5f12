import RustMcpCore.Engine.Catalogs
import RustMcpCore.Engine.ToolMap
import RustMcpCore.Runtime.Checks

/-! # Construction of an engine

`Engine::from_config`: every plugin that the configuration refers to is on the allowlist of
its type and registered, and what the catalogs are later built from is checked at once.
-/
namespace RustMcpCore.Dispatch
open Library

structure EngineConfig where
  config : McpConfig
  plugins : PluginRegistry
  /-- `resources.clients_can_subscribe`, where there is a section of resources. -/
  clientsCanSubscribe : Bool

/-- The engine with the list that clients are shown. -/
structure ServerEngine extends Engine where
  tools : List Tool
  clientsCanSubscribe : Bool

def completionProviders (config : McpConfig) : List CompletionProviderConfig :=
  (config.completion.map (·.providers)).getD []

/-! ## Feature flags -/

/-- With `completion` compiled in. -/
def validateEngineFeatureFlags (features : Features) (config : McpConfig) : Except McpError Unit :=
  match sharedFeatureValidationError features config with
  | some error => .error error
  | none =>
    if config.completionActive ∧ (completionProviders config).isEmpty then
      .error (.invalidRequest ("completion config is active but completion.providers is empty; " ++
        "set completion.enabled=false to disable completion") none)
    else if features.tasksUtility ∧ ¬config.tasksActive ∧
        config.toolsItems.any fun tool => tool.execute.taskSupport ≠ .forbidden then
      .error (.invalidRequest ("tasks config is inactive but " ++
        "tools.items[].execute.task_support=optional|required is configured") none)
    else .ok ()

/-! ## Allowlists -/

/-- A set in the source: only the error for several missing plugins depends on an order. -/
def buildPluginAllowlist (config : McpConfig) (pluginType : PluginType) : List String :=
  (config.plugins.filter (·.pluginType = pluginType)).map (·.name)

def validateAllowlistRegistered (plugins : PluginRegistry) (allowlist : List String)
    (pluginType : PluginType) : Except McpError Unit :=
  match allowlist.find? fun pluginName => (plugins.getPlugin pluginType pluginName).isNone with
  | none => .ok ()
  | some pluginName =>
    let pluginLabel := pluginType.asStr
    .error (.invalidRequest s!"{pluginLabel} plugin not registered: {pluginName}" none)

/-- `PluginAllowlists::validate_registered`. -/
def validateRegistered (config : McpConfig) (plugins : PluginRegistry) : Except McpError Unit := do
  validateAllowlistRegistered plugins (buildPluginAllowlist config .tool) .tool
  validateAllowlistRegistered plugins (buildPluginAllowlist config .prompt) .prompt
  validateAllowlistRegistered plugins (buildPluginAllowlist config .resource) .resource
  validateAllowlistRegistered plugins (buildPluginAllowlist config .completion) .completion

def requireAllowlisted (allowlist : List String) (pluginLabel pluginName : String) :
    Except McpError Unit :=
  if pluginName ∈ allowlist then .ok ()
  else .error (.invalidRequest s!"{pluginLabel} plugin not allowlisted: {pluginName}" none)

/-! ## Providers -/

section Providers
variable (parsers : Parsers) (schemas : JsonSchema)

def validateTemplate (template : ResourceTemplateConfig) : Except McpError Unit := do
  validateResourceTemplateUri parsers template.uriTemplate
  validateResourceTemplateSchema schemas template
  let _ ← mapResourceAnnotations parsers template.annotations

def validateItem (item : ResourceItemConfig) : Except McpError Unit := do
  validateResourceUri parsers item.uri
  let _ ← mapResourceAnnotations parsers item.annotations
  if item.content.any fun content => content.text.isNone ∧ content.blob.isNone then
    let uri := item.uri
    .error (.invalidRequest s!"resource '{uri}' content must include text or blob" none)
  else .ok ()

def requireItemsOrTemplates (items : Option (List ResourceItemConfig))
    (templates : Option (List ResourceTemplateConfig)) : Except McpError Unit :=
  if (items.getD []).isEmpty ∧ (templates.getD []).isEmpty then
    .error (.invalidRequest "resource inline provider requires items and/or templates" none)
  else .ok ()

def validateInlineResourceProvider (items : Option (List ResourceItemConfig))
    (templates : Option (List ResourceTemplateConfig)) : Except McpError Unit := do
  requireItemsOrTemplates items templates
  (items.getD []).forM (validateItem parsers)
  (templates.getD []).forM (validateTemplate parsers schemas)

def validatePromptProvider (promptAllowlist : List String) :
    PromptProviderConfig → Except McpError Unit
  | .inline _ => .ok ()
  | .plugin plugin _ => requireAllowlisted promptAllowlist "prompt" plugin

def validateResourceProvider (resourceAllowlist : List String) :
    ResourceProviderConfig → Except McpError Unit
  | .inline items templates => validateInlineResourceProvider parsers schemas items templates
  | .plugin plugin _ templates => do
    requireAllowlisted resourceAllowlist "resource" plugin
    (templates.getD []).forM (validateTemplate parsers schemas)

/-- The providers of a section, or none if it is not active. -/
def activePromptProviders (config : McpConfig) : List PromptProviderConfig :=
  ((config.prompts.filter PromptsConfig.isActive).map (·.providers)).getD []

def activeResourceProviders (config : McpConfig) : List ResourceProviderConfig :=
  ((config.resources.filter ResourcesConfig.isActive).map (·.providers)).getD []

def validateProviderPlugins (config : McpConfig) (promptAllowlist resourceAllowlist : List String) :
    Except McpError Unit := do
  (activePromptProviders config).forM (validatePromptProvider promptAllowlist)
  (activeResourceProviders config).forM
    (validateResourceProvider parsers schemas resourceAllowlist)

end Providers

/-! ## Completion -/

def completionSourceName : CompletionProviderConfig → String
  | .inline name _ | .plugin name _ _ => name

def checkCompletionPlugin (completionAllowlist : List String) :
    CompletionProviderConfig → Except McpError Unit
  | .inline _ _ => .ok ()
  | .plugin _ plugin _ => requireAllowlisted completionAllowlist "completion" plugin

/-- One round of the loop. -/
def addCompletionSource (completionAllowlist : List String)
    (byName : HashMap String CompletionProviderConfig) (source : CompletionProviderConfig) :
    Except McpError (HashMap String CompletionProviderConfig) := do
  checkCompletionPlugin completionAllowlist source
  let sourceName := completionSourceName source
  if sourceName ∈ byName then
    .error (.invalidRequest s!"duplicate completion provider '{sourceName}'" none)
  else .ok (byName.insert sourceName source)

def buildCompletionSources (sources : List CompletionProviderConfig)
    (completionAllowlist : List String) : Except McpError (HashMap String CompletionProviderConfig) :=
  sources.foldlM (addCompletionSource completionAllowlist) ∅

def templatesOf : ResourceProviderConfig → List ResourceTemplateConfig
  | .inline _ templates | .plugin _ _ templates => templates.getD []

def validatePromptReferences (completionSources : HashMap String CompletionProviderConfig) :
    PromptProviderConfig → Except McpError Unit
  | .plugin _ _ => .ok ()
  | .inline items => items.forM fun item =>
    let name := item.name
    validateCompletionSourceMapping item.completions completionSources s!"prompt '{name}'"

def validateTemplateReferences (completionSources : HashMap String CompletionProviderConfig)
    (provider : ResourceProviderConfig) : Except McpError Unit :=
  (templatesOf provider).forM fun template =>
    let uriTemplate := template.uriTemplate
    validateCompletionSourceMapping template.completions completionSources
      s!"resource template '{uriTemplate}'"

def validateCompletionSourceReferences (config : McpConfig)
    (completionSources : HashMap String CompletionProviderConfig) : Except McpError Unit := do
  (activePromptProviders config).forM (validatePromptReferences completionSources)
  (activeResourceProviders config).forM (validateTemplateReferences completionSources)

def completionSourcesOf (config : McpConfig) :
    Except McpError (HashMap String CompletionProviderConfig) :=
  if config.completionActive then do
    let completionSources ←
      buildCompletionSources (completionProviders config) (buildPluginAllowlist config .completion)
    validateCompletionSourceReferences config completionSources
    return completionSources
  else .ok ∅

/-! ## The engine -/

section FromConfig
variable (features : Features) (rules : ToolRules) (crates : Crates)

def fromConfig (engineConfig : EngineConfig) : Except McpError ServerEngine := do
  let config := engineConfig.config
  validateEngineFeatureFlags features config
  validateRegistered config engineConfig.plugins
  validateProviderPlugins crates.parsers crates.schemas config
    (buildPluginAllowlist config .prompt) (buildPluginAllowlist config .resource)
  let completionSources ← completionSourcesOf config
  let (tools, toolMap) ← buildToolMap rules (buildPluginAllowlist config .tool) config.toolsItems
  return { config
           toolMap
           plugins := engineConfig.plugins
           completionSources
           tools
           clientsCanSubscribe := engineConfig.clientsCanSubscribe }

end FromConfig

end RustMcpCore.Dispatch
