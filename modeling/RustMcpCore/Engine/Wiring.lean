import RustMcpCore.Engine.Construction

/-! # What an accepted configuration promises

The checks at the construction of an engine, read backwards: what they leave open is not
looked at again when a catalog is built or a tool is called.
-/
namespace RustMcpCore.Dispatch
open Library

/-- Completions that name sources which are there. -/
def CompletionsDefined (engine : Engine) (completions : Option (HashMap String String)) : Prop :=
  engine.config.completionActive = true → ∀ mapping, completions = some mapping →
    ∀ sourceName ∈ mapping.values, (engine.completionSources.lookup sourceName).isSome = true

structure TemplateFit (parsers : Parsers) (schemas : JsonSchema) (engine : Engine)
    (template : ResourceTemplateConfig) : Prop where
  uriTemplate : validateResourceTemplateUri parsers template.uriTemplate = .ok ()
  schema : validateResourceTemplateSchema schemas template = .ok ()
  annotations : ∃ annotations, mapResourceAnnotations parsers template.annotations = .ok annotations
  completions : CompletionsDefined engine template.completions

structure ItemFit (parsers : Parsers) (item : ResourceItemConfig) : Prop where
  uri : validateResourceUri parsers item.uri = .ok ()
  annotations : ∃ annotations, mapResourceAnnotations parsers item.annotations = .ok annotations
  content : ∀ content, item.content = some content → content.text.isSome ∨ content.blob.isSome

/-- The engine refers to allowed plugins only, and to completion sources that it has. -/
structure Accepted (crates : Crates) (engine : Engine) : Prop where
  tools : ∀ name tool execute, engine.toolMap.lookup name = some tool →
    tool.execute.executeType = .plugin → tool.execute.asPlugin = some execute →
    execute.plugin ∈ buildPluginAllowlist engine.config .tool
  prompts : ∀ plugin config, .plugin plugin config ∈ activePromptProviders engine.config →
    plugin ∈ buildPluginAllowlist engine.config .prompt
  resources : ∀ plugin config templates,
    .plugin plugin config templates ∈ activeResourceProviders engine.config →
    plugin ∈ buildPluginAllowlist engine.config .resource
  sources : ∀ sourceName name plugin config,
    engine.completionSources.lookup sourceName = some (.plugin name plugin config) →
    plugin ∈ buildPluginAllowlist engine.config .completion
  templates : ∀ provider ∈ activeResourceProviders engine.config,
    ∀ template ∈ templatesOf provider, TemplateFit crates.parsers crates.schemas engine template
  items : ∀ items templates, .inline items templates ∈ activeResourceProviders engine.config →
    ∀ item ∈ items.getD [], ItemFit crates.parsers item

/-- The types of the plugins that an engine looks up. -/
def PluginType.dispatched : PluginType → Bool
  | .tool | .prompt | .resource | .completion => true
  | .auth | .httpRouter => false

/-- The registry has every plugin of the configuration. -/
def Registered (config : McpConfig) (plugins : PluginRegistry) : Prop :=
  ∀ pluginType, PluginType.dispatched pluginType = true →
    ∀ name ∈ buildPluginAllowlist config pluginType, (plugins.getPlugin pluginType name).isSome = true

/-! ## One check after another -/

section Checks
variable {config : McpConfig} {plugins : PluginRegistry} {pluginType : PluginType}
  {allowlist : List String} {parsers : Parsers} {schemas : JsonSchema}

theorem registered_of_check
    (h : validateAllowlistRegistered plugins allowlist pluginType = .ok ()) :
    ∀ name ∈ allowlist, (plugins.getPlugin pluginType name).isSome = true := by
  intro name hname
  unfold validateAllowlistRegistered at h
  cases hfind : allowlist.find? fun pluginName => (plugins.getPlugin pluginType pluginName).isNone with
  | some missing =>
    rw [hfind] at h
    cases h
  | none =>
    have hpresent := List.find?_eq_none.mp hfind name hname
    cases hplugin : plugins.getPlugin pluginType name with
    | none => exact absurd (by rw [hplugin]; rfl) hpresent
    | some _ => rfl

theorem registered_of_validateRegistered (h : validateRegistered config plugins = .ok ()) :
    Registered config plugins := by
  obtain ⟨_, htool, h⟩ := bind_eq_ok h
  obtain ⟨_, hprompt, h⟩ := bind_eq_ok h
  obtain ⟨_, hresource, hcompletion⟩ := bind_eq_ok h
  intro pluginType hdispatched
  cases pluginType with
  | tool => exact registered_of_check htool
  | prompt => exact registered_of_check hprompt
  | resource => exact registered_of_check hresource
  | completion => exact registered_of_check hcompletion
  | auth => cases hdispatched
  | httpRouter => cases hdispatched

theorem mem_of_requireAllowlisted {pluginLabel pluginName : String}
    (h : requireAllowlisted allowlist pluginLabel pluginName = .ok ()) : pluginName ∈ allowlist := by
  unfold requireAllowlisted at h
  split at h
  · assumption
  · cases h

theorem checked_of_validateTemplate {template : ResourceTemplateConfig}
    (h : validateTemplate parsers schemas template = .ok ()) :
    validateResourceTemplateUri parsers template.uriTemplate = .ok () ∧
      validateResourceTemplateSchema schemas template = .ok () ∧
      ∃ annotations, mapResourceAnnotations parsers template.annotations = .ok annotations := by
  obtain ⟨_, huri, h⟩ := bind_eq_ok h
  obtain ⟨_, hschema, h⟩ := bind_eq_ok h
  obtain ⟨annotations, hannotations, _⟩ := bind_eq_ok h
  exact ⟨huri, hschema, annotations, hannotations⟩

theorem itemFit_of_validateItem {item : ResourceItemConfig}
    (h : validateItem parsers item = .ok ()) : ItemFit parsers item := by
  obtain ⟨_, huri, h⟩ := bind_eq_ok h
  obtain ⟨annotations, hannotations, h⟩ := bind_eq_ok h
  refine ⟨huri, ⟨annotations, hannotations⟩, fun content hcontent => ?_⟩
  rw [hcontent] at h
  cases htext : content.text with
  | some text => exact .inl rfl
  | none =>
    cases hblob : content.blob with
    | some blob => exact .inr rfl
    | none =>
      rw [if_pos (by simp [htext, hblob])] at h
      cases h

theorem checked_of_validateResourceProvider {provider : ResourceProviderConfig}
    (h : validateResourceProvider parsers schemas allowlist provider = .ok ()) :
    (∀ template ∈ templatesOf provider, validateTemplate parsers schemas template = .ok ()) ∧
      (∀ plugin providerConfig templates, provider = .plugin plugin providerConfig templates →
        plugin ∈ allowlist) ∧
      ∀ items templates, provider = .inline items templates →
        ∀ item ∈ items.getD [], ItemFit parsers item := by
  cases provider with
  | inline items templates =>
    obtain ⟨_, -, h⟩ := bind_eq_ok h
    obtain ⟨_, hitems, htemplates⟩ := bind_eq_ok h
    refine ⟨forM_eq_ok.mp htemplates, fun _ _ _ heq => (by cases heq), fun _ _ heq item hitem => ?_⟩
    cases heq
    exact itemFit_of_validateItem (forM_eq_ok.mp hitems item hitem)
  | plugin plugin providerConfig templates =>
    obtain ⟨_, hallowed, htemplates⟩ := bind_eq_ok h
    refine ⟨forM_eq_ok.mp htemplates, fun _ _ _ heq => ?_, fun _ _ heq => (by cases heq)⟩
    cases heq
    exact mem_of_requireAllowlisted hallowed

theorem defined_of_mapping {completions : Option (HashMap String String)}
    {completionSources : HashMap String CompletionProviderConfig} {owner : String}
    (h : validateCompletionSourceMapping completions completionSources owner = .ok ()) :
    ∀ mapping, completions = some mapping →
      ∀ sourceName ∈ mapping.values, (completionSources.lookup sourceName).isSome = true := by
  rintro mapping rfl sourceName hname
  unfold validateCompletionSourceMapping at h
  cases hfind : mapping.values.find? fun sourceName =>
      (completionSources.lookup sourceName).isNone with
  | some missing =>
    simp only [hfind] at h
    cases h
  | none =>
    have hpresent := List.find?_eq_none.mp hfind sourceName hname
    cases hsource : completionSources.lookup sourceName with
    | none => exact absurd (by rw [hsource]; rfl) hpresent
    | some _ => rfl

end Checks

/-! ## Completion sources -/

section Sources
variable {allowlist : List String} {completionSources : HashMap String CompletionProviderConfig}

/-- Each source is under its own name, and its plugin is allowed. -/
def SourcesAllowed (allowlist : List String)
    (completionSources : HashMap String CompletionProviderConfig) : Prop :=
  ∀ sourceName source, completionSources.lookup sourceName = some source →
    completionSourceName source = sourceName ∧ checkCompletionPlugin allowlist source = .ok ()

theorem addCompletionSource_allowed {byName : HashMap String CompletionProviderConfig}
    {source : CompletionProviderConfig} (hbefore : SourcesAllowed allowlist byName)
    (h : addCompletionSource allowlist byName source = .ok completionSources) :
    SourcesAllowed allowlist completionSources := by
  obtain ⟨_, hplugin, h⟩ := bind_eq_ok h
  dsimp only at h
  split at h
  · cases h
  · cases h
    intro sourceName found hfound
    by_cases hname : sourceName = completionSourceName source
    · rw [hname, AList.lookup_insert] at hfound
      cases hfound
      exact ⟨hname.symm, hplugin⟩
    · rw [AList.lookup_insert_ne hname] at hfound
      exact hbefore sourceName found hfound

theorem buildCompletionSources_allowed {sources : List CompletionProviderConfig}
    (h : buildCompletionSources sources allowlist = .ok completionSources) :
    SourcesAllowed allowlist completionSources := by
  unfold buildCompletionSources at h
  induction sources using List.reverseRecOn generalizing completionSources with
  | nil =>
    cases h
    intro sourceName source hsource
    cases hsource
  | append_singleton rest source ih =>
    rw [List.foldlM_append] at h
    obtain ⟨byName, hbefore, h⟩ := bind_eq_ok h
    rw [List.foldlM_cons] at h
    obtain ⟨last, hlast, h⟩ := bind_eq_ok h
    cases h
    exact addCompletionSource_allowed (ih hbefore) hlast

end Sources

/-! ## Tools -/

section Tools
variable {rules : ToolRules} {allowlist : List String} {toolConfigs : List ToolConfig}
  {tools : List Tool} {toolMap : HashMap String ToolConfig}

theorem mem_of_checkToolPlugin {execute : ExecuteConfig} {plugin : ExecutePluginConfig}
    (h : checkToolPlugin allowlist execute = .ok ()) (htype : execute.executeType = .plugin)
    (hplugin : execute.asPlugin = some plugin) : plugin.plugin ∈ allowlist := by
  unfold checkToolPlugin at h
  rw [if_pos htype, hplugin] at h
  simp only at h
  split at h
  · cases h
  · split at h
    · assumption
    · cases h

theorem addTool_checked {built : List Tool × HashMap String ToolConfig} {toolCfg : ToolConfig}
    (hbefore : ∀ name tool, built.2.lookup name = some tool →
      checkToolPlugin allowlist tool.execute = .ok ())
    (h : addTool rules allowlist built toolCfg = .ok (tools, toolMap)) :
    ∀ name tool, toolMap.lookup name = some tool → checkToolPlugin allowlist tool.execute = .ok () := by
  unfold addTool at h
  split at h
  · cases h
  · obtain ⟨_, hchecked, h⟩ := bind_eq_ok h
    obtain ⟨toolAttr, -, h⟩ := bind_eq_ok h
    cases h
    intro name tool hfound
    by_cases hname : name = toolCfg.name
    · rw [hname, AList.lookup_insert] at hfound
      cases hfound
      exact hchecked
    · rw [AList.lookup_insert_ne hname] at hfound
      exact hbefore name tool hfound

theorem buildToolMap_checked (h : buildToolMap rules allowlist toolConfigs = .ok (tools, toolMap)) :
    ∀ name tool, toolMap.lookup name = some tool → checkToolPlugin allowlist tool.execute = .ok () := by
  unfold buildToolMap at h
  induction toolConfigs using List.reverseRecOn generalizing tools toolMap with
  | nil =>
    cases h
    intro name tool hfound
    cases hfound
  | append_singleton rest toolCfg ih =>
    rw [List.foldlM_append] at h
    obtain ⟨⟨before, map⟩, hbefore, h⟩ := bind_eq_ok h
    rw [List.foldlM_cons] at h
    obtain ⟨⟨after, last⟩, hlast, h⟩ := bind_eq_ok h
    cases h
    exact addTool_checked (ih hbefore) hlast

end Tools

/-! ## The engine -/

/-- What the constructor leaves of its configuration, and what its checks promise. -/
structure Constructed (crates : Crates) (engineConfig : EngineConfig) (built : ServerEngine) :
    Prop where
  config : built.config = engineConfig.config
  plugins : built.plugins = engineConfig.plugins
  accepted : Accepted crates built.toEngine
  registered : Registered built.config built.plugins
  completion : built.config.completionActive = false → built.completionSources = ∅

theorem fromConfig_constructed {features : Features} {rules : ToolRules} {crates : Crates}
    {engineConfig : EngineConfig} {built : ServerEngine}
    (h : fromConfig features rules crates engineConfig = .ok built) :
    Constructed crates engineConfig built := by
  obtain ⟨_, -, h⟩ := bind_eq_ok h
  obtain ⟨_, hregistered, h⟩ := bind_eq_ok h
  obtain ⟨_, hproviders, h⟩ := bind_eq_ok h
  obtain ⟨completionSources, hcompletion, h⟩ := bind_eq_ok h
  obtain ⟨toolsAndMap, htools, h⟩ := bind_eq_ok h
  obtain ⟨_, hprompts, hresources⟩ := bind_eq_ok hproviders
  cases h
  have hprovider : ∀ provider ∈ activeResourceProviders engineConfig.config, _ :=
    fun provider hmem => checked_of_validateResourceProvider (forM_eq_ok.mp hresources provider hmem)
  refine ⟨rfl, rfl, ?_, registered_of_validateRegistered hregistered, fun hinactive => ?_⟩
  · constructor
    case tools =>
      intro name tool execute hfound htype hplugin
      exact mem_of_checkToolPlugin (buildToolMap_checked htools name tool hfound) htype hplugin
    case prompts =>
      intro plugin config hmem
      exact mem_of_requireAllowlisted (forM_eq_ok.mp hprompts _ hmem)
    case resources =>
      intro plugin config templates hmem
      exact (hprovider _ hmem).2.1 plugin config templates rfl
    case sources =>
      intro sourceName name plugin config hfound
      unfold completionSourcesOf at hcompletion
      split at hcompletion
      · obtain ⟨sources, hsources, hcompletion⟩ := bind_eq_ok hcompletion
        obtain ⟨_, -, hcompletion⟩ := bind_eq_ok hcompletion
        cases hcompletion
        have hallowed := (buildCompletionSources_allowed hsources sourceName _ hfound).2
        exact mem_of_requireAllowlisted hallowed
      · cases hcompletion
        cases hfound
    case templates =>
      intro provider hmem template htemplate
      obtain ⟨huri, hschema, hannotations⟩ :=
        checked_of_validateTemplate ((hprovider provider hmem).1 template htemplate)
      refine ⟨huri, hschema, hannotations, fun hactive => ?_⟩
      unfold completionSourcesOf at hcompletion
      rw [if_pos hactive] at hcompletion
      obtain ⟨sources, -, hcompletion⟩ := bind_eq_ok hcompletion
      obtain ⟨_, hreferences, hcompletion⟩ := bind_eq_ok hcompletion
      obtain ⟨_, -, htemplates⟩ := bind_eq_ok hreferences
      cases hcompletion
      exact defined_of_mapping
        (forM_eq_ok.mp (forM_eq_ok.mp htemplates provider hmem) template htemplate)
    case items =>
      intro items templates hmem item hitem
      exact (hprovider _ hmem).2.2 items templates rfl item hitem
  · unfold completionSourcesOf at hcompletion
    rw [if_neg (by rw [hinactive]; exact Bool.false_ne_true)] at hcompletion
    cases hcompletion
    rfl

end RustMcpCore.Dispatch
