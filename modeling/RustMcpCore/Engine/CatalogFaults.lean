import RustMcpCore.Engine.ServerRuns

/-! # Resource catalogs that cannot be built

Items and templates are checked again when a catalog is built, and what was accepted at the
start passes. So only a plugin can be at fault: its call, or a URI that it lists.
-/
namespace RustMcpCore.Dispatch
open Library Fallible

/-- What a resource plugin is asked with for its list. -/
def Engine.listParams (engine : Engine) (pluginName : String) (config : Option Value) :
    PluginCallParams where
  config := mergePluginConfig engine.config .resource pluginName config
  ctx := engine.buildPluginContext none

/-- A build that starts here comes to ask this plugin for this provider: those before it have
listed, and left the world that the plugin is asked in. -/
structure Asked {W : Type} (env : Environment W) (engine : Engine) (plugins : PluginRegistry)
    (handling : Handling W) (pluginName : String) (config : Option Value) (plugin : Plugin) (world : W) :
    Prop where
  allowed : pluginName ∈ buildPluginAllowlist engine.config .resource
  registered : plugins.getPlugin .resource pluginName = some plugin
  reached : ∃ before templates rest made handling',
    activeResourceProviders engine.config = before ++ .plugin pluginName config templates :: rest ∧
      exec (before.mapM ((engine.withPlugins plugins).resourcesOfProvider env)) handling =
        (.ok made, handling') ∧ handling'.server.world = world

/-- The error comes from a configured resource plugin, at its call or for an entry it lists. -/
inductive PluginFault {W : Type} (env : Environment W) (engine : Engine) (plugins : PluginRegistry)
    (handling : Handling W) : McpError → Prop
  | call {pluginName : String} {config : Option Value} {plugin : Plugin} {world : W} {error : McpError}
      (asked : Asked env engine plugins handling pluginName config plugin world)
      (failed : (env.outside.listResources plugin (engine.listParams pluginName config) world).1 =
        .error error) : PluginFault env engine plugins handling error
  | entry {pluginName : String} {config : Option Value} {plugin : Plugin} {world : W}
      {entries : List Resource} {resource : Resource} {error : McpError}
      (asked : Asked env engine plugins handling pluginName config plugin world)
      (listed : (env.outside.listResources plugin (engine.listParams pluginName config) world).1 =
        .ok entries)
      (contained : resource ∈ entries)
      (invalid : validateResourceUri env.crates.parsers resource.raw.uri = .error error) :
      PluginFault env engine plugins handling error

section Faults
variable {W : Type} {env : Environment W} {engine : Engine} {plugins : PluginRegistry}

theorem resolveInlineResource_ok {item : ResourceItemConfig} (h : ItemFit env.crates.parsers item) :
    ∃ resource, Engine.resolveInlineResource env item = .ok resource := by
  obtain ⟨annotations, hannotations⟩ := h.annotations
  unfold Engine.resolveInlineResource
  rw [h.uri, hannotations]
  exact ⟨_, rfl⟩

theorem mapping_ok {completions : Option (HashMap String String)}
    {completionSources : HashMap String CompletionProviderConfig} (owner : String)
    (h : ∀ mapping, completions = some mapping →
      ∀ sourceName ∈ mapping.values, (completionSources.lookup sourceName).isSome = true) :
    validateCompletionSourceMapping completions completionSources owner = .ok () := by
  cases completions with
  | none => rfl
  | some mapping =>
    have hnone : (mapping.values.find? fun sourceName =>
        (completionSources.lookup sourceName).isNone) = none := by
      refine List.find?_eq_none.mpr fun sourceName hname hmissing => ?_
      have hpresent := h mapping rfl sourceName hname
      rw [Option.isNone_iff_eq_none.mp hmissing] at hpresent
      cases hpresent
    unfold validateCompletionSourceMapping
    simp only [hnone]

theorem resolveTemplate_ok {source : ResourceSource} {template : ResourceTemplateConfig}
    (h : TemplateFit env.crates.parsers env.crates.schemas engine template) :
    ∃ resolved, engine.resolveTemplate env source template = .ok resolved := by
  obtain ⟨annotations, hannotations⟩ := h.annotations
  unfold Engine.resolveTemplate
  rw [h.uriTemplate, h.schema, hannotations]
  by_cases hactive : engine.config.completionActive = true
  · have hmapping := fun owner => mapping_ok owner (h.completions hactive)
    simp only [hactive, hmapping]
    exact ⟨_, rfl⟩
  · simp only [hactive]
    exact ⟨_, rfl⟩

theorem buildResourceTemplates_ok (haccepted : Accepted env.crates engine) :
    ∃ templates, engine.buildResourceTemplates env = .ok templates := by
  unfold Engine.buildResourceTemplates
  cases hactive : engine.config.resources.filter ResourcesConfig.isActive with
  | none => exact ⟨[], rfl⟩
  | some resourcesConfig =>
    refine exists_ok_map.mpr (exists_ok_mapM.mpr fun provider hprovider => ?_)
    rw [← activeResourceProviders_of_some hactive] at hprovider
    have hfit := haccepted.templates provider hprovider
    cases provider with
    | inline items templates =>
      exact exists_ok_mapM.mpr fun template htemplate => resolveTemplate_ok (hfit template htemplate)
    | plugin plugin config templates =>
      exact exists_ok_mapM.mpr fun template htemplate => resolveTemplate_ok (hfit template htemplate)

/-- A provider that fails is a plugin's, at fault where the build has come to it. -/
theorem resourcesOfProvider_fault (haccepted : Accepted env.crates engine)
    (hregistered : Registered engine.config plugins) {handling reached : Handling W}
    {before rest : List ResourceProviderConfig} {provider : ResourceProviderConfig}
    {made : List (List ResolvedResource)}
    (hproviders : activeResourceProviders engine.config = before ++ provider :: rest)
    (hbefore : exec (before.mapM ((engine.withPlugins plugins).resourcesOfProvider env)) handling =
      (.ok made, reached)) :
    Triple (fun state => state = reached) (fun _ _ => True)
      (fun error _ => PluginFault env engine plugins handling error)
      ((engine.withPlugins plugins).resourcesOfProvider env provider) := by
  have hprovider : provider ∈ activeResourceProviders engine.config := by
    rw [hproviders]
    exact List.mem_append_right before List.mem_cons_self
  cases provider with
  | inline items templates =>
    obtain ⟨found, hfound⟩ := exists_ok_mapM.mpr fun item hitem =>
      resolveInlineResource_ok (haccepted.items items templates hprovider item hitem)
    refine .lift (fun _ _ _ _ => trivial) fun error herror => ?_
    rw [hfound] at herror
    cases herror
  | plugin pluginName config templates =>
    have hallowed := haccepted.resources pluginName config templates hprovider
    obtain ⟨plugin, hplugin⟩ :=
      Option.isSome_iff_exists.mp (hregistered .resource rfl pluginName hallowed)
    have hasked : Asked env engine plugins handling pluginName config plugin reached.server.world :=
      ⟨hallowed, hplugin, before, templates, rest, made, reached, hproviders, hbefore, rfl⟩
    have hlookup : (engine.withPlugins plugins).lookupResourcePlugin pluginName = .ok plugin := by
      unfold Engine.lookupResourcePlugin Engine.lookupPlugin Engine.withPlugins
      dsimp only
      rw [hplugin]
    have hask : Triple (fun state => state = reached)
        (fun entries _ => (env.outside.listResources plugin (engine.listParams pluginName config)
          reached.server.world).1 = .ok entries)
        (fun error _ => PluginFault env engine plugins handling error)
        (ask (env.outside.listResources plugin (engine.listParams pluginName config))) := by
      refine .act (fun _ _ => rfl) fun state heq => ?_
      subst heq
      exact { value := fun entries hlisted => hlisted
              error := fun error hfailed => .call hasked hfailed }
    unfold Engine.resourcesOfProvider
    refine SameFrom.lift_bind (fun found hfound => ?_) fun error herror => ?_
    · obtain rfl : plugin = found := Except.ok.inj (hlookup.symm.trans hfound)
      refine SameFrom.bind hask fun entries => ?_
      intro state hlisted
      refine ⟨rfl, fun _ _ => trivial, fun error herror => ?_⟩
      obtain ⟨resource, hresource, hresolved⟩ := exists_error_of_mapM herror
      rcases bind_eq_error hresolved with huri | ⟨_, -, hrest⟩
      · exact .entry hasked hlisted hresource huri
      · cases hrest
    · rw [hlookup] at herror
      cases herror

theorem buildResources_fault (haccepted : Accepted env.crates engine)
    (hregistered : Registered engine.config plugins) (handling : Handling W) :
    Triple (fun state => state = handling) (fun _ _ => True)
      (fun error _ => PluginFault env engine plugins handling error)
      ((engine.withPlugins plugins).buildResources env) := by
  unfold Engine.buildResources
  simp only [Engine.withPlugins_config]
  cases hactive : engine.config.resources.filter ResourcesConfig.isActive with
  | none => exact .pure fun _ _ => trivial
  | some resourcesConfig =>
    have hmade : Triple (fun state => state = handling) (fun _ _ => True)
        (fun error _ => PluginFault env engine plugins handling error)
        (resourcesConfig.providers.mapM ((engine.withPlugins plugins).resourcesOfProvider env)) := by
      intro state heq
      subst heq
      refine ⟨rfl, fun _ _ => trivial, fun error herror => ?_⟩
      obtain ⟨before, provider, rest, made, reached, hproviders, hbefore, hfailed⟩ :=
        exec_mapM_error (Prod.ext herror rfl)
      rw [← activeResourceProviders_of_some hactive] at hproviders
      have hends := resourcesOfProvider_fault haccepted hregistered hproviders hbefore reached rfl
      exact hends.2.error error (congrArg Prod.fst hfailed)
    exact SameFrom.bind hmade fun made => .pure fun _ _ => trivial

theorem refreshResourceCatalog_fault (haccepted : Accepted env.crates engine)
    (hregistered : Registered engine.config plugins) (handling : Handling W) :
    Triple (fun state => state = handling) (fun _ _ => True)
      (fun error _ => PluginFault env engine plugins handling error)
      ((engine.withPlugins plugins).refreshResourceCatalog env) := by
  have hbuild : Triple (fun state => state = handling) (fun _ _ => True)
      (fun error _ => PluginFault env engine plugins handling error)
      ((engine.withPlugins plugins).buildResourceCatalog env) := by
    obtain ⟨templates, htemplates⟩ := buildResourceTemplates_ok haccepted
    refine SameFrom.bind (buildResources_fault haccepted hregistered handling) fun resources => ?_
    refine SameFrom.lift_bind (fun _ _ => .pure fun _ _ => trivial) fun error herror => ?_
    have hsame : (engine.withPlugins plugins).buildResourceTemplates env = .ok templates := htemplates
    rw [hsame] at herror
    cases herror
  refine SameFrom.bind hbuild fun catalog => ?_
  have hupdate : ∀ change : ServerState W → ServerState W, Triple (fun _ => True) (fun _ _ => True)
      (fun error _ => PluginFault env engine plugins handling error) (update change) := by
    refine fun change => .act (fun _ _ => rfl) fun _ _ => ?_
    exact { value := fun _ _ => trivial
            error := fun _ heq => by cases heq }
  exact SameFrom.bind (hupdate _) fun _ => .pure fun _ _ => trivial

end Faults

/-- A server whose configured plugins are registered can always answer from its resource catalog,
unless a configured resource plugin fails or lists what is no URI: in no state does what the
configuration itself says of resources and templates stand in the way. -/
theorem resourceCatalog_fails_by_plugin {W : Type} {features : Features} {rules : ToolRules}
    {engineConfig : EngineConfig} {built : ServerEngine} {env : ServerEnvironment W}
    (h : fromConfig features rules env.crates engineConfig = .ok built) {plugins : PluginRegistry}
    (hregistered : Registered engineConfig.config plugins) (handling : Handling W) {error : McpError}
    (hfail : (exec ((built.withPlugins plugins).resourceCatalog env.toEnvironment) handling).1 =
      .error error) : PluginFault env.toEnvironment built.toEngine plugins handling error := by
  obtain ⟨hconfig, -, haccepted, -, -⟩ := fromConfig_constructed h
  rw [← hconfig] at hregistered
  cases hstored : handling.server.resourceCatalog with
  | some catalog =>
    rw [exec_resourceCatalog hstored] at hfail
    cases hfail
  | none =>
    have hserver : exec (server : Handler W (ServerState W)) handling =
      (.ok handling.server, handling) := rfl
    unfold Engine.resourceCatalog at hfail
    rw [exec_bind, hserver] at hfail
    simp only [hstored] at hfail
    exact (refreshResourceCatalog_fault haccepted hregistered handling handling rfl).2.error error hfail

/-! ## A plugin whose store is gone -/

namespace Attic

def config : McpConfig :=
  { McpConfig.empty with
    resources := some
      { enabled := none
        notifyListChanged := false
        providers := [.plugin "boxes" none none] }
    plugins := [⟨"boxes", .resource, none, none⟩] }

def plugins : PluginRegistry :=
  ⟨fun pluginType => if pluginType = .resource then AList.singleton "boxes" ⟨"boxes", 0⟩ else ∅,
    {"boxes"}⟩

def built : ServerEngine where
  config := config
  toolMap := ∅
  plugins := plugins
  completionSources := ∅
  tools := []
  clientsCanSubscribe := false

def env : ServerEnvironment Unit where
  crates := Greeting.crates
  outside := { Greeting.outside with
    listResources := fun _ _ world => (.error (.internalError "no such store" none), world) }
  subscribe _ _ _ world := (.ok (), world)
  unsubscribe _ _ _ world := (.ok (), world)
  sender world := (⟨fun _ => .ok .null, fun _ _ => .ok ()⟩, world)
  setMinLevel _ world := world

theorem fromConfig_built :
    fromConfig .full anyTool env.crates ⟨config, plugins, false⟩ = .ok built := rfl

end Attic

theorem resourceCatalog_fails_by_plugin_attic :
    PluginFault Attic.env.toEnvironment Attic.built.toEngine Attic.plugins
      ⟨ServerEngine.newServer (), []⟩ (.internalError "no such store" none) :=
  resourceCatalog_fails_by_plugin Attic.fromConfig_built
    (fromConfig_constructed Attic.fromConfig_built).registered ⟨ServerEngine.newServer (), []⟩ rfl

end RustMcpCore.Dispatch
