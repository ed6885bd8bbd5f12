import RustMcpCore.Engine.Methods
import RustMcpCore.Engine.Wiring
import RustMcpCore.Library.Triples

/-! # The plugins that a server reaches

A name that a handler looks up is on the allowlist of its type: it comes from the tools, the
completion sources or a catalog, and the catalogs are built from the allowed providers. So
what else is registered is never seen, over all runs.
-/
namespace RustMcpCore.Dispatch
open Library Fallible Outbound

/-! ## What the catalogs refer to -/

def PromptSource.Allowed (config : McpConfig) : PromptSource → Prop
  | .inline _ => True
  | .plugin pluginName _ => pluginName ∈ buildPluginAllowlist config .prompt

def ResourceSource.Allowed (config : McpConfig) : ResourceSource → Prop
  | .inline _ => True
  | .plugin pluginName _ => pluginName ∈ buildPluginAllowlist config .resource

structure PromptWired (engine : Engine) (entry : ResolvedPrompt) : Prop where
  source : PromptSource.Allowed engine.config entry.source
  completions : CompletionsDefined engine entry.completions

structure TemplateWired (engine : Engine) (template : ResolvedResourceTemplate) : Prop where
  source : ResourceSource.Allowed engine.config template.source
  completions : CompletionsDefined engine template.completions

structure PromptCatalogWired (engine : Engine) (catalog : PromptCatalog) : Prop where
  index : catalog = .new catalog.entries
  inactive : engine.config.promptsActive = false → catalog.entries = []
  entries : ∀ entry ∈ catalog.entries, PromptWired engine entry

structure ResourceCatalogWired (engine : Engine) (catalog : ResourceCatalog) : Prop where
  index : catalog = .new catalog.resources catalog.templates
  inactive : engine.config.resourcesActive = false → catalog.resources = [] ∧ catalog.templates = []
  resources : ∀ resource ∈ catalog.resources, ResourceSource.Allowed engine.config resource.source
  templates : ∀ template ∈ catalog.templates, TemplateWired engine template

/-- The catalogs of a server refer to allowed plugins and to completion sources that exist. -/
structure Wired {W : Type} (engine : Engine) (server : ServerState W) : Prop where
  prompts : ∀ catalog, server.promptCatalog = some catalog → PromptCatalogWired engine catalog
  resources : ∀ catalog, server.resourceCatalog = some catalog → ResourceCatalogWired engine catalog

/-- Two registries with the same plugins under the names of the configuration. -/
def SameConfigured (config : McpConfig) (plugins plugins' : PluginRegistry) : Prop :=
  ∀ pluginType, ∀ name ∈ buildPluginAllowlist config pluginType,
    plugins.getPlugin pluginType name = plugins'.getPlugin pluginType name

theorem sameConfigured_refl (config : McpConfig) (plugins : PluginRegistry) :
    SameConfigured config plugins plugins := fun _ _ _ => rfl

/-! ## Handlers under an invariant of the catalogs -/

section Rules
variable {W A B : Type} {Inv : ServerState W → Prop} {Fine : A → Prop} {Fine' : B → Prop}

/-- It only looks at the catalogs. -/
def Framed (Inv : ServerState W → Prop) : Prop :=
  ∀ server after : ServerState W, after.promptCatalog = server.promptCatalog →
    after.resourceCatalog = server.resourceCatalog → Inv server → Inv after

/-- The same happens under two registries, the invariant is kept, and a value is as asked. -/
abbrev Confined (Inv : ServerState W → Prop) (Fine : A → Prop) (program program' : Handler W A) :
    Prop :=
  SameFrom (fun handling => Inv handling.server) (fun a handling => Inv handling.server ∧ Fine a)
    (fun _ handling => Inv handling.server) program program'

theorem confined_bind {program program' : Handler W A} {next next' : A → Handler W B}
    (h : Confined Inv Fine program program')
    (hnext : ∀ a, Fine a → Confined Inv Fine' (next a) (next' a)) :
    Confined Inv Fine' (program >>= next) (program' >>= next') :=
  SameFrom.bind h fun a handling hmid => hnext a hmid.2 handling hmid.1

theorem confined_pure {a : A} (h : Fine a) :
    Confined Inv Fine (pure a : Handler W A) (pure a) :=
  .pure fun _ hinv => ⟨hinv, h⟩

theorem confined_throw (error : McpError) :
    Confined Inv Fine (throw error : Handler W A) (throw error) :=
  .throw fun _ hinv => hinv

theorem confined_settle {result : Except McpError A} (h : ∀ a, result = .ok a → Fine a) :
    Confined Inv Fine (settle result : Handler W A) (settle result) :=
  .lift (fun a heq _ hinv => ⟨hinv, h a heq⟩) fun _ _ _ hinv => hinv

theorem confined_map {program program' : Handler W A} {f : A → B}
    (h : Confined Inv (fun _ => True) program program') :
    Confined Inv (fun _ => True) (f <$> program) (f <$> program') :=
  SameFrom.map h fun _ _ hmid => ⟨hmid.1, trivial⟩

theorem confined_mapM {f f' : A → Handler W B} {given : List A}
    (h : ∀ a ∈ given, Confined Inv Fine' (f a) (f' a)) :
    Confined Inv (fun made => ∀ b ∈ made, Fine' b) (given.mapM f) (given.mapM f') :=
  SameFrom.mapM h

theorem confined_ask (hframe : Framed Inv) (effect : W → Except McpError A × W) :
    Confined Inv (fun _ => True) (ask effect) (ask effect) :=
  .act (fun _ _ => rfl) fun handling hinv =>
    { value := fun _ _ => ⟨hframe handling.server _ rfl rfl hinv, trivial⟩
      error := fun _ _ => hframe handling.server _ rfl rfl hinv }

theorem confined_check (result : Except McpError A) :
    Confined Inv (fun _ => True) (check result : Handler W A) (check result) :=
  .act (fun _ _ => rfl) fun _ hinv =>
    { value := fun _ _ => ⟨hinv, trivial⟩
      error := fun _ _ => hinv }

theorem confined_observe (hframe : Framed Inv) {effect effect' : W → A × W} (h : effect = effect') :
    Confined Inv (fun _ => True) (observe effect) (observe effect') := by
  subst h
  refine .act (fun _ _ => rfl) fun handling hinv => ?_
  exact { value := fun _ _ => ⟨hframe handling.server _ rfl rfl hinv, trivial⟩
          error := fun _ _ => hframe handling.server _ rfl rfl hinv }

theorem confined_server :
    Confined Inv (fun _ => True) (server : Handler W (ServerState W)) server :=
  .act (fun _ _ => rfl) fun _ hinv =>
    { value := fun _ _ => ⟨hinv, trivial⟩
      error := fun _ heq => by cases heq }

theorem confined_update {change : ServerState W → ServerState W}
    (h : ∀ server, Inv server → Inv (change server)) :
    Confined Inv (fun _ => True) (update change) (update change) :=
  .act (fun _ _ => rfl) fun handling hinv =>
    { value := fun _ _ => ⟨h handling.server hinv, trivial⟩
      error := fun _ heq => by cases heq }

end Rules

/-- What a catalog that is built for the first time does not break. -/
structure CatalogInvariant {W : Type} (engine : Engine) (Inv : ServerState W → Prop) : Prop where
  wired : ∀ server, Inv server → Wired engine server
  framed : Framed Inv
  prompts : ∀ server catalog, Inv server → server.promptCatalog = none →
    PromptCatalogWired engine catalog → Inv { server with promptCatalog := some catalog }
  resources : ∀ server catalog, Inv server → server.resourceCatalog = none →
    ResourceCatalogWired engine catalog → Inv { server with resourceCatalog := some catalog }

/-! ## Catalogs -/

section Handlers
variable {W : Type} {Inv : ServerState W → Prop} {engine : Engine} {crates : Crates}
  {env : Environment W} {plugins plugins' : PluginRegistry}

theorem lookupPlugin_same (hsame : SameConfigured engine.config plugins plugins')
    {pluginType : PluginType} {name : String}
    (hname : name ∈ buildPluginAllowlist engine.config pluginType) :
    (engine.withPlugins plugins).lookupPlugin pluginType name =
      (engine.withPlugins plugins').lookupPlugin pluginType name := by
  unfold Engine.lookupPlugin Engine.withPlugins
  dsimp only
  rw [hsame pluginType name hname]

theorem confined_lookup (hsame : SameConfigured engine.config plugins plugins')
    {pluginType : PluginType} {name : String}
    (hname : name ∈ buildPluginAllowlist engine.config pluginType) :
    Confined Inv (fun _ => True)
      (settle ((engine.withPlugins plugins).lookupPlugin pluginType name) : Handler W Plugin)
      (settle ((engine.withPlugins plugins').lookupPlugin pluginType name)) := by
  rw [lookupPlugin_same hsame hname]
  exact confined_settle fun _ _ => trivial

theorem defined_of_validatePromptCompletions {completions : Option (HashMap String String)}
    {schema : Value} {promptName : String}
    (h : engine.validatePromptCompletions completions schema promptName = .ok ()) :
    CompletionsDefined engine completions := by
  intro hactive
  obtain ⟨_, -, h⟩ := bind_eq_ok h
  rw [if_pos hactive] at h
  exact defined_of_mapping h

theorem resolveInlinePrompt_wired {item : PromptItemConfig} {entry : ResolvedPrompt}
    (h : engine.resolveInlinePrompt item = .ok entry) : PromptWired engine entry := by
  obtain ⟨arguments, -, h⟩ := bind_eq_ok h
  obtain ⟨_, hcompletions, h⟩ := bind_eq_ok h
  cases h
  exact ⟨trivial, defined_of_validatePromptCompletions hcompletions⟩

theorem resolvePluginPrompt_wired {pluginName : String} {config : Value} {given : PromptEntry}
    {entry : ResolvedPrompt} (hallowed : pluginName ∈ buildPluginAllowlist engine.config .prompt)
    (h : engine.resolvePluginPrompt pluginName config given = .ok entry) :
    PromptWired engine entry := by
  obtain ⟨arguments, -, h⟩ := bind_eq_ok h
  obtain ⟨_, hcompletions, h⟩ := bind_eq_ok h
  cases h
  exact ⟨hallowed, defined_of_validatePromptCompletions hcompletions⟩

theorem promptsOfProvider_confined (hframe : Framed Inv) (haccepted : Accepted crates engine)
    (hsame : SameConfigured engine.config plugins plugins') {provider : PromptProviderConfig}
    (hprovider : provider ∈ activePromptProviders engine.config) :
    Confined Inv (fun entries => ∀ entry ∈ entries, PromptWired engine entry)
      ((engine.withPlugins plugins).promptsOfProvider env provider)
      ((engine.withPlugins plugins').promptsOfProvider env provider) := by
  cases provider with
  | inline items =>
    refine confined_settle fun entries hentries entry hentry => ?_
    obtain ⟨item, -, hitem⟩ := mem_of_mapM hentries hentry
    exact resolveInlinePrompt_wired hitem
  | plugin plugin config =>
    have hallowed := haccepted.prompts plugin config hprovider
    refine confined_bind (confined_lookup hsame hallowed) fun promptPlugin _ => ?_
    refine confined_bind (confined_ask hframe _) fun given _ => ?_
    refine confined_settle fun entries hentries entry hentry => ?_
    obtain ⟨found, -, hfound⟩ := mem_of_mapM hentries hentry
    exact resolvePluginPrompt_wired hallowed hfound

theorem promptsActive_of_some {promptsConfig : PromptsConfig}
    (hactive : engine.config.prompts.filter PromptsConfig.isActive = some promptsConfig) :
    engine.config.promptsActive = true := by
  obtain ⟨hsome, hfilter⟩ := Option.filter_eq_some_iff.mp hactive
  unfold McpConfig.promptsActive
  rw [hsome]
  exact hfilter

theorem buildPromptCatalog_confined (hframe : Framed Inv) (haccepted : Accepted crates engine)
    (hsame : SameConfigured engine.config plugins plugins') :
    Confined Inv (PromptCatalogWired engine)
      ((engine.withPlugins plugins).buildPromptCatalog env)
      ((engine.withPlugins plugins').buildPromptCatalog env) := by
  unfold Engine.buildPromptCatalog
  simp only [Engine.withPlugins_config]
  cases hactive : engine.config.prompts.filter PromptsConfig.isActive with
  | none =>
    refine confined_pure ⟨rfl, fun _ => rfl, fun entry hentry => ?_⟩
    cases hentry
  | some promptsConfig =>
    have hproviders : activePromptProviders engine.config = promptsConfig.providers := by
      unfold activePromptProviders
      rw [hactive]
      rfl
    refine confined_bind (confined_mapM fun provider hprovider =>
      promptsOfProvider_confined hframe haccepted hsame (hproviders ▸ hprovider)) fun made hmade => ?_
    refine confined_pure ⟨rfl, fun hinactive => ?_, fun entry hentry => ?_⟩
    · have hprompts := promptsActive_of_some hactive
      simp [hprompts] at hinactive
    · obtain ⟨entries, hentries, hin⟩ := List.mem_flatten.mp hentry
      exact hmade entries hentries entry hin

/-- The catalog that is given is the one that is stored from then on. -/
theorem refreshPromptCatalog_stored {After : ServerState W → Prop} (hframe : Framed Inv)
    (haccepted : Accepted crates engine) (hsame : SameConfigured engine.config plugins plugins')
    (hafter : ∀ server, Inv server → After server)
    (hstore : ∀ server catalog, Inv server → PromptCatalogWired engine catalog →
      After { server with promptCatalog := some catalog }) :
    SameFrom (fun handling => Inv handling.server)
      (fun catalog handling => After handling.server ∧ PromptCatalogWired engine catalog ∧
        handling.server.promptCatalog = some catalog)
      (fun _ handling => After handling.server)
      ((engine.withPlugins plugins).refreshPromptCatalog env)
      ((engine.withPlugins plugins').refreshPromptCatalog env) := by
  have hbuild : SameFrom (fun handling => Inv handling.server)
      (fun catalog handling => Inv handling.server ∧ PromptCatalogWired engine catalog)
      (fun _ handling => After handling.server)
      ((engine.withPlugins plugins).buildPromptCatalog env)
      ((engine.withPlugins plugins').buildPromptCatalog env) :=
    (buildPromptCatalog_confined hframe haccepted hsame).mono (fun _ h => h) (fun _ _ h => h)
      fun _ handling h => hafter handling.server h
  refine SameFrom.bind hbuild fun catalog => ?_
  have hupdate : SameFrom
      (fun handling => Inv handling.server ∧ PromptCatalogWired engine catalog)
      (fun _ handling => After handling.server ∧ PromptCatalogWired engine catalog ∧
        handling.server.promptCatalog = some catalog)
      (fun _ handling => After handling.server)
      (update fun server : ServerState W => { server with promptCatalog := some catalog })
      (update fun server => { server with promptCatalog := some catalog }) := by
    refine .act (fun _ _ => rfl) fun handling hmid => ?_
    exact { value := fun _ _ => ⟨hstore handling.server catalog hmid.1 hmid.2, hmid.2, rfl⟩
            error := fun _ heq => by cases heq }
  exact SameFrom.bind hupdate fun _ => .pure fun _ h => h

theorem promptCatalog_stored (hinv : CatalogInvariant engine Inv) (haccepted : Accepted crates engine)
    (hsame : SameConfigured engine.config plugins plugins') :
    SameFrom (fun handling => Inv handling.server)
      (fun catalog handling => Inv handling.server ∧ PromptCatalogWired engine catalog ∧
        handling.server.promptCatalog = some catalog)
      (fun _ handling => Inv handling.server)
      ((engine.withPlugins plugins).promptCatalog env)
      ((engine.withPlugins plugins').promptCatalog env) := by
  intro handling hstart
  have hserver : exec (server : Handler W (ServerState W)) handling =
    (.ok handling.server, handling) := rfl
  unfold Engine.promptCatalog
  rw [exec_bind, exec_bind, hserver]
  dsimp only
  cases hstored : handling.server.promptCatalog with
  | some existing =>
    have hwired := (hinv.wired handling.server hstart).prompts existing hstored
    exact ⟨rfl, .ok ⟨hstart, hwired, hstored⟩⟩
  | none =>
    have hframe : Framed fun server : ServerState W => Inv server ∧ server.promptCatalog = none := by
      intro before after hprompts hresources h
      exact ⟨hinv.framed before after hprompts hresources h.1, hprompts.trans h.2⟩
    exact refreshPromptCatalog_stored hframe haccepted hsame (fun _ h => h.1)
      (fun before catalog h hwired => hinv.prompts before catalog h.1 h.2 hwired) handling
      ⟨hstart, hstored⟩

theorem promptCatalog_confined (hinv : CatalogInvariant engine Inv)
    (haccepted : Accepted crates engine) (hsame : SameConfigured engine.config plugins plugins') :
    Confined Inv (PromptCatalogWired engine) ((engine.withPlugins plugins).promptCatalog env)
      ((engine.withPlugins plugins').promptCatalog env) :=
  (promptCatalog_stored hinv haccepted hsame).mono (fun _ h => h) (fun _ _ h => ⟨h.1, h.2.1⟩)
    fun _ _ h => h

theorem resourcesOfProvider_confined (hframe : Framed Inv) (haccepted : Accepted crates engine)
    (hsame : SameConfigured engine.config plugins plugins') {provider : ResourceProviderConfig}
    (hprovider : provider ∈ activeResourceProviders engine.config) :
    Confined Inv (fun found => ∀ resource ∈ found,
        ResourceSource.Allowed engine.config resource.source)
      ((engine.withPlugins plugins).resourcesOfProvider env provider)
      ((engine.withPlugins plugins').resourcesOfProvider env provider) := by
  cases provider with
  | inline items templates =>
    refine confined_settle fun found hfound resource hresource => ?_
    obtain ⟨item, -, hitem⟩ := mem_of_mapM hfound hresource
    obtain ⟨_, -, hitem⟩ := bind_eq_ok hitem
    obtain ⟨annotations, -, hitem⟩ := bind_eq_ok hitem
    cases hitem
    trivial
  | plugin plugin config templates =>
    have hallowed := haccepted.resources plugin config templates hprovider
    refine confined_bind (confined_lookup hsame hallowed) fun resourcePlugin _ => ?_
    refine confined_bind (confined_ask hframe _) fun given _ => ?_
    refine confined_settle fun found hfound resource hresource => ?_
    obtain ⟨entry, -, hentry⟩ := mem_of_mapM hfound hresource
    obtain ⟨_, -, hentry⟩ := bind_eq_ok hentry
    cases hentry
    exact hallowed

theorem resourcesActive_of_some {resourcesConfig : ResourcesConfig}
    (hactive : engine.config.resources.filter ResourcesConfig.isActive = some resourcesConfig) :
    engine.config.resourcesActive = true := by
  obtain ⟨hsome, hfilter⟩ := Option.filter_eq_some_iff.mp hactive
  unfold McpConfig.resourcesActive
  rw [hsome]
  exact hfilter

theorem buildResources_confined (hframe : Framed Inv) (haccepted : Accepted crates engine)
    (hsame : SameConfigured engine.config plugins plugins') :
    Confined Inv (fun found => (engine.config.resourcesActive = false → found = []) ∧
        ∀ resource ∈ found, ResourceSource.Allowed engine.config resource.source)
      ((engine.withPlugins plugins).buildResources env)
      ((engine.withPlugins plugins').buildResources env) := by
  unfold Engine.buildResources
  simp only [Engine.withPlugins_config]
  cases hactive : engine.config.resources.filter ResourcesConfig.isActive with
  | none =>
    refine confined_pure ⟨fun _ => rfl, fun resource hresource => ?_⟩
    cases hresource
  | some resourcesConfig =>
    have hproviders : activeResourceProviders engine.config = resourcesConfig.providers := by
      unfold activeResourceProviders
      rw [hactive]
      rfl
    refine confined_bind (confined_mapM fun provider hprovider =>
      resourcesOfProvider_confined hframe haccepted hsame (hproviders ▸ hprovider)) fun made hmade => ?_
    refine confined_pure ⟨fun hinactive => ?_, fun resource hresource => ?_⟩
    · have hresources := resourcesActive_of_some hactive
      simp [hresources] at hinactive
    · obtain ⟨found, hfound, hin⟩ := List.mem_flatten.mp hresource
      exact hmade found hfound resource hin

theorem resolveTemplate_wired {source : ResourceSource} {template : ResourceTemplateConfig}
    {resolved : ResolvedResourceTemplate} (hsource : ResourceSource.Allowed engine.config source)
    (h : engine.resolveTemplate env source template = .ok resolved) :
    TemplateWired engine resolved := by
  obtain ⟨_, -, h⟩ := bind_eq_ok h
  obtain ⟨_, -, h⟩ := bind_eq_ok h
  obtain ⟨annotations, -, h⟩ := bind_eq_ok h
  dsimp only at h
  split at h
  · obtain ⟨_, hcompletions, h⟩ := bind_eq_ok h
    cases h
    exact ⟨hsource, fun _ => defined_of_mapping hcompletions⟩
  · cases h
    exact ⟨hsource, fun hactive => absurd hactive ‹_›⟩

theorem templatesOfProvider_wired (haccepted : Accepted crates engine)
    {provider : ResourceProviderConfig} (hprovider : provider ∈ activeResourceProviders engine.config)
    {templates : List ResolvedResourceTemplate}
    (h : engine.templatesOfProvider env provider = .ok templates) :
    ∀ template ∈ templates, TemplateWired engine template := by
  intro template htemplate
  cases provider with
  | inline items configured =>
    obtain ⟨config, -, hconfig⟩ := mem_of_mapM h htemplate
    have hinline : ResourceSource.Allowed engine.config (.inline none) := trivial
    exact resolveTemplate_wired hinline hconfig
  | plugin plugin providerConfig configured =>
    obtain ⟨config, -, hconfig⟩ := mem_of_mapM h htemplate
    refine resolveTemplate_wired ?_ hconfig
    exact haccepted.resources plugin providerConfig configured hprovider

theorem activeResourceProviders_of_some {resourcesConfig : ResourcesConfig}
    (hactive : engine.config.resources.filter ResourcesConfig.isActive = some resourcesConfig) :
    activeResourceProviders engine.config = resourcesConfig.providers := by
  unfold activeResourceProviders
  rw [hactive]
  rfl

theorem buildResourceTemplates_wired (haccepted : Accepted crates engine)
    {templates : List ResolvedResourceTemplate}
    (h : engine.buildResourceTemplates env = .ok templates) :
    (engine.config.resourcesActive = false → templates = []) ∧
      ∀ template ∈ templates, TemplateWired engine template := by
  unfold Engine.buildResourceTemplates at h
  cases hactive : engine.config.resources.filter ResourcesConfig.isActive with
  | none =>
    rw [hactive] at h
    cases h
    refine ⟨fun _ => rfl, fun template htemplate => ?_⟩
    cases htemplate
  | some resourcesConfig =>
    rw [hactive] at h
    obtain ⟨made, hmade, hflat⟩ := except_map_eq_ok h
    subst hflat
    refine ⟨fun hinactive => ?_, fun template htemplate => ?_⟩
    · have hresources := resourcesActive_of_some hactive
      simp [hresources] at hinactive
    · obtain ⟨part, hpart, hin⟩ := List.mem_flatten.mp htemplate
      obtain ⟨provider, hprovider, hmakes⟩ := mem_of_mapM hmade hpart
      rw [← activeResourceProviders_of_some hactive] at hprovider
      exact templatesOfProvider_wired haccepted hprovider hmakes template hin

theorem buildResourceCatalog_confined (hframe : Framed Inv) (haccepted : Accepted crates engine)
    (hsame : SameConfigured engine.config plugins plugins') :
    Confined Inv (ResourceCatalogWired engine)
      ((engine.withPlugins plugins).buildResourceCatalog env)
      ((engine.withPlugins plugins').buildResourceCatalog env) := by
  refine confined_bind (buildResources_confined hframe haccepted hsame) fun resources hresources => ?_
  refine confined_bind (confined_settle fun templates htemplates =>
    buildResourceTemplates_wired haccepted htemplates) fun templates htemplates => ?_
  exact confined_pure ⟨rfl, fun hinactive => ⟨hresources.1 hinactive, htemplates.1 hinactive⟩,
    hresources.2, htemplates.2⟩

/-- The catalog that is given is the one that is stored from then on. -/
theorem refreshResourceCatalog_stored {After : ServerState W → Prop} (hframe : Framed Inv)
    (haccepted : Accepted crates engine) (hsame : SameConfigured engine.config plugins plugins')
    (hafter : ∀ server, Inv server → After server)
    (hstore : ∀ server catalog, Inv server → ResourceCatalogWired engine catalog →
      After { server with resourceCatalog := some catalog }) :
    SameFrom (fun handling => Inv handling.server)
      (fun catalog handling => After handling.server ∧ ResourceCatalogWired engine catalog ∧
        handling.server.resourceCatalog = some catalog)
      (fun _ handling => After handling.server)
      ((engine.withPlugins plugins).refreshResourceCatalog env)
      ((engine.withPlugins plugins').refreshResourceCatalog env) := by
  have hbuild : SameFrom (fun handling => Inv handling.server)
      (fun catalog handling => Inv handling.server ∧ ResourceCatalogWired engine catalog)
      (fun _ handling => After handling.server)
      ((engine.withPlugins plugins).buildResourceCatalog env)
      ((engine.withPlugins plugins').buildResourceCatalog env) :=
    (buildResourceCatalog_confined hframe haccepted hsame).mono (fun _ h => h) (fun _ _ h => h)
      fun _ handling h => hafter handling.server h
  refine SameFrom.bind hbuild fun catalog => ?_
  have hupdate : SameFrom
      (fun handling => Inv handling.server ∧ ResourceCatalogWired engine catalog)
      (fun _ handling => After handling.server ∧ ResourceCatalogWired engine catalog ∧
        handling.server.resourceCatalog = some catalog)
      (fun _ handling => After handling.server)
      (update fun server : ServerState W => { server with resourceCatalog := some catalog })
      (update fun server => { server with resourceCatalog := some catalog }) := by
    refine .act (fun _ _ => rfl) fun handling hmid => ?_
    exact { value := fun _ _ => ⟨hstore handling.server catalog hmid.1 hmid.2, hmid.2, rfl⟩
            error := fun _ heq => by cases heq }
  exact SameFrom.bind hupdate fun _ => .pure fun _ h => h

theorem resourceCatalog_stored (hinv : CatalogInvariant engine Inv) (haccepted : Accepted crates engine)
    (hsame : SameConfigured engine.config plugins plugins') :
    SameFrom (fun handling => Inv handling.server)
      (fun catalog handling => Inv handling.server ∧ ResourceCatalogWired engine catalog ∧
        handling.server.resourceCatalog = some catalog)
      (fun _ handling => Inv handling.server)
      ((engine.withPlugins plugins).resourceCatalog env)
      ((engine.withPlugins plugins').resourceCatalog env) := by
  intro handling hstart
  have hserver : exec (server : Handler W (ServerState W)) handling =
    (.ok handling.server, handling) := rfl
  unfold Engine.resourceCatalog
  rw [exec_bind, exec_bind, hserver]
  dsimp only
  cases hstored : handling.server.resourceCatalog with
  | some existing =>
    have hwired := (hinv.wired handling.server hstart).resources existing hstored
    exact ⟨rfl, .ok ⟨hstart, hwired, hstored⟩⟩
  | none =>
    have hframe : Framed fun server : ServerState W => Inv server ∧ server.resourceCatalog = none := by
      intro before after hprompts hresources h
      exact ⟨hinv.framed before after hprompts hresources h.1, hresources.trans h.2⟩
    exact refreshResourceCatalog_stored hframe haccepted hsame (fun _ h => h.1)
      (fun before catalog h hwired => hinv.resources before catalog h.1 h.2 hwired) handling
      ⟨hstart, hstored⟩

theorem resourceCatalog_confined (hinv : CatalogInvariant engine Inv)
    (haccepted : Accepted crates engine) (hsame : SameConfigured engine.config plugins plugins') :
    Confined Inv (ResourceCatalogWired engine) ((engine.withPlugins plugins).resourceCatalog env)
      ((engine.withPlugins plugins').resourceCatalog env) :=
  (resourceCatalog_stored hinv haccepted hsame).mono (fun _ h => h) (fun _ _ h => ⟨h.1, h.2.1⟩)
    fun _ _ h => h

/-! ## Requests -/

theorem mem_of_indexed {T : Type} {index : Option ℕ} {entries : List T} {entry : T}
    (h : (index.bind fun position => entries[position]?) = some entry) : entry ∈ entries := by
  obtain ⟨position, -, hentry⟩ := Option.bind_eq_some_iff.mp h
  exact List.mem_of_getElem? hentry

theorem checkCancelled_confined (hframe : Framed Inv) (context : RequestContext) :
    Confined Inv (fun _ => True) (Engine.checkCancelled env context)
      (Engine.checkCancelled env context) := by
  unfold Engine.checkCancelled
  refine confined_bind (confined_observe hframe rfl) fun cancelled _ => ?_
  split
  · exact confined_throw _
  · exact confined_pure trivial

theorem handleListPromptsRequest_confined (hinv : CatalogInvariant engine Inv)
    (haccepted : Accepted crates engine)
    (hsame : SameConfigured engine.config plugins plugins') (context : RequestContext)
    (cursor : Option String) :
    Confined Inv (fun _ => True)
      ((engine.withPlugins plugins).handleListPromptsRequest env context cursor)
      ((engine.withPlugins plugins').handleListPromptsRequest env context cursor) := by
  refine confined_bind (checkCancelled_confined hinv.framed context) fun _ _ => ?_
  refine confined_bind (promptCatalog_confined hinv haccepted hsame) fun catalog _ => ?_
  refine confined_bind (confined_settle fun _ _ => trivial) fun page _ => ?_
  exact confined_pure trivial

theorem handleGetPromptRequest_confined (hinv : CatalogInvariant engine Inv)
    (haccepted : Accepted crates engine)
    (hsame : SameConfigured engine.config plugins plugins') (context : RequestContext)
    (promptName : String) (arguments : Option Map) :
    Confined Inv (fun _ => True)
      ((engine.withPlugins plugins).handleGetPromptRequest env context promptName arguments)
      ((engine.withPlugins plugins').handleGetPromptRequest env context promptName arguments) := by
  refine confined_bind (checkCancelled_confined hinv.framed context) fun _ _ => ?_
  refine confined_bind (promptCatalog_confined hinv haccepted hsame) fun catalog hcatalog => ?_
  cases hfound : catalog.lookup promptName with
  | none => exact confined_throw _
  | some selected =>
    have hwired := hcatalog.entries selected (mem_of_indexed hfound)
    refine confined_bind (confined_settle fun _ _ => trivial) fun _ _ => ?_
    cases hsource : selected.source with
    | inline messages =>
      refine confined_bind (confined_settle fun _ _ => trivial) fun rendered _ => ?_
      exact confined_pure trivial
    | plugin pluginName config =>
      have hallowed := hwired.source
      rw [hsource] at hallowed
      refine confined_bind (confined_lookup hsame hallowed) fun promptPlugin _ => ?_
      exact confined_ask hinv.framed _

theorem handleListResourcesRequest_confined (hinv : CatalogInvariant engine Inv)
    (haccepted : Accepted crates engine)
    (hsame : SameConfigured engine.config plugins plugins') (context : RequestContext)
    (cursor : Option String) :
    Confined Inv (fun _ => True)
      ((engine.withPlugins plugins).handleListResourcesRequest env context cursor)
      ((engine.withPlugins plugins').handleListResourcesRequest env context cursor) := by
  refine confined_bind (checkCancelled_confined hinv.framed context) fun _ _ => ?_
  refine confined_bind (resourceCatalog_confined hinv haccepted hsame) fun catalog _ => ?_
  refine confined_bind (confined_settle fun _ _ => trivial) fun page _ => ?_
  exact confined_pure trivial

/-- A match names a plugin only if it is allowed. -/
def ResourceMatch.Allowed (config : McpConfig) : ResourceMatch → Prop
  | .inlineResource _ _ | .inlineTemplate => True
  | .plugin pluginName _ => pluginName ∈ buildPluginAllowlist config .resource

theorem allowed_ofSource {config : McpConfig} {source : ResourceSource}
    (h : ResourceSource.Allowed config source) (mimeType : Option String) :
    ResourceMatch.Allowed config (.ofSource mimeType source) := by
  cases source with
  | inline content => trivial
  | plugin pluginName merged => exact h

theorem allowed_ofTemplate {config : McpConfig} {source : ResourceSource}
    (h : ResourceSource.Allowed config source) :
    ResourceMatch.Allowed config (.ofTemplate source) := by
  cases source with
  | inline content => trivial
  | plugin pluginName merged => exact h

theorem mem_of_matchTemplates {uri : String} {templates : List ResolvedResourceTemplate}
    {template : ResolvedResourceTemplate} {args : Map}
    (h : matchTemplates uri templates = some (template, args)) : template ∈ templates := by
  obtain ⟨found, hfound, hmatch⟩ := List.exists_of_findSome?_eq_some h
  obtain ⟨given, -, heq⟩ := Option.map_eq_some_iff.mp hmatch
  cases heq
  exact List.mem_reverse.mp hfound

theorem resolveResourceMatch_confined (hinv : CatalogInvariant engine Inv)
    (haccepted : Accepted crates engine)
    (hsame : SameConfigured engine.config plugins plugins') (uri : String) :
    Confined Inv (ResourceMatch.Allowed engine.config)
      ((engine.withPlugins plugins).resolveResourceMatch env uri)
      ((engine.withPlugins plugins').resolveResourceMatch env uri) := by
  refine confined_bind (resourceCatalog_confined hinv haccepted hsame) fun catalog hcatalog => ?_
  cases hfound : catalog.resourceByUri uri with
  | some selected =>
    refine confined_pure (allowed_ofSource ?_ _)
    exact hcatalog.resources selected (mem_of_indexed hfound)
  | none =>
    cases hmatch : matchTemplates uri catalog.templates with
    | none => exact confined_throw _
    | some matched =>
      obtain ⟨template, args⟩ := matched
      have hwired := hcatalog.templates template (mem_of_matchTemplates hmatch)
      refine confined_bind (confined_settle fun _ _ => trivial) fun _ _ => ?_
      exact confined_pure (allowed_ofTemplate hwired.source)

theorem handleReadResourceRequest_confined (hinv : CatalogInvariant engine Inv)
    (haccepted : Accepted crates engine)
    (hsame : SameConfigured engine.config plugins plugins') (context : RequestContext)
    (uri : String) :
    Confined Inv (fun _ => True)
      ((engine.withPlugins plugins).handleReadResourceRequest env context uri)
      ((engine.withPlugins plugins').handleReadResourceRequest env context uri) := by
  refine confined_bind (checkCancelled_confined hinv.framed context) fun _ _ => ?_
  refine confined_bind (resolveResourceMatch_confined hinv haccepted hsame uri) fun found hallowed => ?_
  cases found with
  | inlineResource mimeType content => exact confined_settle fun _ _ => trivial
  | inlineTemplate => exact confined_throw _
  | plugin pluginName config =>
    refine confined_bind (confined_lookup hsame hallowed) fun plugin _ => ?_
    exact confined_ask hinv.framed _

theorem completeFromSource_confined (hinv : CatalogInvariant engine Inv)
    (haccepted : Accepted crates engine)
    (hsame : SameConfigured engine.config plugins plugins') (context : RequestContext)
    (sourceName : String) (request : CompleteRequestParams) :
    Confined Inv (fun _ => True)
      ((engine.withPlugins plugins).completeFromSource env context sourceName request)
      ((engine.withPlugins plugins').completeFromSource env context sourceName request) := by
  unfold Engine.completeFromSource
  simp only [Engine.withPlugins_completionSources]
  cases hsource : engine.completionSources.lookup sourceName with
  | none => exact confined_throw _
  | some source =>
    cases source with
    | inline name values =>
      refine confined_bind (confined_settle fun _ _ => trivial) fun counted _ => ?_
      exact confined_check _
    | plugin name plugin sourceConfig =>
      have hallowed := haccepted.sources sourceName name plugin sourceConfig hsource
      refine confined_bind (confined_lookup hsame hallowed) fun completionPlugin _ => ?_
      refine confined_bind (confined_ask hinv.framed _) fun completion _ => ?_
      exact confined_check _

theorem completeArgument_confined (hinv : CatalogInvariant engine Inv)
    (haccepted : Accepted crates engine)
    (hsame : SameConfigured engine.config plugins plugins') (context : RequestContext)
    (argumentsSchema : Value) (completions : Option (HashMap String String)) (owner : String)
    (request : CompleteRequestParams) :
    Confined Inv (fun _ => True)
      ((engine.withPlugins plugins).completeArgument env context argumentsSchema completions owner
        request)
      ((engine.withPlugins plugins').completeArgument env context argumentsSchema completions owner
        request) := by
  refine confined_bind (confined_settle fun _ _ => trivial) fun _ _ => ?_
  cases completions.bind (·.lookup request.argumentName) with
  | none => exact confined_check _
  | some sourceName => exact completeFromSource_confined hinv haccepted hsame context sourceName request

theorem handleCompleteRequest_confined (hinv : CatalogInvariant engine Inv)
    (haccepted : Accepted crates engine)
    (hsame : SameConfigured engine.config plugins plugins') (context : RequestContext)
    (request : CompleteRequestParams) :
    Confined Inv (fun _ => True)
      ((engine.withPlugins plugins).handleCompleteRequest env context request)
      ((engine.withPlugins plugins').handleCompleteRequest env context request) := by
  refine confined_bind (checkCancelled_confined hinv.framed context) fun _ _ => ?_
  by_cases hactive : engine.config.completionActive = true
  · have hleft : (engine.withPlugins plugins).config.completionActive = true := hactive
    have hright : (engine.withPlugins plugins').config.completionActive = true := hactive
    rw [if_pos hleft, if_pos hright]
    unfold Engine.completeRequest
    cases request.ref with
    | prompt name =>
      refine confined_bind (promptCatalog_confined hinv haccepted hsame) fun catalog _ => ?_
      cases catalog.lookup name with
      | none => exact confined_throw _
      | some selected => exact completeArgument_confined hinv haccepted hsame context _ _ _ request
    | resource uri =>
      refine confined_bind (resourceCatalog_confined hinv haccepted hsame) fun catalog _ => ?_
      cases catalog.templateByUriTemplate uri with
      | none => exact confined_throw _
      | some selected => exact completeArgument_confined hinv haccepted hsame context _ _ _ request
  · have hleft : ¬(engine.withPlugins plugins).config.completionActive = true := hactive
    have hright : ¬(engine.withPlugins plugins').config.completionActive = true := hactive
    rw [if_neg hleft, if_neg hright]
    exact confined_throw _

/-! ## Tools and tasks -/

theorem executePluginTool_same (haccepted : Accepted crates engine)
    (hsame : SameConfigured engine.config plugins plugins') (outside : EngineOutside W)
    {name : String} {tool : ToolConfig} (htool : engine.toolMap.lookup name = some tool)
    (htype : tool.execute.executeType = .plugin) (args : Value) (request : Option RequestContext)
    (traffic : Traffic W) :
    (engine.withPlugins plugins).executePluginTool crates outside tool args request traffic =
      (engine.withPlugins plugins').executePluginTool crates outside tool args request traffic := by
  unfold Engine.executePluginTool
  cases hplugin : tool.execute.asPlugin with
  | none => rfl
  | some execute =>
    have hallowed := haccepted.tools name tool execute htool htype hplugin
    have hlookup : (engine.withPlugins plugins).lookupToolPlugin execute.plugin =
      (engine.withPlugins plugins').lookupToolPlugin execute.plugin := lookupPlugin_same hsame hallowed
    simp only [hlookup]
    rfl

theorem executeToolWithContext_same (haccepted : Accepted crates engine)
    (hsame : SameConfigured engine.config plugins plugins') (outside : EngineOutside W)
    (name : String) (args : Value) (request : Option RequestContext) (traffic : Traffic W) :
    (engine.withPlugins plugins).executeToolWithContext crates outside name args request traffic =
      (engine.withPlugins plugins').executeToolWithContext crates outside name args request
        traffic := by
  unfold Engine.executeToolWithContext
  simp only [Engine.withPlugins_toolMap]
  cases htool : engine.toolMap.lookup name with
  | none => rfl
  | some tool =>
    have hexecute : (engine.withPlugins plugins).executeToolConfig crates outside tool args request
        traffic = (engine.withPlugins plugins').executeToolConfig crates outside tool args request
        traffic := by
      unfold Engine.executeToolConfig
      cases htype : tool.execute.executeType with
      | http => rfl
      | plugin => exact executePluginTool_same haccepted hsame outside htool htype args request traffic
    simp only [hexecute]
    rfl

theorem executeTool_confined (hframe : Framed Inv) (haccepted : Accepted env.crates engine)
    (hsame : SameConfigured engine.config plugins plugins') (name : String) (args : Value)
    (request : Option RequestContext) :
    Confined Inv (fun _ => True) ((engine.withPlugins plugins).executeTool env name args request)
      ((engine.withPlugins plugins').executeTool env name args request) := by
  refine confined_observe hframe (funext fun world => ?_)
  rw [executeToolWithContext_same haccepted hsame]

theorem onTasks_confined {A : Type} (hframe : Framed Inv) (operation : TaskStoreInner → Section A) :
    Confined Inv (fun _ => True) (Engine.onTasks operation : Handler W A)
      (Engine.onTasks operation) := by
  refine confined_bind confined_server fun server _ => ?_
  refine confined_bind (confined_update fun other h => ?_) fun _ _ => confined_pure trivial
  exact hframe other _ rfl rfl h

theorem handleEnqueueTaskRequest_confined (hinv : CatalogInvariant engine Inv)
    (context : RequestContext) (platform : Platform)
    (name : String) (task : Option Map) (swept now : DateTime) :
    Confined Inv (fun _ => True)
      ((engine.withPlugins plugins).handleEnqueueTaskRequest env context platform name task swept now)
      ((engine.withPlugins plugins').handleEnqueueTaskRequest env context platform name task swept
        now) := by
  refine confined_bind (checkCancelled_confined hinv.framed context) fun _ _ => ?_
  refine confined_bind (confined_settle fun _ _ => trivial) fun _ _ => ?_
  simp only [Engine.withPlugins_toolMap]
  cases engine.toolMap.lookup name with
  | none => exact confined_throw _
  | some tool =>
    refine confined_bind (confined_settle fun _ _ => trivial) fun _ _ => ?_
    refine confined_bind (confined_settle fun _ _ => trivial) fun ttlMs _ => ?_
    refine confined_bind confined_server fun server _ => ?_
    refine confined_bind (confined_update fun other h => ?_) fun _ _ => ?_
    · exact hinv.framed other _ rfl rfl h
    · refine confined_bind (onTasks_confined hinv.framed _) fun created _ => ?_
      exact confined_pure trivial

theorem awaitTaskResult_confined (hframe : Framed Inv) (context : RequestContext) (taskId : String)
    (swept : DateTime) :
    Confined Inv (fun _ => True) (Engine.awaitTaskResult env context taskId swept)
      (Engine.awaitTaskResult env context taskId swept) := by
  refine confined_bind (onTasks_confined hframe _) fun found _ => ?_
  rcases found with ((_ | _) | (error | callResult)) | waiting
  · exact confined_throw _
  · exact confined_throw _
  · exact confined_bind (confined_check _) fun value _ => confined_pure trivial
  · exact confined_pure trivial

theorem handleGetTaskResultRequest_confined (hinv : CatalogInvariant engine Inv)
    (context : RequestContext) (taskId : String)
    (swept : DateTime) :
    Confined Inv (fun _ => True)
      ((engine.withPlugins plugins).handleGetTaskResultRequest env context taskId swept)
      ((engine.withPlugins plugins').handleGetTaskResultRequest env context taskId swept) := by
  refine confined_bind (checkCancelled_confined hinv.framed context) fun _ _ => ?_
  refine confined_bind (confined_settle fun _ _ => trivial) fun _ _ => ?_
  exact awaitTaskResult_confined hinv.framed context taskId swept

/-! ## The machine -/

theorem handleEvent_confined (hinv : CatalogInvariant engine Inv)
    (haccepted : Accepted env.crates engine)
    (hsame : SameConfigured engine.config plugins plugins') (platform : Platform) (event : Event) :
    Confined Inv (fun _ => True) ((engine.withPlugins plugins).handleEvent platform env event)
      ((engine.withPlugins plugins').handleEvent platform env event) := by
  cases event with
  | worker taskId name arguments context swept now =>
    have hrun : Confined Inv (fun _ => True)
        ((engine.withPlugins plugins).runTask env context platform taskId name arguments swept now)
        ((engine.withPlugins plugins').runTask env context platform taskId name arguments swept
          now) := by
      refine confined_bind (executeTool_confined hinv.framed haccepted hsame name _ _) fun result _ => ?_
      exact confined_bind (onTasks_confined hinv.framed _) fun _ _ => confined_pure trivial
    exact confined_bind hrun fun _ _ => confined_pure trivial
  | woken taskId swept context =>
    exact confined_map (awaitTaskResult_confined hinv.framed context taskId swept)
  | request request context =>
    refine confined_map ?_
    cases request with
    | callTool name arguments =>
      refine confined_map ?_
      refine confined_bind (executeTool_confined hinv.framed haccepted hsame name _ _) fun result _ => ?_
      exact confined_settle fun _ _ => trivial
    | enqueueTask name task swept now =>
      exact confined_map (handleEnqueueTaskRequest_confined hinv context platform name task swept now)
    | taskResult taskId swept => exact handleGetTaskResultRequest_confined hinv context taskId swept
    | getPrompt name arguments =>
      exact confined_map (handleGetPromptRequest_confined hinv haccepted hsame context name arguments)
    | listPrompts cursor =>
      exact confined_map (handleListPromptsRequest_confined hinv haccepted hsame context cursor)
    | readResource uri =>
      exact confined_map (handleReadResourceRequest_confined hinv haccepted hsame context uri)
    | listResources cursor =>
      exact confined_map (handleListResourcesRequest_confined hinv haccepted hsame context cursor)
    | complete request =>
      exact confined_map (handleCompleteRequest_confined hinv haccepted hsame context request)

end Handlers

section Servers
variable {W : Type} {Inv : ServerState W → Prop} {built : ServerEngine}
  {env : ServerEnvironment W} {platform : Platform} {plugins plugins' : PluginRegistry}

theorem applyResourceSubscription_confined
    (hinv : CatalogInvariant built.toEngine Inv) (haccepted : Accepted env.crates built.toEngine)
    (hsame : SameConfigured built.config plugins plugins') (context : RequestContext)
    (action : SubscriptionAction) (uri : String) :
    Confined Inv (fun _ => True)
      ((built.withPlugins plugins).applyResourceSubscription env context action uri)
      ((built.withPlugins plugins').applyResourceSubscription env context action uri) := by
  refine confined_bind (resolveResourceMatch_confined hinv haccepted hsame uri) fun found hallowed => ?_
  cases found with
  | inlineResource mimeType content => exact confined_pure trivial
  | inlineTemplate => exact confined_pure trivial
  | plugin pluginName config =>
    refine confined_bind (confined_lookup hsame hallowed) fun plugin _ => ?_
    exact confined_ask hinv.framed _

/-- An invariant that also allows the refreshes that happen is kept by every event. -/
theorem handleServerEvent_confined (hinv : CatalogInvariant built.toEngine Inv)
    (haccepted : Accepted env.crates built.toEngine)
    (hsame : SameConfigured built.config plugins plugins') (event : ServerEvent)
    (hprompts : event = .refreshPrompts → ∀ server catalog, Inv server →
      PromptCatalogWired built.toEngine catalog → Inv { server with promptCatalog := some catalog })
    (hresources : event = .refreshResources → ∀ server catalog, Inv server →
      ResourceCatalogWired built.toEngine catalog →
      Inv { server with resourceCatalog := some catalog }) :
    Confined Inv (fun _ => True) (built.handleServerEvent env platform plugins event)
      (built.handleServerEvent env platform plugins' event) := by
  cases event with
  | event event => exact confined_map (handleEvent_confined hinv haccepted hsame platform event)
  | listTools cursor context =>
    refine confined_map ?_
    refine confined_bind (checkCancelled_confined hinv.framed context) fun _ _ => ?_
    exact confined_bind (confined_settle fun _ _ => trivial) fun page _ => confined_pure trivial
  | listResourceTemplates cursor context =>
    refine confined_map ?_
    refine confined_bind (checkCancelled_confined hinv.framed context) fun _ _ => ?_
    refine confined_bind (resourceCatalog_confined hinv haccepted hsame) fun catalog _ => ?_
    exact confined_bind (confined_settle fun _ _ => trivial) fun page _ => confined_pure trivial
  | subscription action uri context =>
    have hsubscribe : Confined Inv (fun _ => True)
        (built.handleSubscriptionRequest env context plugins action uri)
        (built.handleSubscriptionRequest env context plugins' action uri) := by
      refine confined_bind (checkCancelled_confined hinv.framed context) fun _ _ => ?_
      split
      · exact applyResourceSubscription_confined hinv haccepted hsame context action uri
      · exact confined_throw _
    exact confined_bind hsubscribe fun _ _ => confined_pure trivial
  | listTasks cursor swept context =>
    refine confined_map ?_
    refine confined_bind (checkCancelled_confined hinv.framed context) fun _ _ => ?_
    refine confined_bind (confined_settle fun _ _ => trivial) fun _ _ => ?_
    refine confined_bind (onTasks_confined hinv.framed _) fun tasks _ => ?_
    exact confined_bind (confined_settle fun _ _ => trivial) fun page _ => confined_pure trivial
  | taskInfo taskId swept context =>
    refine confined_map ?_
    refine confined_bind (checkCancelled_confined hinv.framed context) fun _ _ => ?_
    refine confined_bind (confined_settle fun _ _ => trivial) fun _ _ => ?_
    refine confined_bind (onTasks_confined hinv.framed _) fun found _ => ?_
    cases found with
    | none => exact confined_throw _
    | some task => exact confined_pure trivial
  | setLevel level context =>
    refine confined_map (confined_bind (checkCancelled_confined hinv.framed context) fun _ _ => ?_)
    split
    · exact confined_observe hinv.framed rfl
    · exact confined_pure trivial
  | cancelTask taskId swept now context =>
    refine confined_map ?_
    refine confined_bind (checkCancelled_confined hinv.framed context) fun _ _ => ?_
    refine confined_bind (confined_settle fun _ _ => trivial) fun _ _ => ?_
    refine confined_bind (onTasks_confined hinv.framed _) fun cancelled _ => ?_
    refine confined_bind (confined_settle fun _ _ => trivial) fun told _ => ?_
    refine confined_bind (confined_observe hinv.framed rfl) fun sender _ => ?_
    exact confined_bind (confined_check _) fun _ _ => confined_pure trivial
  | refreshPrompts =>
    refine confined_map (SameFrom.map (refreshPromptCatalog_stored hinv.framed haccepted hsame
      (fun _ h => h) (hprompts rfl)) ?_)
    exact fun catalog _ hmid => ⟨hmid.1, trivial⟩
  | refreshResources =>
    refine confined_map (SameFrom.map (refreshResourceCatalog_stored hinv.framed haccepted hsame
      (fun _ h => h) (hresources rfl)) ?_)
    exact fun catalog _ hmid => ⟨hmid.1, trivial⟩

end Servers

end RustMcpCore.Dispatch
