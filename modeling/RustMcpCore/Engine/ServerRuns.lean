import RustMcpCore.Engine.Confinement
import RustMcpCore.Engine.ToolFailures

/-! # Runs of a server

What a server reaches and answers over its whole life: the plugins of the configuration are
all that it sees, each of them and each completion source is there when it is looked up, and
what a client was shown in a list is found again until that list is built anew.
-/
namespace RustMcpCore.Dispatch
open Library Fallible

section Runs
variable {W : Type} {features : Features} {rules : ToolRules} {engineConfig : EngineConfig}
  {built : ServerEngine} {env : ServerEnvironment W} {platform : Platform} {world : W}

/-! ## Steps -/

theorem newServer_wired (engine : Engine) : Wired engine (ServerEngine.newServer world) where
  prompts := fun _ heq => by cases heq
  resources := fun _ heq => by cases heq

theorem wired_storePrompts {engine : Engine} {server : ServerState W} {catalog : PromptCatalog}
    (h : Wired engine server) (hcatalog : PromptCatalogWired engine catalog) :
    Wired engine { server with promptCatalog := some catalog } where
  prompts := fun _ hstored => Option.some.inj hstored ▸ hcatalog
  resources := h.resources

theorem wired_storeResources {engine : Engine} {server : ServerState W} {catalog : ResourceCatalog}
    (h : Wired engine server) (hcatalog : ResourceCatalogWired engine catalog) :
    Wired engine { server with resourceCatalog := some catalog } where
  prompts := h.prompts
  resources := fun _ hstored => Option.some.inj hstored ▸ hcatalog

theorem wired_framed (engine : Engine) : Framed (Wired engine : ServerState W → Prop) := by
  intro server after hprompts hresources h
  refine ⟨fun catalog hstored => ?_, fun catalog hstored => ?_⟩
  · exact h.prompts catalog (hprompts.symm.trans hstored)
  · exact h.resources catalog (hresources.symm.trans hstored)

theorem wired_invariant (engine : Engine) :
    CatalogInvariant engine (Wired engine : ServerState W → Prop) where
  wired := fun _ h => h
  framed := wired_framed engine
  prompts := fun _ _ h _ hcatalog => wired_storePrompts h hcatalog
  resources := fun _ _ h _ hcatalog => wired_storeResources h hcatalog

/-- A wired server that has this prompt catalog. -/
def HoldsPrompts (engine : Engine) (catalog : PromptCatalog) (server : ServerState W) : Prop :=
  Wired engine server ∧ server.promptCatalog = some catalog

def HoldsResources (engine : Engine) (catalog : ResourceCatalog) (server : ServerState W) : Prop :=
  Wired engine server ∧ server.resourceCatalog = some catalog

theorem holdsPrompts_invariant (engine : Engine) (catalog : PromptCatalog) :
    CatalogInvariant engine (HoldsPrompts engine catalog : ServerState W → Prop) where
  wired := fun _ h => h.1
  framed := fun server after hprompts hresources h =>
    ⟨wired_framed engine server after hprompts hresources h.1, hprompts.trans h.2⟩
  prompts := fun _ _ h hnone _ => absurd (h.2.symm.trans hnone) (Option.some_ne_none catalog)
  resources := fun _ _ h _ hcatalog => ⟨wired_storeResources h.1 hcatalog, h.2⟩

theorem holdsResources_invariant (engine : Engine) (catalog : ResourceCatalog) :
    CatalogInvariant engine (HoldsResources engine catalog : ServerState W → Prop) where
  wired := fun _ h => h.1
  framed := fun server after hprompts hresources h =>
    ⟨wired_framed engine server after hprompts hresources h.1, hresources.trans h.2⟩
  prompts := fun _ _ h _ hcatalog => ⟨wired_storePrompts h.1 hcatalog, h.2⟩
  resources := fun _ _ h hnone _ => absurd (h.2.symm.trans hnone) (Option.some_ne_none catalog)

/-- The refreshes that an event makes keep the invariant. -/
structure RefreshKeeps (engine : Engine) (Inv : ServerState W → Prop) (event : ServerEvent) : Prop where
  prompts : event = .refreshPrompts → ∀ server catalog, Inv server →
    PromptCatalogWired engine catalog → Inv { server with promptCatalog := some catalog }
  resources : event = .refreshResources → ∀ server catalog, Inv server →
    ResourceCatalogWired engine catalog → Inv { server with resourceCatalog := some catalog }

theorem wired_refreshKeeps (engine : Engine) (event : ServerEvent) :
    RefreshKeeps engine (Wired engine : ServerState W → Prop) event where
  prompts := fun _ _ _ h hcatalog => wired_storePrompts h hcatalog
  resources := fun _ _ _ h hcatalog => wired_storeResources h hcatalog

theorem holdsPrompts_refreshKeeps {engine : Engine} {catalog : PromptCatalog} {event : ServerEvent}
    (h : event ≠ .refreshPrompts) :
    RefreshKeeps engine (HoldsPrompts engine catalog : ServerState W → Prop) event where
  prompts := fun hevent => absurd hevent h
  resources := fun _ _ _ hold hcatalog => ⟨wired_storeResources hold.1 hcatalog, hold.2⟩

theorem holdsResources_refreshKeeps {engine : Engine} {catalog : ResourceCatalog}
    {event : ServerEvent} (h : event ≠ .refreshResources) :
    RefreshKeeps engine (HoldsResources engine catalog : ServerState W → Prop) event where
  prompts := fun _ _ _ hold hcatalog => ⟨wired_storePrompts hold.1 hcatalog, hold.2⟩
  resources := fun hevent => absurd hevent h

/-- A step under two registries that have the same configured plugins. -/
theorem next_same {Inv : ServerState W → Prop} (hinv : CatalogInvariant built.toEngine Inv)
    (haccepted : Accepted env.crates built.toEngine) {server : ServerState W} (hserver : Inv server)
    {label label' : PluginRegistry × ServerEvent} (hevent : label.2 = label'.2)
    (hsame : SameConfigured built.config label.1 label'.1)
    (hrefresh : RefreshKeeps built.toEngine Inv label.2) :
    (built.machine env platform world).next server label =
        (built.machine env platform world).next server label' ∧
      ∀ after reply, (built.machine env platform world).next server label = some (after, reply) →
        Inv after := by
  have hconfined : Confined Inv (fun _ => True)
      (built.handleServerEvent env platform label.1 label.2)
      (built.handleServerEvent env platform label'.1 label.2) :=
    handleServerEvent_confined hinv haccepted hsame label.2 hrefresh.prompts hrefresh.resources
  obtain ⟨hexec, hends⟩ := hconfined ⟨server, []⟩ hserver
  refine ⟨?_, fun after reply hnext => ?_⟩
  · unfold ServerEngine.machine
    dsimp only
    rw [← hevent, hexec]
  · cases hnext
    cases hresult : (exec (built.handleServerEvent env platform label.1 label.2) ⟨server, []⟩).1 with
    | error error => exact hends.error error hresult
    | ok reply => exact (hends.value reply hresult).1

theorem step_keeps {Inv : ServerState W → Prop} (hinv : CatalogInvariant built.toEngine Inv)
    (haccepted : Accepted env.crates built.toEngine) {server after : ServerState W}
    {e : (PluginRegistry × ServerEvent) × Except McpError Reply}
    (hrefresh : RefreshKeeps built.toEngine Inv e.1.2) (hserver : Inv server)
    (hstep : (built.machine env platform world).Step server e after) : Inv after :=
  (next_same hinv haccepted hserver rfl (sameConfigured_refl built.config e.1.1) hrefresh).2 after e.2
    hstep

theorem runs_keep {Inv : ServerState W → Prop} (hinv : CatalogInvariant built.toEngine Inv)
    (haccepted : Accepted env.crates built.toEngine) {server after : ServerState W}
    {es : List ((PluginRegistry × ServerEvent) × Except McpError Reply)}
    (hr : Runs (built.machine env platform world).Step server es after)
    (hrefresh : ∀ e ∈ es, RefreshKeeps built.toEngine Inv e.1.2) (hserver : Inv server) :
    Inv after := by
  induction hr with
  | refl => exact hserver
  | @cons _ _ _ e rest hstep _ ih =>
    have hnext := step_keeps hinv haccepted (hrefresh e List.mem_cons_self) hserver hstep
    exact ih (fun f hf => hrefresh f (List.mem_cons_of_mem e hf)) hnext

/-! ## Confinement -/

/-- What is registered beside the plugins of the configuration changes no answer and no state, in
no run of the server, whatever is registered, replaced or removed there between the events. -/
theorem unconfigured_plugins_unseen
    (h : fromConfig features rules env.crates engineConfig = .ok built)
    {history history' : List (PluginRegistry × ServerEvent)}
    (hhistory : List.Forall₂ (fun label label' => label.2 = label'.2 ∧
      SameConfigured engineConfig.config label.1 label'.1) history history') :
    (built.machine env platform world).execute (ServerEngine.newServer world) history =
      (built.machine env platform world).execute (ServerEngine.newServer world) history' := by
  have hconstructed := fromConfig_constructed h
  rw [← hconstructed.config] at hhistory
  suffices main : ∀ server, Wired built.toEngine server →
      (built.machine env platform world).execute server history =
        (built.machine env platform world).execute server history' from
    main _ (newServer_wired built.toEngine)
  induction hhistory with
  | nil => exact fun _ _ => rfl
  | @cons label label' rest rest' hlabel _ ih =>
    intro server hwired
    have hstep : (built.machine env platform world).next server label =
          (built.machine env platform world).next server label' ∧
        ∀ after reply, (built.machine env platform world).next server label = some (after, reply) →
          Wired built.toEngine after :=
      next_same (wired_invariant built.toEngine) hconstructed.accepted hwired hlabel.1 hlabel.2
        (wired_refreshKeeps built.toEngine label.2)
    obtain ⟨hnext, hafter⟩ := hstep
    unfold Machine.execute
    rw [← hnext]
    cases hstep : (built.machine env platform world).next server label with
    | none => rfl
    | some stepped =>
      obtain ⟨after, reply⟩ := stepped
      rw [Option.bind_some, Option.bind_some, ih after (hafter after reply hstep)]

theorem reachable_wired (h : fromConfig features rules env.crates engineConfig = .ok built)
    {server : ServerState W} (hs : (built.machine env platform world).Reachable server) :
    Wired built.toEngine server := by
  obtain ⟨es, hr⟩ := hs
  refine runs_keep (wired_invariant built.toEngine) (fromConfig_constructed h).accepted hr ?_
    (newServer_wired built.toEngine)
  exact fun e _ => wired_refreshKeeps built.toEngine e.1.2

/-- Whatever a server can come to look up for the next event is there. -/
structure Resolves (engine : Engine) (plugins : PluginRegistry) (server : ServerState W) : Prop where
  tools : ∀ name tool execute, engine.toolMap.lookup name = some tool →
    tool.execute.executeType = .plugin → tool.execute.asPlugin = some execute →
    ∃ plugin, (engine.withPlugins plugins).lookupToolPlugin execute.plugin = .ok plugin
  promptProviders : ∀ pluginName config,
    .plugin pluginName config ∈ activePromptProviders engine.config →
    ∃ plugin, (engine.withPlugins plugins).lookupPromptPlugin pluginName = .ok plugin
  resourceProviders : ∀ pluginName config templates,
    .plugin pluginName config templates ∈ activeResourceProviders engine.config →
    ∃ plugin, (engine.withPlugins plugins).lookupResourcePlugin pluginName = .ok plugin
  prompts : ∀ catalog name entry pluginName config, server.promptCatalog = some catalog →
    catalog.lookup name = some entry → entry.source = .plugin pluginName config →
    ∃ plugin, (engine.withPlugins plugins).lookupPromptPlugin pluginName = .ok plugin
  resources : ∀ catalog uri resource pluginName config, server.resourceCatalog = some catalog →
    catalog.resourceByUri uri = some resource → resource.source = .plugin pluginName config →
    ∃ plugin, (engine.withPlugins plugins).lookupResourcePlugin pluginName = .ok plugin
  templates : ∀ catalog uri template args pluginName config, server.resourceCatalog = some catalog →
    matchTemplates uri catalog.templates = some (template, args) →
    template.source = .plugin pluginName config →
    ∃ plugin, (engine.withPlugins plugins).lookupResourcePlugin pluginName = .ok plugin
  promptArguments : ∀ catalog name entry mapping argument sourceName,
    engine.config.completionActive = true → server.promptCatalog = some catalog →
    catalog.lookup name = some entry → entry.completions = some mapping →
    mapping.lookup argument = some sourceName →
    ∃ source, engine.completionSources.lookup sourceName = some source
  templateArguments : ∀ catalog uriTemplate template mapping argument sourceName,
    engine.config.completionActive = true → server.resourceCatalog = some catalog →
    catalog.templateByUriTemplate uriTemplate = some template → template.completions = some mapping →
    mapping.lookup argument = some sourceName →
    ∃ source, engine.completionSources.lookup sourceName = some source
  sources : ∀ sourceName name plugin config,
    engine.completionSources.lookup sourceName = some (.plugin name plugin config) →
    ∃ found, (engine.withPlugins plugins).lookupCompletionPlugin plugin = .ok found

theorem lookup_of_registered {engine : Engine} {plugins : PluginRegistry} {pluginType : PluginType}
    {name : String} (hregistered : Registered engine.config plugins)
    (htype : PluginType.dispatched pluginType = true)
    (hname : name ∈ buildPluginAllowlist engine.config pluginType) :
    ∃ plugin, (engine.withPlugins plugins).lookupPlugin pluginType name = .ok plugin := by
  obtain ⟨plugin, hplugin⟩ :=
    Option.isSome_iff_exists.mp (hregistered pluginType htype name hname)
  refine ⟨plugin, ?_⟩
  unfold Engine.lookupPlugin Engine.withPlugins
  dsimp only
  rw [hplugin]

theorem mem_values_of_lookup {K V : Type} [DecidableEq K] {mapping : HashMap K V} {key : K} {value : V}
    (h : mapping.lookup key = some value) : value ∈ mapping.values :=
  List.mem_map_of_mem (HashMap.lookup_eq_some_iff.mp h)

/-- The checks at the start are enough: in every state that a server reaches, whatever its plugins
have listed by then, no handler meets a plugin or a completion source that is missing, as long as
the host leaves the configured plugins registered. -/
theorem reachable_resolves (h : fromConfig features rules env.crates engineConfig = .ok built)
    {server : ServerState W} (hs : (built.machine env platform world).Reachable server)
    {plugins : PluginRegistry} (hregistered : Registered engineConfig.config plugins) :
    Resolves built.toEngine plugins server := by
  have hwired := reachable_wired h hs
  obtain ⟨hconfig, -, haccepted, -, -⟩ := fromConfig_constructed h
  rw [← hconfig] at hregistered
  constructor
  case tools =>
    intro name tool execute htool htype hplugin
    exact lookup_of_registered hregistered rfl (haccepted.tools name tool execute htool htype hplugin)
  case promptProviders =>
    intro pluginName config hprovider
    exact lookup_of_registered hregistered rfl (haccepted.prompts pluginName config hprovider)
  case resourceProviders =>
    intro pluginName config templates hprovider
    exact lookup_of_registered hregistered rfl
      (haccepted.resources pluginName config templates hprovider)
  case prompts =>
    intro catalog name entry pluginName config hcatalog hfound hsource
    have hentry := (hwired.prompts catalog hcatalog).entries entry (mem_of_indexed hfound)
    have hallowed := hentry.source
    rw [hsource] at hallowed
    exact lookup_of_registered hregistered rfl hallowed
  case resources =>
    intro catalog uri resource pluginName config hcatalog hfound hsource
    have hallowed := (hwired.resources catalog hcatalog).resources resource (mem_of_indexed hfound)
    rw [hsource] at hallowed
    exact lookup_of_registered hregistered rfl hallowed
  case templates =>
    intro catalog uri template args pluginName config hcatalog hfound hsource
    have htemplate :=
      (hwired.resources catalog hcatalog).templates template (mem_of_matchTemplates hfound)
    have hallowed := htemplate.source
    rw [hsource] at hallowed
    exact lookup_of_registered hregistered rfl hallowed
  case promptArguments =>
    intro catalog name entry mapping argument sourceName hactive hcatalog hfound hmapping hsource
    have hentry := (hwired.prompts catalog hcatalog).entries entry (mem_of_indexed hfound)
    have hdefined := hentry.completions hactive mapping hmapping sourceName
    exact Option.isSome_iff_exists.mp (hdefined (mem_values_of_lookup hsource))
  case templateArguments =>
    intro catalog uriTemplate template mapping argument sourceName hactive hcatalog hfound hmapping
      hsource
    have htemplate := (hwired.resources catalog hcatalog).templates template (mem_of_indexed hfound)
    have hdefined := htemplate.completions hactive mapping hmapping sourceName
    exact Option.isSome_iff_exists.mp (hdefined (mem_values_of_lookup hsource))
  case sources =>
    intro sourceName name plugin config hsource
    exact lookup_of_registered hregistered rfl (haccepted.sources sourceName name plugin config hsource)

end Runs

/-! ## What was listed is found -/

namespace Engine
variable (engine : Engine) {W : Type} (env : Environment W) (context : RequestContext)

/-- `prompts/get` once the prompt is found. -/
def servePrompt (selected : ResolvedPrompt) (promptName : String) (args : Map) :
    Handler W GetPromptResult := do
  settle (validateSchemaArgs env.crates.schemas selected.argumentsSchema args "prompt" promptName)
  match selected.source with
  | .inline messages =>
    let rendered ←
      settle (renderPromptMessages env.crates.models env.crates.json messages (.object args))
    return { description := selected.prompt.description, messages := rendered }
  | .plugin pluginName config =>
    let promptPlugin ← settle (engine.lookupPromptPlugin pluginName)
    let ctx := engine.buildPluginContext (some context)
    ask (env.outside.getPrompt promptPlugin promptName (.object args) { config, ctx })

/-- `resources/read` once the URI is found. -/
def serveResource (selected : ResolvedResource) (uri : String) : Handler W ReadResourceResult :=
  match ResourceMatch.ofSource selected.resource.raw.mimeType selected.source with
  | .inlineResource mimeType content => settle (readInlineResource uri mimeType content)
  | .inlineTemplate => throw (resourceNotFound uri)
  | .plugin pluginName config => engine.callResourcePluginRead env pluginName config uri (some context)

end Engine

section Listed
variable {W : Type} {env : Environment W} {engine : Engine} {plugins : PluginRegistry}

theorem ends_any {S E A : Type} (out : Except E A × S) :
    Finishes (fun _ _ => True) (fun _ _ => True) out := ⟨fun _ _ => trivial, fun _ _ => trivial⟩

theorem exec_promptCatalog {handling : Handling W} {catalog : PromptCatalog}
    (h : handling.server.promptCatalog = some catalog) :
    exec (engine.promptCatalog env) handling = (.ok catalog, handling) := by
  have hserver : exec (server : Handler W (ServerState W)) handling =
    (.ok handling.server, handling) := rfl
  unfold Engine.promptCatalog
  rw [exec_bind, hserver]
  simp only [h, exec_pure]

theorem exec_resourceCatalog {handling : Handling W} {catalog : ResourceCatalog}
    (h : handling.server.resourceCatalog = some catalog) :
    exec (engine.resourceCatalog env) handling = (.ok catalog, handling) := by
  have hserver : exec (server : Handler W (ServerState W)) handling =
    (.ok handling.server, handling) := rfl
  unfold Engine.resourceCatalog
  rw [exec_bind, hserver]
  simp only [h, exec_pure]

/-- A list of prompts has entries of the catalog that the server has from then on. -/
theorem handleListPromptsRequest_lists (plugins : PluginRegistry)
    (haccepted : Accepted env.crates engine) (context : RequestContext) (cursor : Option String) :
    Triple (fun handling => Wired engine handling.server)
      (fun result handling => ∃ catalog, HoldsPrompts engine catalog handling.server ∧
        ∀ prompt ∈ result.prompts, prompt ∈ catalog.prompts)
      (fun _ _ => True)
      ((engine.withPlugins plugins).handleListPromptsRequest env context cursor) := by
  have hsame := sameConfigured_refl engine.config plugins
  refine SameFrom.bind ((checkCancelled_confined (wired_framed engine) context).mono (fun _ h => h)
    (fun _ _ h => h) fun _ _ _ => trivial) fun _ => ?_
  refine SameFrom.bind (((promptCatalog_stored (wired_invariant engine) haccepted hsame)).mono
    (fun _ h => h.1) (fun _ _ h => h) fun _ _ _ => trivial) fun catalog => ?_
  refine SameFrom.lift_bind (fun page hpage => ?_) fun _ _ _ _ => trivial
  refine .pure fun handling h => ⟨catalog, ⟨h.1, h.2.2⟩, fun prompt hprompt => ?_⟩
  exact mem_of_pageOf env.crates.base64 hpage hprompt

theorem handleListResourcesRequest_lists (plugins : PluginRegistry)
    (haccepted : Accepted env.crates engine) (context : RequestContext) (cursor : Option String) :
    Triple (fun handling => Wired engine handling.server)
      (fun result handling => ∃ catalog, HoldsResources engine catalog handling.server ∧
        ∀ resource ∈ result.resources, resource ∈ catalog.resourcesPayload)
      (fun _ _ => True)
      ((engine.withPlugins plugins).handleListResourcesRequest env context cursor) := by
  have hsame := sameConfigured_refl engine.config plugins
  refine SameFrom.bind ((checkCancelled_confined (wired_framed engine) context).mono (fun _ h => h)
    (fun _ _ h => h) fun _ _ _ => trivial) fun _ => ?_
  refine SameFrom.bind ((resourceCatalog_stored (wired_invariant engine) haccepted hsame).mono
    (fun _ h => h.1) (fun _ _ h => h) fun _ _ _ => trivial) fun catalog => ?_
  refine SameFrom.lift_bind (fun page hpage => ?_) fun _ _ _ _ => trivial
  refine .pure fun handling h => ⟨catalog, ⟨h.1, h.2.2⟩, fun resource hresource => ?_⟩
  exact mem_of_pageOf env.crates.base64 hpage hresource

theorem handleGetPromptRequest_serves {catalog : PromptCatalog} {promptName : String}
    {entry : ResolvedPrompt} (hfound : catalog.lookup promptName = some entry)
    (context : RequestContext) (arguments : Option Map) :
    SameFrom (fun handling => HoldsPrompts engine catalog handling.server)
      (fun _ _ => True) (fun _ _ => True)
      ((engine.withPlugins plugins).handleGetPromptRequest env context promptName arguments)
      (do
        Engine.checkCancelled env context
        (engine.withPlugins plugins).servePrompt env context entry promptName (arguments.getD [])) := by
  refine SameFrom.bind ((checkCancelled_confined (holdsPrompts_invariant engine catalog).framed
    context).mono (fun _ h => h) (fun _ _ h => h) fun _ _ _ => trivial) fun _ => ?_
  intro handling h
  rw [exec_bind, exec_promptCatalog h.1.2]
  dsimp only
  rw [hfound]
  exact ⟨rfl, ends_any _⟩

theorem handleReadResourceRequest_serves {catalog : ResourceCatalog} {uri : String}
    {resource : ResolvedResource} (hfound : catalog.resourceByUri uri = some resource)
    (context : RequestContext) :
    SameFrom (fun handling => HoldsResources engine catalog handling.server)
      (fun _ _ => True) (fun _ _ => True)
      ((engine.withPlugins plugins).handleReadResourceRequest env context uri)
      (do
        Engine.checkCancelled env context
        (engine.withPlugins plugins).serveResource env context resource uri) := by
  refine SameFrom.bind ((checkCancelled_confined (holdsResources_invariant engine catalog).framed
    context).mono (fun _ h => h) (fun _ _ h => h) fun _ _ _ => trivial) fun _ => ?_
  intro handling h
  have hmatch : exec ((engine.withPlugins plugins).resolveResourceMatch env uri) handling =
      (.ok (.ofSource resource.resource.raw.mimeType resource.source), handling) := by
    unfold Engine.resolveResourceMatch
    rw [exec_bind, exec_resourceCatalog h.1.2]
    dsimp only
    rw [hfound]
    rfl
  rw [exec_bind, hmatch]
  exact ⟨rfl, ends_any _⟩

end Listed

section Found
variable {W : Type} (built : ServerEngine) (env : ServerEnvironment W) (platform : Platform) (world : W)

/-- A prompt that a client was shown is served whenever it is asked for, until the prompts are
built anew: always one entry, which has its name. -/
def PromptsStayFound : Prop :=
  ∀ before after plugins cursor context result,
    (built.machine env platform world).Reachable before →
    (built.machine env platform world).Step before
      ((plugins, .event (.request (.listPrompts cursor) context)),
        .ok (.handled (some (.prompts result)))) after →
    ∀ prompt ∈ result.prompts, ∃ entry : ResolvedPrompt, entry.prompt.name = prompt.name ∧
      ∀ later es, Runs (built.machine env platform world).Step after es later →
        (∀ e ∈ es, e.1.2 ≠ ServerEvent.refreshPrompts) →
        ∀ (plugins' : PluginRegistry) (context' : RequestContext) (arguments : Option Map),
          exec ((built.withPlugins plugins').handleGetPromptRequest env.toEnvironment context'
              prompt.name arguments) ⟨later, []⟩ =
            exec (do
              Engine.checkCancelled env.toEnvironment context'
              (built.withPlugins plugins').servePrompt env.toEnvironment context' entry prompt.name
                (arguments.getD [])) ⟨later, []⟩

def ResourcesStayFound : Prop :=
  ∀ before after plugins cursor context result,
    (built.machine env platform world).Reachable before →
    (built.machine env platform world).Step before
      ((plugins, .event (.request (.listResources cursor) context)),
        .ok (.handled (some (.resources result)))) after →
    ∀ resource ∈ result.resources,
    ∃ found : ResolvedResource, found.resource.raw.uri = resource.raw.uri ∧
      ∀ later es, Runs (built.machine env platform world).Step after es later →
        (∀ e ∈ es, e.1.2 ≠ ServerEvent.refreshResources) →
        ∀ (plugins' : PluginRegistry) (context' : RequestContext),
          exec ((built.withPlugins plugins').handleReadResourceRequest env.toEnvironment context'
              resource.raw.uri) ⟨later, []⟩ =
            exec (do
              Engine.checkCancelled env.toEnvironment context'
              (built.withPlugins plugins').serveResource env.toEnvironment context' found
                resource.raw.uri) ⟨later, []⟩

variable {built env platform world} {features : Features} {rules : ToolRules}
  {engineConfig : EngineConfig}

theorem step_event {before after : ServerState W} {plugins : PluginRegistry} {event : Event}
    {payload : Payload}
    (h : (built.machine env platform world).Step before
      ((plugins, .event event), .ok (.handled (some payload))) after) :
    (exec ((built.withPlugins plugins).handleEvent platform env.toEnvironment event)
        ⟨before, []⟩).1 = .ok (some payload) ∧
      (exec ((built.withPlugins plugins).handleEvent platform env.toEnvironment event)
        ⟨before, []⟩).2.server = after := by
  have hexec : exec (built.handleServerEvent env platform plugins (.event event)) ⟨before, []⟩ = _ :=
    exec_map _ _ _
  unfold Machine.Step ServerEngine.machine at h
  dsimp only at h
  rw [hexec] at h
  obtain ⟨hafter, hreply⟩ := Prod.mk.inj (Option.some.inj h)
  obtain ⟨given, hgiven, hpayload⟩ := except_map_eq_ok hreply
  cases hpayload
  exact ⟨hgiven, hafter⟩

theorem step_request {before after : ServerState W} {plugins : PluginRegistry} {request : Request}
    {context : RequestContext} {payload : Payload}
    (h : (built.machine env platform world).Step before
      ((plugins, .event (.request request context)), .ok (.handled (some payload))) after) :
    (exec ((built.withPlugins plugins).handle platform env.toEnvironment context request)
        ⟨before, []⟩).1 = .ok payload ∧
      (exec ((built.withPlugins plugins).handle platform env.toEnvironment context request)
        ⟨before, []⟩).2.server = after := by
  obtain ⟨hgiven, hafter⟩ := step_event h
  rw [Engine.handleEvent, exec_map] at hgiven hafter
  obtain ⟨found, hfound, hsome⟩ := except_map_eq_ok hgiven
  cases hsome
  exact ⟨hfound, hafter⟩

theorem step_woken {before after : ServerState W} {plugins : PluginRegistry} {taskId : String}
    {swept : DateTime} {context : RequestContext} {payload : Payload}
    (h : (built.machine env platform world).Step before
      ((plugins, .event (.woken taskId swept context)), .ok (.handled (some payload))) after) :
    (exec (Engine.awaitTaskResult env.toEnvironment context taskId swept) ⟨before, []⟩).1 =
      .ok payload := by
  obtain ⟨hgiven, -⟩ := step_event h
  rw [Engine.handleEvent, exec_map] at hgiven
  obtain ⟨found, hfound, hsome⟩ := except_map_eq_ok hgiven
  cases hsome
  exact hfound

theorem prompts_stay_found (h : fromConfig features rules env.crates engineConfig = .ok built) :
    PromptsStayFound built env platform world := by
  intro before after plugins cursor context result hbefore hlist prompt hprompt
  have haccepted := (fromConfig_constructed h).accepted
  obtain ⟨hlisted, hserver⟩ := step_request hlist
  rw [Engine.handle, exec_map] at hlisted hserver
  obtain ⟨listed, hlisted, hresult⟩ := except_map_eq_ok hlisted
  cases hresult
  have hends := handleListPromptsRequest_lists plugins haccepted context cursor ⟨before, []⟩
    (reachable_wired h hbefore)
  obtain ⟨catalog, hafter, hin⟩ := hends.2.value result hlisted
  rw [hserver] at hafter
  obtain ⟨given, hgiven, rfl⟩ := List.mem_map.mp (hin prompt hprompt)
  have hindex := (hafter.1.prompts catalog hafter.2).index
  obtain ⟨entry, hfound, -, hname⟩ := exists_indexed hgiven
  refine ⟨entry, hname, fun later es hr hes plugins' context' arguments => ?_⟩
  have hlater : HoldsPrompts built.toEngine catalog later :=
    runs_keep (holdsPrompts_invariant built.toEngine catalog) haccepted hr
      (fun e he => holdsPrompts_refreshKeeps (hes e he)) hafter
  have hlookup : catalog.lookup given.prompt.name = some entry := by
    rw [hindex]
    exact hfound
  exact (handleGetPromptRequest_serves hlookup context' arguments ⟨later, []⟩ hlater).1

theorem resources_stay_found (h : fromConfig features rules env.crates engineConfig = .ok built) :
    ResourcesStayFound built env platform world := by
  intro before after plugins cursor context result hbefore hlist resource hresource
  have haccepted := (fromConfig_constructed h).accepted
  obtain ⟨hlisted, hserver⟩ := step_request hlist
  rw [Engine.handle, exec_map] at hlisted hserver
  obtain ⟨listed, hlisted, hresult⟩ := except_map_eq_ok hlisted
  cases hresult
  have hends := handleListResourcesRequest_lists plugins haccepted context cursor ⟨before, []⟩
    (reachable_wired h hbefore)
  obtain ⟨catalog, hafter, hin⟩ := hends.2.value result hlisted
  rw [hserver] at hafter
  obtain ⟨given, hgiven, rfl⟩ := List.mem_map.mp (hin resource hresource)
  have hindex := (hafter.1.resources catalog hafter.2).index
  obtain ⟨entry, hfound, -, huri⟩ := exists_indexed hgiven
  refine ⟨entry, huri, fun later es hr hes plugins' context' => ?_⟩
  have hlater : HoldsResources built.toEngine catalog later :=
    runs_keep (holdsResources_invariant built.toEngine catalog) haccepted hr
      (fun e he => holdsResources_refreshKeeps (hes e he)) hafter
  have hlookup : catalog.resourceByUri given.resource.raw.uri = some entry := by
    rw [hindex]
    exact hfound
  exact (handleReadResourceRequest_serves hlookup context' ⟨later, []⟩ hlater).1

end Found

/-! ## A shelf of notes -/

namespace Shelf

def config : McpConfig :=
  { McpConfig.empty with
    prompts := some
      { enabled := none
        notifyListChanged := false
        providers := [.plugin "notes" none] }
    plugins := [⟨"notes", .prompt, none, none⟩] }

def plugins : PluginRegistry :=
  ⟨fun pluginType => if pluginType = .prompt then AList.singleton "notes" ⟨"notes", 0⟩ else ∅, {"notes"}⟩

/-- The same with a tool plugin that the configuration does not name. -/
def crowded : PluginRegistry :=
  plugins.setPlugins .tool (AList.singleton "shell" ⟨"shell", 0⟩)

def built : ServerEngine where
  config := config
  toolMap := ∅
  plugins := plugins
  completionSources := ∅
  tools := []
  clientsCanSubscribe := false

def note : PromptEntry where
  prompt := { name := "note", title := none, description := none, arguments := none, icons := none }
  argumentsSchema := .object []
  completions := none

def env : ServerEnvironment Unit where
  crates := Greeting.crates
  outside := { Greeting.outside with listPrompts := fun _ _ world => (.ok [note], world) }
  subscribe _ _ _ world := (.ok (), world)
  unsubscribe _ _ _ world := (.ok (), world)
  sender world := (⟨fun _ => .ok .null, fun _ _ => .ok ()⟩, world)
  setMinLevel _ world := world

def platform : Platform := ⟨fun _ => "", fun _ => ""⟩

def context : RequestContext := ⟨0, 0, "peer"⟩

theorem fromConfig_built :
    fromConfig .full anyTool env.crates ⟨config, plugins, false⟩ = .ok built := rfl

theorem sameConfigured_crowded : SameConfigured config plugins crowded := by
  intro pluginType name hname
  cases pluginType with
  | prompt => rfl
  | tool | auth | httpRouter | completion | resource => cases hname

theorem registered_crowded : Registered config crowded := by
  intro pluginType hdispatched name hname
  cases pluginType with
  | prompt =>
    rw [List.mem_singleton.mp hname]
    rfl
  | tool | auth | httpRouter | completion | resource => cases hname

end Shelf

theorem unconfigured_plugins_unseen_shelf :
    (Shelf.built.machine Shelf.env Shelf.platform ()).execute (ServerEngine.newServer ())
        [(Shelf.plugins, .listTools none Shelf.context),
          (Shelf.plugins, .event (.request (.listPrompts none) Shelf.context))] =
      (Shelf.built.machine Shelf.env Shelf.platform ()).execute (ServerEngine.newServer ())
        [(Shelf.crowded, .listTools none Shelf.context),
          (Shelf.crowded, .event (.request (.listPrompts none) Shelf.context))] :=
  unconfigured_plugins_unseen Shelf.fromConfig_built
    (.cons ⟨rfl, Shelf.sameConfigured_crowded⟩ (.cons ⟨rfl, Shelf.sameConfigured_crowded⟩ .nil))

theorem reachable_resolves_shelf :
    ∃ server, (Shelf.built.machine Shelf.env Shelf.platform ()).Reachable server ∧
      server.promptCatalog.isSome = true ∧ Resolves Shelf.built.toEngine Shelf.crowded server := by
  have hexecute : (Shelf.built.machine Shelf.env Shelf.platform ()).execute
      (ServerEngine.newServer ()) [(Shelf.plugins, .refreshPrompts)] = some (_, _) := rfl
  have hs := Machine.reachable_of_runs (Machine.runs_of_execute hexecute)
  exact ⟨_, hs, rfl, reachable_resolves Shelf.fromConfig_built hs Shelf.registered_crowded⟩

end RustMcpCore.Dispatch
