import RustMcpCore.Plugins.Registry

/-! # The names of the plugin registry

The seven collections of a registry change together. Each shape of method says once when
it succeeds and what it leaves, and the invariant of every run follows from that.
-/
namespace RustMcpCore.PluginRegistry
open Library
variable {registry : PluginRegistry} {pluginType : PluginType}

/-- The set of all names is the union of the names of the types, and no two types share
a name. -/
structure Consistent (registry : PluginRegistry) : Prop where
  union : ∀ name, name ∈ registry.allNames ↔ ∃ pluginType, name ∈ registry.plugins pluginType
  disjoint : ∀ {name : String} {pluginType other : PluginType},
    name ∈ registry.plugins pluginType → name ∈ registry.plugins other → pluginType = other

theorem new_consistent : new.Consistent where
  union name := by simp [new]
  disjoint hname := absurd hname (AList.notMem_empty _)

theorem getPlugin_isSome {name : String} :
    (registry.getPlugin pluginType name).isSome ↔ name ∈ registry.plugins pluginType :=
  AList.lookup_isSome

theorem mem_setPlugins {plugins : HashMap String Plugin} {other : PluginType} {name : String} :
    name ∈ (registry.setPlugins pluginType plugins).plugins other ↔
      if other = pluginType then name ∈ plugins else name ∈ registry.plugins other := by
  by_cases hother : other = pluginType
  · subst hother
    simp [setPlugins]
  · simp [setPlugins, hother]

/-! ## What the methods do -/

theorem register_eq_ok {plugin : Plugin} {r : PluginRegistry × Option RegistryEvent} :
    registry.register pluginType plugin = .ok r ↔
      plugin.name ∉ registry.allNames ∧ r =
        ({ registry.setPlugins pluginType
            ((registry.plugins pluginType).insert plugin.name plugin) with
          allNames := insert plugin.name registry.allNames }, emitTypeEvent pluginType) := by
  unfold register checkNameAvailable
  by_cases hname : plugin.name ∈ registry.allNames
  · rw [if_pos hname]
    exact iff_of_false (fun h => by cases h) fun h => h.1 hname
  · rw [if_neg hname]
    constructor
    · intro h
      cases h
      exact ⟨hname, rfl⟩
    · rintro ⟨_, rfl⟩
      rfl

theorem unregister_eq_ok {name : String} {r : PluginRegistry × Option RegistryEvent} :
    registry.unregister pluginType name = .ok r ↔
      name ∈ registry.plugins pluginType ∧ r =
        ({ registry.setPlugins pluginType ((registry.plugins pluginType).erase name) with
          allNames := registry.allNames.erase name }, emitTypeEvent pluginType) := by
  unfold unregister
  split
  · rename_i hnone
    exact iff_of_false (fun h => by cases h) fun h => AList.lookup_eq_none.mp hnone h.1
  · rename_i plugin hsome
    have hname : name ∈ registry.plugins pluginType :=
      AList.lookup_isSome.mp (Option.isSome_of_eq_some hsome)
    constructor
    · intro h
      cases h
      exact ⟨hname, rfl⟩
    · rintro ⟨_, rfl⟩
      rfl

theorem replace_eq_ok {plugin : Plugin} {r : PluginRegistry × Option RegistryEvent} :
    registry.replace pluginType plugin = .ok r ↔
      plugin.name ∈ registry.plugins pluginType ∧ r =
        (registry.setPlugins pluginType
          ((registry.plugins pluginType).insert plugin.name plugin), emitTypeEvent pluginType) := by
  unfold replace checkNameForReplace
  by_cases hname : plugin.name ∈ registry.plugins pluginType
  · rw [if_pos (AList.lookup_isSome.mpr hname)]
    constructor
    · intro h
      cases h
      exact ⟨hname, rfl⟩
    · rintro ⟨_, rfl⟩
      rfl
  · rw [if_neg (mt AList.lookup_isSome.mp hname)]
    refine iff_of_false (fun h => ?_) fun h => hname h.1
    split at h <;> cases h

theorem getPlugin_setPlugins {plugins : HashMap String Plugin} {other : PluginType} {name : String} :
    (registry.setPlugins pluginType plugins).getPlugin other name =
      if other = pluginType then plugins.lookup name else registry.getPlugin other name := by
  by_cases hother : other = pluginType
  · subst hother
    simp [getPlugin, setPlugins]
  · simp [getPlugin, setPlugins, hother]

/-- A plugin that is put in is found under its name, and everything else as before. -/
theorem getPlugin_insert {plugin : Plugin} {other : PluginType} {name : String} :
    (registry.setPlugins pluginType
        ((registry.plugins pluginType).insert plugin.name plugin)).getPlugin other name =
      if other = pluginType ∧ name = plugin.name then some plugin
      else registry.getPlugin other name := by
  rw [getPlugin_setPlugins]
  by_cases hother : other = pluginType
  · subst hother
    by_cases hname : name = plugin.name
    · rw [if_pos rfl, if_pos ⟨rfl, hname⟩, hname, AList.lookup_insert]
    · rw [if_pos rfl, if_neg fun h => hname h.2, AList.lookup_insert_ne hname]
      rfl
  · rw [if_neg hother, if_neg fun h => hother h.1]

theorem getPlugin_erase {erased name : String} {other : PluginType} :
    (registry.setPlugins pluginType
        ((registry.plugins pluginType).erase erased)).getPlugin other name =
      if other = pluginType ∧ name = erased then none else registry.getPlugin other name := by
  rw [getPlugin_setPlugins]
  by_cases hother : other = pluginType
  · subst hother
    by_cases hname : name = erased
    · rw [if_pos rfl, if_pos ⟨rfl, hname⟩, hname, AList.lookup_erase]
    · rw [if_pos rfl, if_neg fun h => hname h.2, AList.lookup_erase_ne hname]
      rfl
  · rw [if_neg hother, if_neg fun h => hother h.1]

/-! ## What the methods keep -/

theorem register_consistent {plugin : Plugin} {r : PluginRegistry × Option RegistryEvent}
    (hregistry : registry.Consistent) (h : registry.register pluginType plugin = .ok r) :
    r.1.Consistent := by
  obtain ⟨hfree, rfl⟩ := register_eq_ok.mp h
  have hmem : ∀ name other, name ∈ (registry.setPlugins pluginType
      ((registry.plugins pluginType).insert plugin.name plugin)).plugins other ↔
        (name = plugin.name ∧ other = pluginType) ∨ name ∈ registry.plugins other := by
    intro name other
    rw [mem_setPlugins, AList.mem_insert]
    by_cases hother : other = pluginType
    · rw [if_pos hother, hother]
      tauto
    · rw [if_neg hother]
      tauto
  have hnowhere : ∀ other, plugin.name ∉ registry.plugins other := fun other hname =>
    hfree ((hregistry.union _).mpr ⟨other, hname⟩)
  constructor
  · intro name
    change name ∈ insert plugin.name registry.allNames ↔ ∃ other, _
    simp only [Finset.mem_insert, hregistry.union, hmem]
    constructor
    · rintro (rfl | ⟨other, hname⟩)
      · exact ⟨pluginType, .inl ⟨rfl, rfl⟩⟩
      · exact ⟨other, .inr hname⟩
    · rintro ⟨other, ⟨rfl, _⟩ | hname⟩
      · exact .inl rfl
      · exact .inr ⟨other, hname⟩
  · intro name first second hfirst hsecond
    rcases (hmem _ _).mp hfirst with ⟨rfl, rfl⟩ | hfirst
    · rcases (hmem _ _).mp hsecond with ⟨_, rfl⟩ | hsecond
      · rfl
      · exact absurd hsecond (hnowhere _)
    · rcases (hmem _ _).mp hsecond with ⟨rfl, _⟩ | hsecond
      · exact absurd hfirst (hnowhere _)
      · exact hregistry.disjoint hfirst hsecond

theorem unregister_consistent {name : String} {r : PluginRegistry × Option RegistryEvent}
    (hregistry : registry.Consistent) (h : registry.unregister pluginType name = .ok r) :
    r.1.Consistent := by
  obtain ⟨hname, rfl⟩ := unregister_eq_ok.mp h
  -- The name stood under this type alone, so that it stands under none any more.
  have hmem : ∀ other type, other ∈ (registry.setPlugins pluginType
      ((registry.plugins pluginType).erase name)).plugins type ↔
        other ≠ name ∧ other ∈ registry.plugins type := by
    intro other type
    rw [mem_setPlugins]
    by_cases htype : type = pluginType
    · rw [if_pos htype, AList.mem_erase, htype]
    · rw [if_neg htype]
      refine (and_iff_right_of_imp ?_).symm
      rintro hother rfl
      exact htype (hregistry.disjoint hother hname)
  constructor
  · intro other
    change other ∈ registry.allNames.erase name ↔ ∃ type, _
    simp only [Finset.mem_erase, hregistry.union, hmem, exists_and_left]
  · intro other first second hfirst hsecond
    exact hregistry.disjoint ((hmem _ _).mp hfirst).2 ((hmem _ _).mp hsecond).2

theorem replace_consistent {plugin : Plugin} {r : PluginRegistry × Option RegistryEvent}
    (hregistry : registry.Consistent) (h : registry.replace pluginType plugin = .ok r) :
    r.1.Consistent := by
  obtain ⟨hname, rfl⟩ := replace_eq_ok.mp h
  have hmem : ∀ name other, name ∈ (registry.setPlugins pluginType
      ((registry.plugins pluginType).insert plugin.name plugin)).plugins other ↔
        name ∈ registry.plugins other := by
    intro name other
    rw [mem_setPlugins, AList.mem_insert]
    by_cases hother : other = pluginType
    · rw [if_pos hother, hother]
      refine or_iff_right_of_imp ?_
      rintro rfl
      exact hname
    · rw [if_neg hother]
  constructor
  · intro name
    change name ∈ registry.allNames ↔ ∃ other, _
    simp only [hregistry.union, hmem]
  · intro name first second hfirst hsecond
    exact hregistry.disjoint ((hmem _ _).mp hfirst) ((hmem _ _).mp hsecond)

theorem operate_consistent {operation : Operation} {r : PluginRegistry × Option RegistryEvent}
    (hregistry : registry.Consistent) (h : registry.operate operation = .ok r) :
    r.1.Consistent := by
  cases operation with
  | registerTool | registerAuth | registerHttpRouter | registerCompletion | registerPrompt
  | registerResource => exact register_consistent hregistry h
  | unregisterTool | unregisterPrompt | unregisterResource =>
    exact unregister_consistent hregistry h
  | replaceTool | replacePrompt | replaceResource => exact replace_consistent hregistry h

/-! ## Names -/

theorem mem_typedNames {name : String} {other : PluginType} :
    (name, other) ∈ registry.typedNames pluginType ↔
      other = pluginType ∧ name ∈ registry.plugins pluginType := by
  simp only [typedNames, List.mem_map, Prod.mk.injEq, AList.mem_keys]
  constructor
  · rintro ⟨found, hfound, rfl, rfl⟩
    exact ⟨rfl, hfound⟩
  · rintro ⟨rfl, hname⟩
    exact ⟨name, hname, rfl, rfl⟩

theorem mem_names {name : String} :
    (name, pluginType) ∈ registry.names ↔ name ∈ registry.plugins pluginType := by
  simp only [names, List.mem_append, mem_typedNames]
  cases pluginType <;> simp

theorem names_fst : registry.names.map Prod.fst =
    [.tool, .auth, .httpRouter, .completion, .prompt, .resource].flatMap
      fun pluginType => (registry.plugins pluginType).keys := by
  simp [names, typedNames, Function.comp_def]

theorem names_nodup (hregistry : registry.Consistent) : (registry.names.map Prod.fst).Nodup := by
  rw [names_fst, List.nodup_flatMap]
  refine ⟨fun pluginType _ => (registry.plugins pluginType).keys_nodup, ?_⟩
  have htypes : ([.tool, .auth, .httpRouter, .completion, .prompt, .resource] :
      List PluginType).Nodup := by decide
  refine htypes.imp fun hne name hfirst hsecond => ?_
  exact hne (hregistry.disjoint (AList.mem_keys.mpr hfirst) (AList.mem_keys.mpr hsecond))

/-! ## Every sequence of calls -/

/-- A registry, and what has been sent on its channel. -/
structure Calls where
  registry : PluginRegistry
  events : List RegistryEvent

namespace Calls

def new : Calls := ⟨PluginRegistry.new, []⟩

/-- A call that fails gives up its own clone of the registry only. -/
def call (calls : Calls) (operation : Operation) : Calls :=
  match calls.registry.operate operation with
  | .ok (registry, event) => ⟨registry, calls.events ++ event.toList⟩
  | .error _ => calls

/-- What the calls leave, in their order. -/
def after (operations : List Operation) : Calls := operations.foldl call new

end Calls

/-- When the purpose of an operation lets it succeed. -/
def Operation.Permitted (registry : PluginRegistry) : Operation → Prop
  | .registerTool plugin | .registerAuth plugin | .registerHttpRouter plugin
  | .registerCompletion plugin | .registerPrompt plugin | .registerResource plugin =>
    ∀ pluginType, registry.getPlugin pluginType plugin.name = none
  | .unregisterTool name => (registry.getPlugin .tool name).isSome
  | .unregisterPrompt name => (registry.getPlugin .prompt name).isSome
  | .unregisterResource name => (registry.getPlugin .resource name).isSome
  | .replaceTool plugin => (registry.getPlugin .tool plugin.name).isSome
  | .replacePrompt plugin => (registry.getPlugin .prompt plugin.name).isSome
  | .replaceResource plugin => (registry.getPlugin .resource plugin.name).isSome

/-- The events that an operation owes the listeners. -/
def Operation.announces : Operation → List RegistryEvent
  | .registerTool _ | .unregisterTool _ | .replaceTool _ => [.toolChanged]
  | .registerPrompt _ | .unregisterPrompt _ | .replacePrompt _ => [.promptChanged]
  | .registerResource _ | .unregisterResource _ | .replaceResource _ => [.resourceChanged]
  | .registerAuth _ | .registerHttpRouter _ | .registerCompletion _ => []

/-- The name that an operation is about. -/
def Operation.name : Operation → String
  | .registerTool plugin | .registerAuth plugin | .registerHttpRouter plugin
  | .registerCompletion plugin | .registerPrompt plugin | .registerResource plugin
  | .replaceTool plugin | .replacePrompt plugin | .replaceResource plugin => plugin.name
  | .unregisterTool name | .unregisterPrompt name | .unregisterResource name => name

/-- What stands under that name once the operation has succeeded. -/
def Operation.leaves : Operation → Option Plugin
  | .registerTool plugin | .registerAuth plugin | .registerHttpRouter plugin
  | .registerCompletion plugin | .registerPrompt plugin | .registerResource plugin
  | .replaceTool plugin | .replacePrompt plugin | .replaceResource plugin => some plugin
  | .unregisterTool _ | .unregisterPrompt _ | .unregisterResource _ => none

/-- A successful operation changes what is found under its type and name, and nothing else. -/
theorem operate_getPlugin {operation : Operation} {r : PluginRegistry × Option RegistryEvent}
    (h : registry.operate operation = .ok r) (other : PluginType) (name : String) :
    r.1.getPlugin other name =
      if other = operation.pluginType ∧ name = operation.name then operation.leaves
      else registry.getPlugin other name := by
  cases operation with
  | registerTool | registerAuth | registerHttpRouter | registerCompletion | registerPrompt
  | registerResource =>
    obtain ⟨-, rfl⟩ := register_eq_ok.mp h
    exact getPlugin_insert
  | unregisterTool | unregisterPrompt | unregisterResource =>
    obtain ⟨-, rfl⟩ := unregister_eq_ok.mp h
    exact getPlugin_erase
  | replaceTool | replacePrompt | replaceResource =>
    obtain ⟨-, rfl⟩ := replace_eq_ok.mp h
    exact getPlugin_insert

theorem emitTypeEvent_toList (operation : Operation) :
    (emitTypeEvent operation.pluginType).toList = operation.announces := by
  cases operation <;> rfl

theorem free_iff (hregistry : registry.Consistent) {name : String} :
    name ∉ registry.allNames ↔ ∀ pluginType, registry.getPlugin pluginType name = none := by
  rw [hregistry.union, not_exists]
  exact forall_congr' fun pluginType => AList.lookup_eq_none.symm

theorem operate_iff_permitted (hregistry : registry.Consistent) {operation : Operation} :
    (∃ r, registry.operate operation = .ok r) ↔ operation.Permitted registry := by
  have hregister : ∀ pluginType plugin, (∃ r, registry.register pluginType plugin = .ok r) ↔
      ∀ pluginType, registry.getPlugin pluginType plugin.name = none := by
    intro pluginType plugin
    simp only [register_eq_ok, exists_and_left, exists_eq, and_true, free_iff hregistry]
  have hunregister : ∀ pluginType name, (∃ r, registry.unregister pluginType name = .ok r) ↔
      (registry.getPlugin pluginType name).isSome := by
    intro pluginType name
    simp only [unregister_eq_ok, exists_and_left, exists_eq, and_true, getPlugin_isSome]
  have hreplace : ∀ pluginType plugin, (∃ r, registry.replace pluginType plugin = .ok r) ↔
      (registry.getPlugin pluginType plugin.name).isSome := by
    intro pluginType plugin
    simp only [replace_eq_ok, exists_and_left, exists_eq, and_true, getPlugin_isSome]
  cases operation with
  | registerTool | registerAuth | registerHttpRouter | registerCompletion | registerPrompt
  | registerResource => exact hregister _ _
  | unregisterTool | unregisterPrompt | unregisterResource => exact hunregister _ _
  | replaceTool | replacePrompt | replaceResource => exact hreplace _ _

theorem call_consistent {calls : Calls} (operation : Operation)
    (hcalls : calls.registry.Consistent) : (calls.call operation).registry.Consistent := by
  unfold Calls.call
  split
  · exact operate_consistent hcalls ‹_›
  · exact hcalls

theorem after_consistent (operations : List Operation) :
    (Calls.after operations).registry.Consistent := by
  unfold Calls.after
  induction operations using List.reverseRecOn with
  | nil => exact new_consistent
  | append_singleton operations operation ih =>
    rw [List.foldl_append]
    exact call_consistent operation ih

theorem call_of_permitted {calls : Calls} (hcalls : calls.registry.Consistent)
    {operation : Operation} (h : operation.Permitted calls.registry) :
    (calls.call operation).events = calls.events ++ operation.announces := by
  obtain ⟨⟨registry, event⟩, hok⟩ := (operate_iff_permitted hcalls).mpr h
  have hevent : event = emitTypeEvent operation.pluginType := operate_event hok
  simp only [Calls.call, hok, hevent, emitTypeEvent_toList]

theorem call_getPlugin {calls : Calls} (hcalls : calls.registry.Consistent) {operation : Operation}
    (h : operation.Permitted calls.registry) (pluginType : PluginType) (name : String) :
    (calls.call operation).registry.getPlugin pluginType name =
      if pluginType = operation.pluginType ∧ name = operation.name then operation.leaves
      else calls.registry.getPlugin pluginType name := by
  obtain ⟨r, hok⟩ := (operate_iff_permitted hcalls).mpr h
  have hfound := operate_getPlugin hok pluginType name
  simp only [Calls.call, hok]
  exact hfound

theorem call_of_not_permitted {calls : Calls} (hcalls : calls.registry.Consistent)
    {operation : Operation} (h : ¬ operation.Permitted calls.registry) :
    calls.call operation = calls := by
  unfold Calls.call
  split
  · exact absurd ((operate_iff_permitted hcalls).mp ⟨_, ‹_›⟩) h
  · rfl

/-- After every sequence of calls, each name stands under one type, `names` lists it once,
and the next call succeeds, changes its name and sends its event exactly if it may. -/
theorem registry_invariant (operations : List Operation) :
    let calls := Calls.after operations
    calls.registry.Consistent ∧
      (∀ name pluginType other, (calls.registry.getPlugin pluginType name).isSome →
        (calls.registry.getPlugin other name).isSome → pluginType = other) ∧
      (calls.registry.names.map Prod.fst).Nodup ∧
      (∀ name pluginType, (name, pluginType) ∈ calls.registry.names ↔
        (calls.registry.getPlugin pluginType name).isSome) ∧
      ∀ operation : Operation,
        ((∃ r, calls.registry.operate operation = .ok r) ↔
          operation.Permitted calls.registry) ∧
        (operation.Permitted calls.registry →
          (calls.call operation).events = calls.events ++ operation.announces ∧
          ∀ pluginType name, (calls.call operation).registry.getPlugin pluginType name =
            if pluginType = operation.pluginType ∧ name = operation.name then operation.leaves
            else calls.registry.getPlugin pluginType name) ∧
        (¬ operation.Permitted calls.registry → calls.call operation = calls) := by
  intro calls
  have hconsistent : calls.registry.Consistent := after_consistent operations
  refine ⟨hconsistent, ?_, names_nodup hconsistent, ?_, ?_⟩
  · intro name pluginType other hfirst hsecond
    exact hconsistent.disjoint (getPlugin_isSome.mp hfirst) (getPlugin_isSome.mp hsecond)
  · intro name pluginType
    rw [mem_names, getPlugin_isSome]
  · intro operation
    exact ⟨operate_iff_permitted hconsistent,
      fun h => ⟨call_of_permitted hconsistent h, call_getPlugin hconsistent h⟩,
      call_of_not_permitted hconsistent⟩

end RustMcpCore.PluginRegistry
