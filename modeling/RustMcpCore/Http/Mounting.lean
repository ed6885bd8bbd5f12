import RustMcpCore.Http.Composition
import RustMcpCore.Runtime.Checks

/-! # When the router can be put together

The router is built in three places where axum may panic: where the service is nested
at the endpoint, where the metadata routes are added, and where the segments are put
together. What has to hold there is said with the paths alone.
-/
namespace RustMcpCore
open Library
variable {Router Service : Type} (ax : Axum Router Service) (layers : ServerLayers Service)

/-! ## Normalized paths -/

theorem head?_trimEndMatches {s : String} {c : Char} (hs : s.toList.head? = some '/') :
    Text.trimEndMatches s c = "" ∨ (Text.trimEndMatches s c).toList.head? = some '/' := by
  have hprefix := List.rdropWhile_prefix (p := (· = c)) (l := s.toList)
  unfold Text.trimEndMatches
  cases htrimmed : s.toList.rdropWhile (· = c) with
  | nil => exact .inl rfl
  | cons first rest =>
    obtain ⟨more, hmore⟩ := hprefix
    rw [htrimmed] at hmore
    rw [← hmore] at hs
    rw [String.toList_ofList]
    exact .inr hs

theorem trimEndMatches_eq_empty {s : String} {c : Char} :
    Text.trimEndMatches s c = "" ↔ ∀ d ∈ s.toList, d = c := by
  rw [← String.toList_inj, Text.trimEndMatches, String.toList_ofList]
  simp

theorem trimEndMatches_ne_single {s : String} : Text.trimEndMatches s '/' ≠ "/" := by
  intro h
  rw [← String.toList_inj, Text.trimEndMatches, String.toList_ofList] at h
  have hlast := List.rdropWhile_last_not (· = '/') s.toList (by rw [h]; exact nofun)
  simp [h] at hlast

theorem head?_slash_append (s : String) : ("/" ++ s).toList.head? = some '/' := by
  rw [String.toList_append]
  rfl

theorem head?_normalizeEndpointPath (path : String) : normalizeEndpointPath path = "" ∨
    (normalizeEndpointPath path).toList.head? = some '/' := by
  unfold normalizeEndpointPath
  simp only
  split
  · exact .inr rfl
  · split
    · exact .inr rfl
    · split
      · rename_i hslash
        exact head?_trimEndMatches hslash
      · exact .inr (head?_slash_append _)

/-- The only endpoints at the root are made of slashes alone. -/
theorem normalizeEndpointPath_root {path : String} : normalizeEndpointPath path ∈ ["", "/"] ↔
    Text.trim path ≠ "" ∧ ∀ c ∈ (Text.trim path).toList, c = '/' := by
  unfold normalizeEndpointPath
  generalize Text.trim path = trimmed
  simp only
  split
  · rename_i hempty
    exact iff_of_false (by decide) fun h => h.1 hempty
  · rename_i hempty
    split
    · rename_i hroot
      rw [hroot]
      have hslashes : ∀ c ∈ "/".toList, c = '/' := by simp
      exact iff_of_true (by decide) ⟨by decide, hslashes⟩
    · split
      · refine ⟨fun h => ⟨hempty, ?_⟩, fun h => ?_⟩
        · rw [List.mem_cons, List.mem_singleton] at h
          rcases h with h | h
          · exact trimEndMatches_eq_empty.mp h
          · exact absurd h trimEndMatches_ne_single
        · rw [trimEndMatches_eq_empty.mpr h.2]
          exact List.mem_cons_self
      · rename_i hslash
        have hall : ¬ ∀ c ∈ trimmed.toList, c = '/' := by
          intro hall
          cases hfirst : trimmed.toList with
          | nil => exact hempty (String.toList_eq_nil_iff.mp hfirst)
          | cons first rest =>
            refine hslash ?_
            rw [hfirst, hall first (by rw [hfirst]; exact List.mem_cons_self)]
            rfl
        refine iff_of_false (fun h => ?_) fun h => hall h.2
        rw [List.mem_cons, List.mem_singleton] at h
        rcases h with h | h
        · have hhead := head?_slash_append (Text.trimEndMatches trimmed '/')
          rw [h] at hhead
          exact absurd hhead (by decide)
        · rw [← String.toList_inj, String.toList_append] at h
          have htrimmed := List.append_cancel_left (h.trans (List.append_nil "/".toList).symm)
          exact hall (trimEndMatches_eq_empty.mp (String.toList_eq_nil_iff.mp htrimmed))

theorem head?_normalizeTargetPath {path normalized : String}
    (h : normalizeTargetPath path = .ok normalized) :
    normalized = "*" ∨ normalized.toList.head? = some '/' := by
  unfold normalizeTargetPath at h
  simp only at h
  split at h
  · cases h
  · split at h
    · exact .inl (Except.ok.inj h).symm
    · split at h
      · rw [← Except.ok.inj h]
        exact .inr rfl
      · split at h
        · rename_i hslash
          rw [← Except.ok.inj h]
          exact .inr hslash
        · rw [← Except.ok.inj h]
          exact .inr (head?_slash_append _)

/-- A normalized target of a route begins with a slash. -/
theorem head?_normalizeTarget {target : PluginTargetConfig} {normalized : HttpRouterTarget}
    (h : normalizeTarget target = .ok normalized) (hroute : normalized.targetType = .route) :
    normalized.path.toList.head? = some '/' := by
  unfold normalizeTarget at h
  obtain ⟨path, hpath, h⟩ := bind_eq_ok h
  split at h
  · cases h
  · rename_i hstar
    cases h
    rcases head?_normalizeTargetPath hpath with hall | hhead
    · exact absurd ⟨hroute, hall⟩ hstar
    · exact hhead

theorem head?_normalizeTargets {targets : List PluginTargetConfig}
    {normalized : List HttpRouterTarget} (h : normalizeTargets targets = .ok normalized) :
    ∀ target ∈ normalized, target.targetType = .route → target.path.toList.head? = some '/' := by
  unfold normalizeTargets at h
  split at h
  · cases h
  · intro target htarget hroute
    obtain ⟨given, _, hgiven⟩ := mem_of_mapM h htarget
    exact head?_normalizeTarget hgiven hroute

theorem head?_oauthResourceMetadataEndpointPath (endpointPath : String) :
    (oauthResourceMetadataEndpointPath endpointPath).toList.head? = some '/' := by
  unfold oauthResourceMetadataEndpointPath
  split
  · rfl
  · rw [String.toList_append]
    rfl

section Answers
variable {plugins : String → Option (HttpRouterPlugin Router)} {ctx : RuntimeContext}

theorem answered_unique : Relator.RightUnique (Answered plugins ctx) := by
  rintro pluginCfg _ _ ⟨plugin, targets, ops, hplugin, htargets, hops, _, rfl⟩
    ⟨_, _, _, hplugin', htargets', hops', _, rfl⟩
  cases hplugin.symm.trans hplugin'
  cases htargets.symm.trans htargets'
  cases hops.symm.trans hops'
  rfl

theorem head?_mounts {pluginCfgs : List PluginConfig} {parts : List (List (Applied Router))}
    (h : List.Forall₂ (Answered plugins ctx) pluginCfgs parts) :
    ∀ mount ∈ mounts parts.flatten, mount.1.toList.head? = some '/' := by
  have hmain : ∀ applied ∈ parts.flatten, applied.1.targetType = .route →
      applied.1.path.toList.head? = some '/' := by
    induction h with
    | nil => exact nofun
    | cons hpart _ ih =>
      obtain ⟨_, targets, ops, _, htargets, _, _, rfl⟩ := hpart
      intro applied happlied
      rw [List.flatten_cons, List.mem_append] at happlied
      rcases happlied with happlied | happlied
      · exact head?_normalizeTargets htargets _ (List.of_mem_zip happlied).1
      · exact ih applied happlied
  intro mount hmount
  obtain ⟨route, hroute, rfl⟩ := List.mem_map.mp hmount
  obtain ⟨⟨⟨targetType, path⟩, op⟩, happlied, heq⟩ := List.mem_filterMap.mp hroute
  cases targetType with
  | wrap => cases heq
  | route =>
    cases op with
    | wrap layer => cases heq
    | route router =>
      cases heq
      exact hmain _ happlied rfl

end Answers

/-! ## What axum accepts -/

/-- The routers can be nested one after the other. -/
def Mountable : Frame → List Place → List (String × Router) → Prop
  | _, _, [] => True
  | frame, taken, mount :: rest =>
    Axum.Leads frame.checked mount.1 ∧ ax.Free frame.checked taken (ax.nestedPlaces mount) ∧
      ax.Free frame.checked frame.fallbacks (ax.fallbacksAt mount.1 mount.2) ∧
      Mountable (frame.nest (ax.fallbacksAt mount.1 mount.2)) (taken ++ ax.nestedPlaces mount) rest

/-- The metadata routes do not stand in each other's way. -/
def MetadataFits (authState : AuthState) : Prop :=
  authState.oauthEnabled = true → ax.Free true [] [Axum.getPlace OAUTH_METADATA_PATH] ∧
    (oauthResourceMetadataEndpointPath authState.endpointPath ≠ OAUTH_METADATA_PATH →
      ax.Free true [Axum.getPlace OAUTH_METADATA_PATH]
        [Axum.getPlace (oauthResourceMetadataEndpointPath authState.endpointPath)])

/-- The segments can be put together. -/
def SegmentsFit (hardening : StreamableHttpHardeningConfig) (endpointPath : String)
    (mcpRouter appRouter : Router) (done : List (Applied Router)) : Prop :=
  let app := wrapAround (wrapsOn [] done) appRouter
  let mcp := wrapAround (hardeningLayers ax layers hardening)
    (wrapAround (wrapsOn [endpointPath] done) mcpRouter)
  ax.Mergeable app mcp ∧ Mountable ax ((ax.frame app).merge (ax.frame mcp))
    (ax.places app ++ ax.places mcp) (mounts done)

theorem Axum.Free.of_taken {ax : Axum Router Service} {checked : Bool} {taken added : List Place}
    (h : ax.Free checked taken added) : ax.Free checked [] added :=
  fun place hplace => ⟨(h place hplace).1, (h place hplace).2.1, nofun⟩

section Build
variable {ax} (documented : ax.Documented)
include documented

theorem of_nest {app next : Router} {mount : String × Router}
    (h : ax.nest app mount.1 mount.2 = some next) :
    Axum.Leads (ax.frame app).checked mount.1 ∧
      ax.Free (ax.frame app).checked (ax.places app) (ax.nestedPlaces mount) ∧
      ax.Free (ax.frame app).checked (ax.frame app).fallbacks (ax.fallbacksAt mount.1 mount.2) ∧
      ax.places next = ax.places app ++ ax.nestedPlaces mount ∧
      ax.frame next = (ax.frame app).nest (ax.fallbacksAt mount.1 mount.2) := by
  obtain ⟨hnone, hsome⟩ := documented.nest_eq app mount.1 mount.2
  obtain ⟨_, hlead, hfree, hfallbacks⟩ := not_not.mp (mt hnone.mpr (by rw [h]; exact nofun))
  obtain ⟨hentries, hframe⟩ := hsome next h
  refine ⟨hlead, hfree, hfallbacks, ?_, hframe⟩
  unfold Axum.nestedPlaces Axum.places
  rw [hentries, List.map_append, List.map_map, List.map_map]
  rfl

theorem foldlM_nest_eq_none {routes : List (String × Router)} {app : Router}
    (hhead : ∀ mount ∈ routes, mount.1.toList.head? = some '/') :
    routes.foldlM (fun app mount => ax.nest app mount.1 mount.2) app = none ↔
      ¬ Mountable ax (ax.frame app) (ax.places app) routes := by
  induction routes generalizing app with
  | nil => exact iff_of_false nofun fun h => h trivial
  | cons mount rest ih =>
    rw [List.foldlM_cons]
    cases hnest : ax.nest app mount.1 mount.2 with
    | none =>
      refine iff_of_true rfl fun h => (documented.nest_eq _ _ _).1.mp hnest ?_
      exact ⟨hhead mount List.mem_cons_self, h.1, h.2.1, h.2.2.1⟩
    | some next =>
      obtain ⟨hlead, hfree, hfallbacks, hplaces, hframe⟩ := of_nest documented hnest
      refine (ih fun other hother => hhead other (List.mem_cons_of_mem _ hother)).trans ?_
      rw [hplaces, hframe, Mountable]
      exact not_congr ⟨fun h => ⟨hlead, hfree, hfallbacks, h⟩, fun h => h.2.2.2⟩

theorem of_route {router added : Router} {path : String} {service : Service}
    (h : ax.route router path service = some added) :
    ax.Free (ax.frame router).checked (ax.places router) [Axum.getPlace path] ∧
      ax.places added = ax.places router ++ [Axum.getPlace path] ∧
      ax.frame added = ax.frame router := by
  obtain ⟨hnone, hsome⟩ := documented.route_eq router path service
  obtain ⟨_, hfree⟩ := not_not.mp (mt hnone.mpr (by rw [h]; exact nofun))
  obtain ⟨hentries, hframe⟩ := hsome added h
  refine ⟨hfree, ?_, hframe⟩
  rw [Axum.places, hentries, List.map_append]
  rfl

theorem route_eq_none {router : Router} {path : String} {service : Service}
    (hhead : path.toList.head? = some '/') : ax.route router path service = none ↔
      ¬ ax.Free (ax.frame router).checked (ax.places router) [Axum.getPlace path] := by
  rw [(documented.route_eq router path service).1, and_iff_right hhead]

theorem oauthRouter_eq_none {authState : AuthState} (henabled : authState.oauthEnabled = true) :
    oauthRouter ax layers authState = none ↔ ¬ MetadataFits ax authState := by
  have hfirst : ax.route ax.new OAUTH_METADATA_PATH (layers.oauthResourceMetadata authState) =
      none ↔ _ := route_eq_none documented rfl
  rw [documented.frame_new, documented.places_new] at hfirst
  unfold oauthRouter MetadataFits
  simp only [henabled, forall_const]
  cases hroute : ax.route ax.new OAUTH_METADATA_PATH (layers.oauthResourceMetadata authState) with
  | none => exact iff_of_true rfl fun h => hfirst.mp hroute h.1
  | some router =>
    obtain ⟨hwell, hplaces, hframe⟩ := of_route documented hroute
    simp only [documented.frame_new, documented.places_new] at hwell hplaces hframe
    rw [Option.bind_some]
    split
    · rename_i hother
      rw [route_eq_none documented (head?_oauthResourceMetadataEndpointPath _), hplaces, hframe]
      exact not_congr ⟨fun h => ⟨hwell, fun _ => h⟩, fun h => h.2 hother⟩
    · rename_i hsame
      exact iff_of_false nofun fun h => h ⟨hwell, fun hother => absurd hother hsame⟩

/-- Nothing in the router of the metadata keeps it from going into another one. -/
theorem of_oauthRouter {authState : AuthState} {router : Router}
    (h : oauthRouter ax layers authState = some router) :
    ax.frame router = ⟨[], false, true⟩ ∧ ax.Free true [] (ax.places router) := by
  unfold oauthRouter at h
  obtain ⟨first, hfirst, hsecond⟩ := Option.bind_eq_some_iff.mp h
  obtain ⟨hwell, hplaces, hframe⟩ := of_route documented hfirst
  simp only [documented.frame_new, documented.places_new] at hwell hplaces hframe
  split at hsecond
  · obtain ⟨hother, hplaces', hframe'⟩ := of_route documented hsecond
    rw [hframe] at hother
    refine ⟨hframe'.trans hframe, ?_⟩
    rw [hplaces', hplaces]
    exact List.forall_mem_append.mpr ⟨hwell, hother.of_taken⟩
  · cases hsecond
    rw [hplaces]
    exact ⟨hframe, hwell⟩

theorem merge_new_ne_none {router : Router} (hframe : ax.frame router = ⟨[], false, true⟩)
    (hfree : ax.Free true [] (ax.places router)) : ax.merge ax.new router ≠ none := by
  rw [ne_eq, (documented.merge_eq ax.new router).1, not_not, Axum.Mergeable, documented.frame_new,
    documented.places_new, hframe]
  exact ⟨nofun, hfree, List.forall_mem_nil _⟩

end Build

/-- What the metadata routes are in before any plugin. -/
def initialAppRouter (authState : AuthState) : Option Router :=
  if authState.oauthEnabled then (oauthRouter ax layers authState).bind (ax.merge ax.new ·)
  else some ax.new

def initialRouteState (config : McpConfig) (authState : AuthState)
    (mcpRouter appRouter : Router) : PluginRouteState Router :=
  let endpointPath := normalizeEndpointPath config.server.endpointPath
  let hardening := config.server.transport.streamableHttp.effectiveHardening
  { PluginRouteState.new mcpRouter appRouter endpointPath authState with
    mcpSegment := ⟨mcpRouter, hardeningLayers ax layers hardening⟩ }

/-- Nothing that axum panics on is asked of it. -/
def RouterFits (config : McpConfig) (authState : AuthState)
    (plugins : String → Option (HttpRouterPlugin Router)) : Prop :=
  let endpointPath := normalizeEndpointPath config.server.endpointPath
  let hardening := config.server.transport.streamableHttp.effectiveHardening
  let ctx := buildRuntimeContext config authState
  let routerPlugins := config.plugins.filter fun plugin => plugin.pluginType = .httpRouter
  (Axum.Leads true endpointPath ∧ ax.Free true [] (Axum.servicePlaces endpointPath)) ∧
  ∀ mcpRouter, buildMcpRouter ax layers config authState = some (.ok mcpRouter) →
    MetadataFits ax authState ∧
    ∀ appRouter parts state, initialAppRouter ax layers authState = some appRouter →
      List.Forall₂ (Answered plugins ctx) routerPlugins parts →
      (initialRouteState ax layers config authState mcpRouter appRouter).processPlugins plugins
        routerPlugins ctx = .ok state →
      SegmentsFit ax layers hardening endpointPath mcpRouter appRouter parts.flatten

section Build
variable {ax} (documented : ax.Documented)
include documented

theorem initialAppRouter_eq_none {authState : AuthState} :
    initialAppRouter ax layers authState = none ↔ ¬ MetadataFits ax authState := by
  unfold initialAppRouter
  split
  · rename_i henabled
    rw [← oauthRouter_eq_none layers documented henabled]
    cases hrouter : oauthRouter ax layers authState with
    | none => exact iff_of_true rfl rfl
    | some router =>
      obtain ⟨hframe, hfree⟩ := of_oauthRouter layers documented hrouter
      exact iff_of_false (merge_new_ne_none documented hframe hfree) nofun
  · rename_i hdisabled
    exact iff_of_false nofun fun h => h fun henabled => absurd henabled hdisabled

theorem buildMcpRouter_eq_none {config : McpConfig} {authState : AuthState} :
    buildMcpRouter ax layers config authState = none ↔
      ¬ (Axum.Leads true (normalizeEndpointPath config.server.endpointPath) ∧
        ax.Free true []
          (Axum.servicePlaces (normalizeEndpointPath config.server.endpointPath))) := by
  unfold buildMcpRouter
  rw [Option.map_eq_none_iff, (documented.nestService_eq _ _ _).1, documented.frame_new,
    documented.places_new]
  refine not_congr (and_iff_right_of_imp fun h => ?_)
  refine (head?_normalizeEndpointPath config.server.endpointPath).resolve_left fun hempty => ?_
  exact h.1.1 (by rw [hempty]; exact List.mem_cons_self)

theorem assemble_eq_none {start state : PluginRouteState Router} {done : List (Applied Router)}
    {mcpRouter appRouter : Router} {hardening : StreamableHttpHardeningConfig}
    {endpointPath : String} (hs : Composed start done state)
    (hmcp : start.mcpSegment = ⟨mcpRouter, hardeningLayers ax layers hardening⟩)
    (happ : start.appSegment = ⟨appRouter, []⟩) (hendpoint : start.endpointPath = endpointPath)
    (hhead : ∀ mount ∈ mounts done, mount.1.toList.head? = some '/') :
    state.assemble ax = none ↔
      ¬ SegmentsFit ax layers hardening endpointPath mcpRouter appRouter done := by
  have happBuilt : state.appSegment.build = wrapAround (wrapsOn [] done) appRouter := by
    rw [RouterSegment.build, applyLayers_eq, hs.app, happ, List.nil_append]
  have hmcpBuilt : state.mcpSegment.build = wrapAround (hardeningLayers ax layers hardening)
      (wrapAround (wrapsOn [endpointPath] done) mcpRouter) := by
    rw [RouterSegment.build, applyLayers_eq, hs.mcp, hmcp, hendpoint, wrapAround_append]
  rw [hs.assemble_eq, happBuilt, hmcpBuilt, SegmentsFit]
  generalize wrapAround (wrapsOn [] done) appRouter = app
  generalize wrapAround (hardeningLayers ax layers hardening) _ = mcp
  obtain ⟨hnone, hsome⟩ := documented.merge_eq app mcp
  cases hmerge : ax.merge app mcp with
  | none => exact iff_of_true rfl fun h => hnone.mp hmerge h.1
  | some router =>
    have hfits := not_not.mp (mt hnone.mpr (by rw [hmerge]; exact Option.some_ne_none router))
    obtain ⟨hentries, hframe⟩ := hsome router hmerge
    have hplaces : ax.places router = ax.places app ++ ax.places mcp := by
      unfold Axum.places
      rw [hentries, List.map_append]
    rw [Option.bind_some, foldlM_nest_eq_none documented hhead, hplaces, hframe]
    exact not_congr ⟨fun h => ⟨hfits, h⟩, And.right⟩

/-- With the routers of the server built, only the plugins are left. -/
theorem segments_return {config : McpConfig} {authState : AuthState}
    {plugins : String → Option (HttpRouterPlugin Router)} {routerPlugins : List PluginConfig}
    {ctx : RuntimeContext} {mcpRouter appRouter : Router} :
    (match (initialRouteState ax layers config authState mcpRouter appRouter).processPlugins plugins
        routerPlugins ctx with
      | .error e => some (.error e)
      | .ok state => (state.assemble ax).map .ok : Option (Except McpError Router)) ≠ none ↔
    ∀ parts state, List.Forall₂ (Answered plugins ctx) routerPlugins parts →
      (initialRouteState ax layers config authState mcpRouter appRouter).processPlugins plugins
        routerPlugins ctx = .ok state →
      SegmentsFit ax layers config.server.transport.streamableHttp.effectiveHardening
        (normalizeEndpointPath config.server.endpointPath) mcpRouter appRouter parts.flatten := by
  cases hstate : (initialRouteState ax layers config authState mcpRouter appRouter).processPlugins
      plugins routerPlugins ctx with
  | error e => exact iff_of_true nofun nofun
  | ok state =>
    have hstart : Composed (initialRouteState ax layers config authState mcpRouter appRouter) []
        (initialRouteState ax layers config authState mcpRouter appRouter) :=
      composed_start rfl rfl rfl
    have hmcp : (initialRouteState ax layers config authState mcpRouter appRouter).mcpSegment =
        ⟨mcpRouter, hardeningLayers ax layers
          config.server.transport.streamableHttp.effectiveHardening⟩ := rfl
    have hendpoint : (initialRouteState ax layers config authState mcpRouter
        appRouter).endpointPath = normalizeEndpointPath config.server.endpointPath := by
      simp only [initialRouteState, PluginRouteState.new]
    have hreserved : (initialRouteState ax layers config authState mcpRouter
        appRouter).endpointPath ∈
          (initialRouteState ax layers config authState mcpRouter appRouter).reservedRoutes := by
      simp only [initialRouteState, PluginRouteState.new]
      exact mem_reservedPaths.mpr (.inl rfl)
    obtain ⟨parts, hparts, hs⟩ := processPlugins_composed hreserved hstart hstate
    have hassemble :=
      assemble_eq_none layers documented hs hmcp rfl hendpoint (head?_mounts hparts)
    simp only [ne_eq, Option.map_eq_none_iff]
    rw [hassemble, not_not]
    refine ⟨fun h others state hothers _ => ?_, fun h => h parts state hparts rfl⟩
    rwa [answered_unique.forall₂ hothers hparts]

/-- The router is built, or an error is returned, exactly where the paths fit. -/
theorem buildStreamableHttpRouter_returns {config : McpConfig} {authState : AuthState}
    {plugins : String → Option (HttpRouterPlugin Router)} :
    buildStreamableHttpRouter ax layers config authState plugins ≠ none ↔
      RouterFits ax layers config authState plugins := by
  have hendpoint : buildMcpRouter ax layers config authState = none ↔ _ :=
    buildMcpRouter_eq_none layers documented
  unfold buildStreamableHttpRouter RouterFits
  cases hmcp : buildMcpRouter ax layers config authState with
  | none => exact iff_of_false (fun h => h rfl) fun h => hendpoint.mp hmcp h.1
  | some built =>
    have hfits := not_not.mp (mt hendpoint.mpr (by rw [hmcp]; exact nofun))
    rw [and_iff_right hfits, Option.bind_some]
    cases built with
    | error e => exact iff_of_true nofun nofun
    | ok mcpRouter =>
      have hmetadata : initialAppRouter ax layers authState = none ↔ _ :=
        initialAppRouter_eq_none layers documented
      change Option.bind (initialAppRouter ax layers authState) _ ≠ none ↔ _
      cases happ : initialAppRouter ax layers authState with
      | none => exact iff_of_false (fun h => h rfl) fun h => hmetadata.mp happ (h mcpRouter rfl).1
      | some appRouter =>
        have hmeta := not_not.mp (mt hmetadata.mpr (by rw [happ]; exact nofun))
        have hlayers : applyStreamableHttpHardeningLayers ax layers (PluginRouteState.new mcpRouter
            appRouter (normalizeEndpointPath config.server.endpointPath) authState).mcpSegment
              config.server.transport.streamableHttp.effectiveHardening =
                .ok ⟨mcpRouter, hardeningLayers ax layers
                  config.server.transport.streamableHttp.effectiveHardening⟩ :=
          hardeningLayers_eq ax layers mcpRouter _
        simp only [Option.bind_some, hlayers]
        refine (segments_return layers documented).trans ⟨fun h => ?_, fun h => ?_⟩
        · rintro _ ⟨⟩
          refine ⟨hmeta, ?_⟩
          rintro _ parts state ⟨⟩ hparts hstate
          exact h parts state hparts hstate
        · intro parts state hparts hstate
          exact (h mcpRouter rfl).2 appRouter parts state rfl hparts hstate

end Build

/-- The endpoint at the root of the server. -/
def rootEndpoint : McpConfig :=
  { McpConfig.empty with server := { ServerSection.default with endpointPath := "/" } }

/-- The settings are accepted, and the server panics when it starts. -/
theorem buildStreamableHttpRouter_panics :
    validateTransport .full rootEndpoint = .ok .streamableHttp ∧
    buildStreamableHttpRouter (.table ℕ) countedLayers rootEndpoint
      (buildAuthState rootEndpoint true) (fun _ => none) = none :=
  ⟨rfl, rfl⟩

/-- The default settings do not panic. -/
theorem buildStreamableHttpRouter_returns_default :
    buildStreamableHttpRouter (.table ℕ) countedLayers .empty (buildAuthState .empty true)
      (fun _ => none) ≠ none := by
  refine (buildStreamableHttpRouter_returns countedLayers Axum.table_documented).mpr ?_
  refine ⟨by decide +kernel, ?_⟩
  rintro mcpRouter hmcp
  refine ⟨nofun, ?_⟩
  rintro appRouter parts state happ hparts -
  cases hmcp
  cases happ
  cases hparts
  exact ⟨by decide +kernel, trivial⟩

end RustMcpCore
