import RustMcpCore.Http.Router
import RustMcpCore.Library.Runs

/-! # What the plugins make of the router

The targets and ops that were accepted, in order, say which routes there are and which
layers go around each segment: those that came after the segment and ask for its path
or for all paths. The first of them is the outermost.
-/
namespace RustMcpCore
open Library
variable {Router Service : Type}

/-- The layers around a router, the first one outermost. -/
def wrapAround (layers : List (RouterTransform Router)) (router : Router) : Router :=
  layers.foldr (fun layer router => layer router) router

theorem applyLayers_eq (router : Router) (layers : List (RouterTransform Router)) :
    applyLayers router layers = wrapAround layers router :=
  List.foldl_reverse

theorem wrapAround_append (layers more : List (RouterTransform Router)) (router : Router) :
    wrapAround (layers ++ more) router = wrapAround layers (wrapAround more router) :=
  List.foldr_append

/-- A target and the op for it. -/
abbrev Applied (Router : Type) := HttpRouterTarget × HttpRouterOp Router

namespace Applied

def route (applied : Applied Router) : Option (String × Router) :=
  match applied.1.targetType, applied.2 with
  | .route, .route router => some (applied.1.path, router)
  | _, _ => none

def wrap (applied : Applied Router) : Option (String × RouterTransform Router) :=
  match applied.1.targetType, applied.2 with
  | .wrap, .wrap layer => some (applied.1.path, layer)
  | _, _ => none

/-- The layer, if it is for all paths or for one of the given ones. -/
def wrapOn (covered : List String) (applied : Applied Router) : Option (RouterTransform Router) :=
  applied.wrap.bind fun wrap => if wrap.1 = "*" ∨ wrap.1 ∈ covered then some wrap.2 else none

end Applied

/-- The layers for all paths and for the given ones. -/
def wrapsOn (covered : List String) (done : List (Applied Router)) : List (RouterTransform Router) :=
  done.filterMap (Applied.wrapOn covered)

def routesOf (done : List (Applied Router)) : List (String × Router) := done.filterMap Applied.route

/-- What was processed after the route of a path. -/
def sinceRoute (path : String) (done : List (Applied Router)) : List (Applied Router) :=
  (done.dropWhile fun applied => applied.route.map Prod.fst ≠ some path).tail

/-- The segment that a path is to have. -/
def segmentOf (done : List (Applied Router)) (path : String) : Option (RouterSegment Router) :=
  ((routesOf done).lookup path).map fun router => ⟨router, wrapsOn [path] (sinceRoute path done)⟩

/-- The segments that the plugins leave. -/
structure Composed (start : PluginRouteState Router) (done : List (Applied Router))
    (state : PluginRouteState Router) : Prop where
  reserved : state.reservedRoutes = start.reservedRoutes
  endpoint : state.endpointPath = start.endpointPath
  mcp : state.mcpSegment =
    ⟨start.mcpSegment.router, start.mcpSegment.layers ++ wrapsOn [start.endpointPath] done⟩
  app : state.appSegment = ⟨start.appSegment.router, start.appSegment.layers ++ wrapsOn [] done⟩
  order : state.pluginRouteOrder = (routesOf done).map Prod.fst
  taken : ∀ path, path ∈ state.pluginRoutes ↔ path ∈ state.pluginRouteOrder
  distinct : state.pluginRouteOrder.Nodup
  free : ∀ path ∈ state.pluginRouteOrder, path ∉ start.reservedRoutes
  segments : ∀ path, state.pluginSegments.lookup path = segmentOf done path

theorem mem_reservedPaths {endpointPath path : String} {oauthEnabled : Bool} :
    path ∈ reservedPaths endpointPath oauthEnabled ↔ path = endpointPath ∨
      oauthEnabled = true ∧
        (path = OAUTH_METADATA_PATH ∨ path = oauthResourceMetadataEndpointPath endpointPath) := by
  unfold reservedPaths oauthResourceMetadataEndpointPath
  cases oauthEnabled with
  | false => simp
  | true =>
    by_cases hroot : endpointPath = "/"
    · simp [hroot, or_comm]
    · simp only [if_true, ne_eq, hroot, not_false_eq_true, if_false, Finset.mem_insert,
        Finset.mem_singleton, true_and]
      tauto

/-! ## One op -/

/-- The ops that are accepted, one by one. -/
inductive OpStep (state : PluginRouteState Router) :
    Applied Router → PluginRouteState Router → Prop
  | route (path : String) (router : Router) (unreserved : path ∉ state.reservedRoutes)
      (untaken : path ∉ state.pluginRoutes) :
      OpStep state (⟨.route, path⟩, .route router) (state.addRoute path router)
  | wrapAll (layer : RouterTransform Router) :
      OpStep state (⟨.wrap, "*"⟩, .wrap layer) (state.wrapAll layer)
  | wrapEndpoint (layer : RouterTransform Router) (own : state.endpointPath ≠ "*") :
      OpStep state (⟨.wrap, state.endpointPath⟩, .wrap layer)
        { state with mcpSegment := state.mcpSegment.addLayer layer }
  | wrapRoute (path : String) (layer : RouterTransform Router) (segment : RouterSegment Router)
      (own : path ≠ "*") (other : path ≠ state.endpointPath)
      (found : state.pluginSegments.lookup path = some segment) :
      OpStep state (⟨.wrap, path⟩, .wrap layer)
        { state with
          pluginSegments := state.pluginSegments.insert path (segment.addLayer layer) }

theorem applyOp_step {pluginName : String} {state next : PluginRouteState Router}
    {entry : Applied Router × ℕ} (h : state.applyOp pluginName entry = .ok next) :
    OpStep state entry.1 next := by
  obtain ⟨⟨⟨targetType, path⟩, op⟩, index⟩ := entry
  unfold PluginRouteState.applyOp at h
  cases targetType with
  | route =>
    simp only at h
    split at h
    · cases h
    · rename_i hfree
      obtain ⟨hreserved, htaken⟩ := not_or.mp hfree
      split at h
      · cases h
        exact .route path _ hreserved htaken
      · cases h
  | wrap =>
    simp only at h
    split at h
    · cases h
    · split at h
      · cases h
      · split at h
        · rename_i hall
          cases h
          cases hall
          exact .wrapAll _
        · rename_i hown
          split at h
          · rename_i hendpoint
            cases h
            cases hendpoint
            exact .wrapEndpoint _ hown
          · rename_i hother
            split at h
            · cases h
            · rename_i hfound
              cases h
              exact .wrapRoute path _ _ hown hother hfound

/-! ## One op more -/

section Append
variable {done : List (Applied Router)} {applied : Applied Router} {path : String}

theorem wrapsOn_append (covered : List String) : wrapsOn covered (done ++ [applied]) =
    wrapsOn covered done ++ (applied.wrapOn covered).toList := by
  unfold wrapsOn
  rw [List.filterMap_append]
  cases h : applied.wrapOn covered <;> simp [h]

theorem routesOf_append :
    routesOf (done ++ [applied]) = routesOf done ++ applied.route.toList := by
  unfold routesOf
  rw [List.filterMap_append]
  cases h : applied.route <;> simp [h]

theorem mem_routesOf_paths : path ∈ (routesOf done).map Prod.fst ↔
    ∃ applied ∈ done, applied.route.map Prod.fst = some path := by
  simp only [routesOf, List.mem_map, List.mem_filterMap, Option.map_eq_some_iff]
  constructor
  · rintro ⟨route, ⟨applied, hmem, hroute⟩, hpath⟩
    exact ⟨applied, hmem, route, hroute, hpath⟩
  · rintro ⟨applied, hmem, route, hroute, hpath⟩
    exact ⟨route, ⟨applied, hmem, hroute⟩, hpath⟩

theorem lookup_routesOf_eq_none (h : path ∉ (routesOf done).map Prod.fst) :
    (routesOf done).lookup path = none := by
  refine List.lookup_eq_none_iff.mpr fun route hroute => ?_
  refine bne_iff_ne.mpr ?_
  rintro rfl
  exact h (List.mem_map_of_mem hroute)

theorem lookup_routesOf_of_mem {route : String × Router}
    (hnodup : ((routesOf done).map Prod.fst).Nodup) (h : route ∈ routesOf done) :
    (routesOf done).lookup route.1 = some route.2 := by
  obtain ⟨before, after, heq⟩ := List.append_of_mem h
  rw [List.lookup_eq_some_iff]
  refine ⟨before, after, heq, fun other hother => bne_iff_ne.mpr ?_⟩
  rw [heq, List.map_append, List.nodup_append] at hnodup
  exact Ne.symm (hnodup.2.2 _ (List.mem_map_of_mem hother) _ List.mem_cons_self)

/-- What comes after a route that is there already counts. -/
theorem sinceRoute_append (h : path ∈ (routesOf done).map Prod.fst) :
    sinceRoute path (done ++ [applied]) = sinceRoute path done ++ [applied] := by
  obtain ⟨first, hmem, hpath⟩ := mem_routesOf_paths.mp h
  have hne : done.dropWhile (fun applied => applied.route.map Prod.fst ≠ some path) ≠ [] := by
    intro hnil
    have hall := List.dropWhile_eq_nil_iff.mp hnil first hmem
    simp [hpath] at hall
  unfold sinceRoute
  rw [List.dropWhile_append, if_neg (by simpa using hne)]
  exact List.tail_append_of_ne_nil hne

theorem sinceRoute_new (h : path ∉ (routesOf done).map Prod.fst)
    (hroute : applied.route.map Prod.fst = some path) :
    sinceRoute path (done ++ [applied]) = [] := by
  have hnil : done.dropWhile (fun applied => applied.route.map Prod.fst ≠ some path) = [] := by
    refine List.dropWhile_eq_nil_iff.mpr fun other hother => ?_
    simp only [ne_eq, decide_not, Bool.not_eq_true', decide_eq_false_iff_not]
    exact fun hpath => h (mem_routesOf_paths.mpr ⟨other, hother, hpath⟩)
  unfold sinceRoute
  rw [List.dropWhile_append, hnil]
  simp [hroute]

theorem segmentOf_append (h : applied.route.map Prod.fst ≠ some path) :
    segmentOf (done ++ [applied]) path = (segmentOf done path).map fun segment =>
      { segment with layers := segment.layers ++ (applied.wrapOn [path]).toList } := by
  have hlookup : (routesOf (done ++ [applied])).lookup path = (routesOf done).lookup path := by
    rw [routesOf_append, List.lookup_append]
    cases hroute : applied.route with
    | none => simp
    | some route =>
      obtain ⟨mounted, router⟩ := route
      have hne : path ≠ mounted := by
        rintro rfl
        exact h (by rw [hroute]; rfl)
      have hlast : [(mounted, router)].lookup path = none := by
        rw [List.lookup_cons, beq_eq_false_iff_ne.mpr hne, List.lookup_nil]
      simp [hlast]
  unfold segmentOf
  rw [hlookup]
  cases hfound : (routesOf done).lookup path with
  | none => rfl
  | some router =>
    have hmem : path ∈ (routesOf done).map Prod.fst := by
      by_contra hnot
      rw [lookup_routesOf_eq_none hnot] at hfound
      cases hfound
    simp only [Option.map_some, sinceRoute_append hmem, wrapsOn_append]

theorem segmentOf_new {router : Router} (h : path ∉ (routesOf done).map Prod.fst)
    (hroute : applied.route = some (path, router)) :
    segmentOf (done ++ [applied]) path = some (.new router) := by
  unfold segmentOf
  rw [routesOf_append, List.lookup_append, lookup_routesOf_eq_none h,
    sinceRoute_new h (by rw [hroute]; rfl), hroute]
  simp [wrapsOn, RouterSegment.new]

end Append

section Step
variable {start state next : PluginRouteState Router} {done : List (Applied Router)}
  {applied : Applied Router}

theorem composed_start (hmcp : start.pluginSegments = ∅) (horder : start.pluginRouteOrder = [])
    (hroutes : start.pluginRoutes = ∅) : Composed start [] start where
  reserved := rfl
  endpoint := rfl
  mcp := by rw [wrapsOn, List.filterMap_nil, List.append_nil]
  app := by rw [wrapsOn, List.filterMap_nil, List.append_nil]
  order := horder
  taken path := by simp [hroutes, horder]
  distinct := by simp [horder]
  free path h := by simp [horder] at h
  segments path := by rw [hmcp, AList.lookup_empty, segmentOf, routesOf, List.filterMap_nil]; rfl

theorem Composed.not_mem_routes (hs : Composed start done state) {path : String}
    (h : path ∉ state.pluginRoutes) : path ∉ (routesOf done).map Prod.fst := by
  rwa [← hs.order, ← hs.taken]

/-- No plugin has the path of the endpoint. -/
theorem Composed.segmentOf_endpoint (hs : Composed start done state)
    (hstart : start.endpointPath ∈ start.reservedRoutes) :
    segmentOf done start.endpointPath = none := by
  have hfree : start.endpointPath ∉ (routesOf done).map Prod.fst := by
    rw [← hs.order]
    exact fun h => hs.free _ h hstart
  unfold segmentOf
  rw [lookup_routesOf_eq_none hfree]
  rfl

/-- A wrap changes neither the routes nor what is taken. -/
theorem Composed.wrapped (hs : Composed start done state) (hroute : applied.route = none)
    (hkept : next.reservedRoutes = state.reservedRoutes ∧ next.endpointPath = state.endpointPath ∧
      next.pluginRouteOrder = state.pluginRouteOrder ∧ next.pluginRoutes = state.pluginRoutes)
    (hmcp : next.mcpSegment = { state.mcpSegment with
      layers := state.mcpSegment.layers ++ (applied.wrapOn [start.endpointPath]).toList })
    (happ : next.appSegment = { state.appSegment with
      layers := state.appSegment.layers ++ (applied.wrapOn []).toList })
    (hsegments : ∀ path, next.pluginSegments.lookup path =
      (segmentOf done path).map fun segment =>
        { segment with layers := segment.layers ++ (applied.wrapOn [path]).toList }) :
    Composed start (done ++ [applied]) next := by
  obtain ⟨hreserved, hendpoint, horder, hroutes⟩ := hkept
  have hsame : routesOf (done ++ [applied]) = routesOf done := by
    rw [routesOf_append, hroute, Option.toList_none, List.append_nil]
  constructor
  · exact hreserved.trans hs.reserved
  · exact hendpoint.trans hs.endpoint
  · rw [hmcp, hs.mcp, wrapsOn_append, List.append_assoc]
  · rw [happ, hs.app, wrapsOn_append, List.append_assoc]
  · rw [horder, hs.order, hsame]
  · rw [horder, hroutes]
    exact hs.taken
  · rw [horder]
    exact hs.distinct
  · rw [horder]
    exact hs.free
  · intro path
    rw [hsegments, segmentOf_append (by rw [hroute]; exact nofun)]

theorem addNothing_eq (segment : RouterSegment Router) :
    segment = { segment with layers := segment.layers ++ (none : Option (RouterTransform Router)).toList } := by
  rw [Option.toList_none, List.append_nil]

theorem keepSegment_eq (segment : Option (RouterSegment Router)) :
    segment = segment.map fun segment =>
      { segment with layers := segment.layers ++ (none : Option (RouterTransform Router)).toList } := by
  cases segment with
  | none => rfl
  | some segment => exact congrArg some (addNothing_eq segment)

theorem step_composed (hstart : start.endpointPath ∈ start.reservedRoutes)
    (hs : Composed start done state) (h : OpStep state applied next) :
    Composed start (done ++ [applied]) next := by
  have hwrap : ∀ path layer covered, @Applied.wrapOn Router covered
      (⟨.wrap, path⟩, .wrap layer) = if path = "*" ∨ path ∈ covered then some layer else none :=
    fun _ _ _ => rfl
  cases h with
  | route path router unreserved untaken =>
    have hnew := hs.not_mem_routes untaken
    have hroutes : routesOf (done ++ [(⟨.route, path⟩, .route router)]) =
        routesOf done ++ [(path, router)] := routesOf_append
    have hwraps : ∀ covered, wrapsOn covered (done ++ [(⟨.route, path⟩, .route router)]) =
        wrapsOn covered done := by
      intro covered
      rw [wrapsOn_append]
      exact List.append_nil _
    constructor
    · exact hs.reserved
    · exact hs.endpoint
    · rw [hwraps]
      exact hs.mcp
    · rw [hwraps]
      exact hs.app
    · rw [hroutes, List.map_append, ← hs.order]
      rfl
    · intro other
      rw [PluginRouteState.addRoute, Finset.mem_insert, hs.taken, List.mem_append,
        List.mem_singleton, or_comm]
    · rw [PluginRouteState.addRoute, List.nodup_append]
      refine ⟨hs.distinct, List.nodup_singleton path, ?_⟩
      rintro other hother _ hlast rfl
      rw [List.mem_singleton.mp hlast, ← hs.taken] at hother
      exact untaken hother
    · intro other hother
      rw [PluginRouteState.addRoute, List.mem_append, List.mem_singleton] at hother
      rcases hother with hother | rfl
      · exact hs.free other hother
      · rwa [← hs.reserved]
    · intro other
      by_cases heq : other = path
      · subst heq
        rw [PluginRouteState.addRoute, AList.lookup_insert, segmentOf_new hnew rfl]
      · have hne : (@Applied.route Router (⟨.route, path⟩, .route router)).map Prod.fst ≠
            some other := by
          intro hroute
          exact heq (Option.some.inj hroute).symm
        rw [PluginRouteState.addRoute, AList.lookup_insert_ne heq, hs.segments,
          segmentOf_append hne]
        exact keepSegment_eq _
  | wrapAll layer =>
    refine hs.wrapped rfl ⟨rfl, rfl, rfl, rfl⟩ ?_ ?_ ?_
    · rw [hwrap, if_pos (.inl rfl)]
      rfl
    · rw [hwrap, if_pos (.inl rfl)]
      rfl
    · intro path
      rw [hwrap, if_pos (.inl rfl), PluginRouteState.wrapAll, HashMap.lookup_mapValues, hs.segments]
      rfl
  | wrapEndpoint layer own =>
    rw [hs.endpoint] at own ⊢
    refine hs.wrapped rfl ⟨rfl, hs.endpoint.symm, rfl, rfl⟩ ?_ ?_ ?_
    · rw [hwrap, if_pos (.inr List.mem_cons_self)]
      rfl
    · rw [hwrap, if_neg (by simp [own])]
      exact addNothing_eq _
    · intro path
      rw [hs.segments]
      by_cases heq : path = start.endpointPath
      · rw [heq, hs.segmentOf_endpoint hstart]
        rfl
      · rw [hwrap, if_neg (by simp [own, Ne.symm heq])]
        exact keepSegment_eq _
  | wrapRoute path layer segment own other found =>
    rw [hs.endpoint] at other
    refine hs.wrapped rfl ⟨rfl, rfl, rfl, rfl⟩ ?_ ?_ ?_
    · rw [hwrap, if_neg (by simp [own, other])]
      exact addNothing_eq _
    · rw [hwrap, if_neg (by simp [own])]
      exact addNothing_eq _
    · intro otherPath
      by_cases heq : otherPath = path
      · subst heq
        rw [AList.lookup_insert, ← hs.segments, found, hwrap, if_pos (.inr List.mem_cons_self)]
        rfl
      · rw [AList.lookup_insert_ne heq, hs.segments, hwrap, if_neg (by simp [own, Ne.symm heq])]
        exact keepSegment_eq _

end Step

/-! ## All plugins -/

/-- What one plugin made of its targets. -/
def Answered (plugins : String → Option (HttpRouterPlugin Router)) (ctx : RuntimeContext)
    (pluginCfg : PluginConfig) (part : List (Applied Router)) : Prop :=
  ∃ plugin targets ops, plugins pluginCfg.name = some plugin ∧
    normalizeTargets (pluginCfg.targets.getD []) = .ok targets ∧
    plugin.apply ctx targets (pluginCfg.config.getD .null) = .ok ops ∧
    ops.length = targets.length ∧ part = targets.zip ops

section Plugins
variable {start state next : PluginRouteState Router} {done : List (Applied Router)}
  {plugins : String → Option (HttpRouterPlugin Router)} {ctx : RuntimeContext}

theorem applyOps_composed {pluginName : String} {targets : List HttpRouterTarget}
    {ops : List (HttpRouterOp Router)} (hstart : start.endpointPath ∈ start.reservedRoutes)
    (hs : Composed start done state) (h : state.applyOps pluginName targets ops = .ok next) :
    Composed start (done ++ targets.zip ops) next := by
  have hmain := (runs_of_foldlM h).history
    (fun entries state => Composed start (done ++ entries.map Prod.fst) state) ?_ (by simpa using hs)
  · simpa using hmain
  · intro entries state entry next hs hstep
    rw [List.map_append, ← List.append_assoc]
    exact step_composed hstart hs (applyOp_step hstep)

theorem processPlugin_composed {pluginCfg : PluginConfig}
    (hstart : start.endpointPath ∈ start.reservedRoutes) (hs : Composed start done state)
    (h : state.processPlugin plugins ctx pluginCfg = .ok next) :
    ∃ part, Answered plugins ctx pluginCfg part ∧ Composed start (done ++ part) next := by
  unfold PluginRouteState.processPlugin at h
  simp only at h
  split at h
  · cases h
  · obtain ⟨targets, htargets, h⟩ := bind_eq_ok h
    split at h
    · cases h
    · rename_i plugin hplugin
      obtain ⟨ops, hops, h⟩ := bind_eq_ok h
      split at h
      · cases h
      · rename_i hlength
        exact ⟨targets.zip ops, ⟨plugin, targets, ops, hplugin, htargets, hops, not_not.mp hlength,
          rfl⟩, applyOps_composed hstart hs h⟩

theorem processPlugins_composed {routerPlugins : List PluginConfig}
    (hstart : start.endpointPath ∈ start.reservedRoutes) (hs : Composed start [] start)
    (h : start.processPlugins plugins routerPlugins ctx = .ok state) :
    ∃ parts, List.Forall₂ (Answered plugins ctx) routerPlugins parts ∧
      Composed start parts.flatten state := by
  refine (runs_of_foldlM h).history
    (fun pluginCfgs state => ∃ parts, List.Forall₂ (Answered plugins ctx) pluginCfgs parts ∧
      Composed start parts.flatten state) ?_ ⟨[], .nil, hs⟩
  rintro pluginCfgs state pluginCfg next ⟨parts, hparts, hs⟩ hstep
  obtain ⟨part, hpart, hnext⟩ := processPlugin_composed hstart hs hstep
  refine ⟨parts ++ [part], List.rel_append hparts (.cons hpart .nil), ?_⟩
  rwa [List.flatten_append, List.flatten_singleton]

end Plugins

/-! ## The router -/

/-- The routes of the plugins with their layers. -/
def mounts (done : List (Applied Router)) : List (String × Router) :=
  (routesOf done).map fun route =>
    (route.1, wrapAround (wrapsOn [route.1] (sinceRoute route.1 done)) route.2)

section Assemble
variable (ax : Axum Router Service) (layers : ServerLayers Service)

/-- The layers the segment of the endpoint has before any plugin. -/
def hardeningLayers (hardening : StreamableHttpHardeningConfig) : List (RouterTransform Router) :=
  (if hardening.catchPanics then [fun router => ax.layer router layers.catchPanic] else []) ++
    if hardening.sanitizeSensitiveHeaders then
      [fun router => ax.layer router (layers.setSensitiveRequestHeaders SENSITIVE_REQUEST_HEADERS),
        fun router => ax.layer router
          (layers.setSensitiveResponseHeaders SENSITIVE_RESPONSE_HEADERS)]
    else []

theorem parse_sensitive :
    parseSensitiveHeaderNames SENSITIVE_REQUEST_HEADERS = .ok SENSITIVE_REQUEST_HEADERS ∧
      parseSensitiveHeaderNames SENSITIVE_RESPONSE_HEADERS = .ok SENSITIVE_RESPONSE_HEADERS :=
  ⟨rfl, rfl⟩

theorem hardeningLayers_eq (router : Router) (hardening : StreamableHttpHardeningConfig) :
    applyStreamableHttpHardeningLayers ax layers (.new router) hardening =
      .ok ⟨router, hardeningLayers ax layers hardening⟩ := by
  obtain ⟨hrequest, hresponse⟩ := parse_sensitive
  unfold applyStreamableHttpHardeningLayers hardeningLayers
  rw [hrequest, hresponse]
  cases hardening.catchPanics <;> cases hardening.sanitizeSensitiveHeaders <;> rfl

/-- The last loop, over the segments themselves. -/
theorem foldlM_mountNext {segments : HashMap String (RouterSegment Router)} {app : Router}
    {built : List (String × Router)} (hnodup : (built.map Prod.fst).Nodup)
    (hbuilt : ∀ mount ∈ built, (segments.lookup mount.1).map RouterSegment.build = some mount.2) :
    ((built.map Prod.fst).foldlM (PluginRouteState.mountNext ax) (app, segments)).map Prod.fst =
      built.foldlM (fun app mount => ax.nest app mount.1 mount.2) app := by
  induction built generalizing segments app with
  | nil => rfl
  | cons mount built ih =>
    obtain ⟨path, router⟩ := mount
    rw [List.map_cons, List.nodup_cons] at hnodup
    obtain ⟨segment, hsegment, rfl⟩ := Option.map_eq_some_iff.mp (hbuilt _ List.mem_cons_self)
    have hrest : ∀ mount ∈ built,
        ((segments.erase path).lookup mount.1).map RouterSegment.build = some mount.2 := by
      intro mount hmount
      have hne : mount.1 ≠ path := by
        intro heq
        have hmem : mount.1 ∈ built.map Prod.fst := List.mem_map_of_mem hmount
        rw [heq] at hmem
        exact hnodup.1 hmem
      rw [AList.lookup_erase_ne hne]
      exact hbuilt mount (List.mem_cons_of_mem _ hmount)
    have hnext : PluginRouteState.mountNext ax (app, segments) path =
        (ax.nest app path segment.build).map fun app => (app, segments.erase path) := by
      unfold PluginRouteState.mountNext
      rw [hsegment]
    rw [List.map_cons, List.foldlM_cons, List.foldlM_cons, hnext]
    cases ax.nest app path segment.build with
    | none => rfl
    | some app => exact ih hnodup.2 hrest

theorem Composed.assemble_eq {start state : PluginRouteState Router}
    {done : List (Applied Router)} (hs : Composed start done state) :
    state.assemble ax = (ax.merge state.appSegment.build state.mcpSegment.build).bind fun app =>
      (mounts done).foldlM (fun app mount => ax.nest app mount.1 mount.2) app := by
  have hpaths : (mounts done).map Prod.fst = (routesOf done).map Prod.fst := by
    rw [mounts, List.map_map]
    rfl
  have hnodup := hs.distinct
  rw [hs.order] at hnodup
  have hbuilt : ∀ mount ∈ mounts done,
      (state.pluginSegments.lookup mount.1).map RouterSegment.build = some mount.2 := by
    intro mount hmount
    obtain ⟨route, hroute, rfl⟩ := List.mem_map.mp hmount
    rw [hs.segments, segmentOf, lookup_routesOf_of_mem hnodup hroute, Option.map_some,
      Option.map_some, RouterSegment.build, applyLayers_eq]
  unfold PluginRouteState.assemble
  congr 1
  funext app
  rw [hs.order, ← hpaths]
  exact foldlM_mountNext ax (by rwa [hpaths]) hbuilt

/-- The plugins' routes are new and distinct. The layers of a segment are those for its path
or for all paths that came after it, the first outermost, those of the endpoint inside the
hardening layers; and each route is mounted once. -/
theorem processPlugins_composition {mcpRouter appRouter : Router} {endpointPath : String}
    {authState : AuthState} {hardening : StreamableHttpHardeningConfig}
    {plugins : String → Option (HttpRouterPlugin Router)} {routerPlugins : List PluginConfig}
    {ctx : RuntimeContext} {mcpSegment : RouterSegment Router} {state : PluginRouteState Router}
    (hardened : applyStreamableHttpHardeningLayers ax layers (.new mcpRouter) hardening =
      .ok mcpSegment)
    (accepted : PluginRouteState.processPlugins plugins routerPlugins ctx
      { PluginRouteState.new mcpRouter appRouter endpointPath authState with mcpSegment } =
        .ok state) :
    ∃ parts, List.Forall₂ (Answered plugins ctx) routerPlugins parts ∧
      state.pluginRouteOrder = (routesOf parts.flatten).map Prod.fst ∧
      state.pluginRouteOrder.Nodup ∧
      (∀ path ∈ state.pluginRouteOrder, path ≠ endpointPath ∧
        (authState.oauthEnabled = true → path ≠ OAUTH_METADATA_PATH ∧
          path ≠ oauthResourceMetadataEndpointPath endpointPath)) ∧
      state.mcpSegment =
        ⟨mcpRouter, hardeningLayers ax layers hardening ++ wrapsOn [endpointPath] parts.flatten⟩ ∧
      state.appSegment = ⟨appRouter, wrapsOn [] parts.flatten⟩ ∧
      (∀ path, state.pluginSegments.lookup path = segmentOf parts.flatten path) ∧
      state.assemble ax =
        (ax.merge (wrapAround (wrapsOn [] parts.flatten) appRouter)
          (wrapAround (hardeningLayers ax layers hardening)
            (wrapAround (wrapsOn [endpointPath] parts.flatten) mcpRouter))).bind fun app =>
          (mounts parts.flatten).foldlM (fun app mount => ax.nest app mount.1 mount.2) app := by
  rw [hardeningLayers_eq] at hardened
  cases hardened
  obtain ⟨parts, hparts, hs⟩ := processPlugins_composed
    (mem_reservedPaths.mpr (.inl rfl)) (composed_start rfl rfl rfl) accepted
  have hmcp : state.mcpSegment = ⟨mcpRouter, hardeningLayers ax layers hardening ++
    wrapsOn [endpointPath] parts.flatten⟩ := hs.mcp
  have happ : state.appSegment = ⟨appRouter, wrapsOn [] parts.flatten⟩ := hs.app
  refine ⟨parts, hparts, hs.order, hs.distinct, ?_, hmcp, happ, hs.segments, ?_⟩
  · intro path hpath
    have hfree := mt mem_reservedPaths.mpr (hs.free path hpath)
    rw [not_or] at hfree
    refine ⟨hfree.1, fun henabled => ?_⟩
    simpa only [henabled, true_and, not_or] using hfree.2
  · rw [hs.assemble_eq, hmcp, happ, RouterSegment.build, RouterSegment.build, applyLayers_eq,
      applyLayers_eq, wrapAround_append]

end Assemble

/-- Services that count the layers around them. -/
def countedLayers : ServerLayers ℕ where
  streamableHttpService _ := 0
  oauthResourceMetadata _ := 0
  catchPanic := Nat.succ
  setSensitiveRequestHeaders _ := Nat.succ
  setSensitiveResponseHeaders _ := Nat.succ
  requestBodyLimit _ := Nat.succ
  governor _ := Nat.succ
  sessionCreationRateLimit _ := Nat.succ
  protocolVersionNegotiation _ := Nat.succ
  routeGuard _ := Nat.succ
  authMiddleware _ := Nat.succ

def metricsConfig : PluginConfig where
  name := "metrics"
  pluginType := .httpRouter
  targets := some [⟨.wrap, "*"⟩, ⟨.route, "metrics/"⟩, ⟨.wrap, "/metrics"⟩, ⟨.wrap, "/mcp"⟩]
  config := none

/-- A plugin with a route of its own. -/
def metricsPlugin : HttpRouterPlugin (Axum.Table ℕ) where
  apply _ _ _ :=
    let counted := .wrap fun router => (Axum.table ℕ).layer router Nat.succ
    .ok [counted, .route { Axum.Table.empty ℕ with entries := [(Axum.getPlace "/", 0)] }, counted,
      counted]

def metricsEndpoint : Axum.Table ℕ :=
  { Axum.Table.empty ℕ with entries := [(⟨"/mcp", none⟩, 0)] }

def metricsStart : PluginRouteState (Axum.Table ℕ) :=
  { PluginRouteState.new metricsEndpoint (.empty ℕ) "/mcp"
      (oauthState (.jwks (jwksProvider [] []))) with
    mcpSegment := ⟨metricsEndpoint, hardeningLayers (.table ℕ) countedLayers .default⟩ }

theorem metrics_composition : ∃ state,
    metricsStart.processPlugins (fun _ => some metricsPlugin) [metricsConfig]
      ⟨⟨true, true, none⟩, none⟩ = .ok state ∧
    state.pluginRouteOrder.Nodup ∧ ∀ path ∈ state.pluginRouteOrder, path ≠ "/mcp" := by
  have haccepted : (metricsStart.processPlugins (fun _ => some metricsPlugin) [metricsConfig]
      ⟨⟨true, true, none⟩, none⟩).toBool = true := by decide +kernel
  cases hstate : metricsStart.processPlugins (fun _ => some metricsPlugin) [metricsConfig]
      ⟨⟨true, true, none⟩, none⟩ with
  | error e =>
    rw [hstate] at haccepted
    cases haccepted
  | ok state =>
    obtain ⟨_, _, _, hnodup, hfree, _⟩ := processPlugins_composition (.table ℕ) countedLayers
      (hardeningLayers_eq _ _ _ _) hstate
    exact ⟨state, rfl, hnodup, fun path hpath => (hfree path hpath).1⟩

end RustMcpCore
