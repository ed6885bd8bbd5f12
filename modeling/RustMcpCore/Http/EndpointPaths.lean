import RustMcpCore.Http.Mounting
import RustMcpCore.Library.Scanning

/-! # The path of the endpoint

The endpoint and the targets of plugins are normalized by different functions. What the
first makes of a path is said by its shape, and what it means for the second follows.
-/
namespace RustMcpCore
open Library

structure CanonicalPath (path : String) : Prop where
  leads : path.toList.head? = some '/'
  ends : path = "/" ∨ path.toList.getLast? ≠ some '/'
  starts_trimmed : ∀ c ∈ path.toList.head?, Text.isWhitespace c = false
  ends_trimmed : ∀ c ∈ path.toList.getLast?, Text.isWhitespace c = false

/-- A path whose trailing slashes, if it is not the root, stand behind something that is not
white space. -/
def TidyPath (path : String) : Prop :=
  Text.trim path = "" ∨ Text.trim path = "/" ∨
    ∃ c, (Text.trimEndMatches (Text.trim path) '/').toList.getLast? = some c ∧
      Text.isWhitespace c = false

/-- A path that the endpoint has is the path of the endpoint wherever else it is written. -/
structure NamesEndpoint (path : String) : Prop where
  canonical : CanonicalPath (normalizeEndpointPath path)
  fixed : normalizeEndpointPath (normalizeEndpointPath path) = normalizeEndpointPath path
  target : Text.trim path ≠ "" → Text.trim path ≠ "*" →
    normalizeTargetPath path = .ok (normalizeEndpointPath path)
  wraps : Text.trim path ≠ "" → Text.trim path ≠ "*" →
    ∀ {Router : Type} (pluginName : String) (state : PluginRouteState Router)
      (layer : RouterTransform Router) (index : ℕ),
      state.endpointPath = normalizeEndpointPath path →
      ∃ target, normalizeTarget ⟨.wrap, path⟩ = .ok target ∧
        state.applyOp pluginName ((target, .wrap layer), index) =
          .ok { state with mcpSegment := state.mcpSegment.addLayer layer }
  collides : Text.trim path ≠ "" → Text.trim path ≠ "*" →
    ∀ {Router : Type} (pluginName : String) (state : PluginRouteState Router)
      (op : HttpRouterOp Router) (index : ℕ),
      normalizeEndpointPath path ∈ state.reservedRoutes →
      ∃ target, normalizeTarget ⟨.route, path⟩ = .ok target ∧
        state.applyOp pluginName ((target, op), index) = .error (.invalidRequest
          (s!"http router plugin {pluginName} target {index} collides with " ++
            s!"existing route: {normalizeEndpointPath path}") none)

section Shapes
variable {path : String}

theorem getLast?_trimEndMatches (s : String) (c : Char) :
    (Text.trimEndMatches s c).toList.getLast? ≠ some c := by
  rw [Text.trimEndMatches, String.toList_ofList]
  intro h
  have hne : s.toList.rdropWhile (· = c) ≠ [] := by
    intro hnil
    rw [hnil] at h
    cases h
  have hlast := List.rdropWhile_last_not (· = c) s.toList hne
  rw [List.getLast?_eq_some_getLast hne, Option.some.injEq] at h
  rw [h] at hlast
  exact hlast (decide_eq_true rfl)

theorem trimEndMatches_eq_self {s : String} {c : Char} (h : s.toList.getLast? ≠ some c) :
    Text.trimEndMatches s c = s := by
  rw [← String.toList_inj, Text.trimEndMatches, String.toList_ofList, List.rdropWhile_eq_self_iff]
  intro hne hlast
  rw [List.getLast?_eq_some_getLast hne, of_decide_eq_true hlast] at h
  exact h rfl

theorem head?_trimEndMatches_of_ne {s : String} {c : Char} (h : Text.trimEndMatches s c ≠ "") :
    (Text.trimEndMatches s c).toList.head? = s.toList.head? := by
  rw [Ne, ← String.toList_inj, Text.trimEndMatches, String.toList_ofList] at h
  rw [Text.trimEndMatches, String.toList_ofList]
  obtain ⟨rest, hrest⟩ := s.toList.rdropWhile_prefix (fun d => decide (d = c))
  rw [← List.head?_append_of_ne_nil _ h, hrest]

theorem normalizeEndpointPath_inner (hempty : Text.trim path ≠ "") (hroot : Text.trim path ≠ "/") :
    normalizeEndpointPath path =
      if (Text.trim path).toList.head? = some '/' then Text.trimEndMatches (Text.trim path) '/'
      else "/" ++ Text.trimEndMatches (Text.trim path) '/' := by
  simp only [normalizeEndpointPath, hempty, hroot, if_false]

theorem normalizeTargetPath_inner (hempty : Text.trim path ≠ "") (hroot : Text.trim path ≠ "/")
    (hstar : Text.trim path ≠ "*") :
    normalizeTargetPath path = .ok
      (if (Text.trimEndMatches (Text.trim path) '/').toList.head? = some '/' then
        Text.trimEndMatches (Text.trim path) '/'
      else "/" ++ Text.trimEndMatches (Text.trim path) '/') := by
  simp only [normalizeTargetPath, hempty, hroot, hstar, if_false]
  split
  · rfl
  · rfl

/-- The end of a path that is not the root is the end of what its trailing slashes leave. -/
theorem getLast?_normalizeEndpointPath (hempty : Text.trim path ≠ "")
    (hroot : Text.trim path ≠ "/") (hleft : Text.trimEndMatches (Text.trim path) '/' ≠ "") :
    (normalizeEndpointPath path).toList.getLast? =
      (Text.trimEndMatches (Text.trim path) '/').toList.getLast? := by
  rw [normalizeEndpointPath_inner hempty hroot]
  split
  · rfl
  · rw [String.toList_append, List.getLast?_append_of_ne_nil]
    exact mt String.toList_eq_nil_iff.mp hleft

theorem isWhitespace_slash : Text.isWhitespace '/' = false := by decide

theorem canonical_root : CanonicalPath "/" where
  leads := rfl
  ends := .inl rfl
  starts_trimmed := by
    intro c hc
    cases hc
    exact isWhitespace_slash
  ends_trimmed := by
    intro c hc
    cases hc
    exact isWhitespace_slash

/-- A path that begins with a slash needs to be canonical at its end only. -/
theorem canonical_of_end (hleads : path.toList.head? = some '/')
    (hends : path.toList.getLast? ≠ some '/')
    (hblack : ∀ c ∈ path.toList.getLast?, Text.isWhitespace c = false) : CanonicalPath path where
  leads := hleads
  ends := .inr hends
  starts_trimmed := by
    intro c hc
    cases hleads.symm.trans hc
    exact isWhitespace_slash
  ends_trimmed := hblack

/-- A canonical path is normalized already. -/
theorem CanonicalPath.fixed (h : CanonicalPath path) : normalizeEndpointPath path = path := by
  have htrim : Text.trim path = path := Text.trim_eq_self h.starts_trimmed h.ends_trimmed
  have hempty : path ≠ "" := by
    rintro rfl
    cases h.leads
  rcases h.ends with rfl | hends
  · simp only [normalizeEndpointPath, htrim, hempty, if_false, if_true]
  · have hroot : path ≠ "/" := by
      rintro rfl
      exact hends rfl
    rw [normalizeEndpointPath_inner (by rwa [htrim]) (by rwa [htrim]), htrim, if_pos h.leads,
      trimEndMatches_eq_self hends]

/-- What the trailing slashes of a path leave is not empty, and the endpoint ends with it. -/
theorem tidy_inner {c : Char}
    (hlast : (Text.trimEndMatches (Text.trim path) '/').toList.getLast? = some c) :
    Text.trimEndMatches (Text.trim path) '/' ≠ "" := by
  intro hnone
  rw [hnone] at hlast
  cases hlast

theorem TidyPath.canonical (h : TidyPath path) : CanonicalPath (normalizeEndpointPath path) := by
  rcases h with hempty | hroot | ⟨c, hlast, hblack⟩
  · have hdefault : normalizeEndpointPath path = "/mcp" := by
      simp only [normalizeEndpointPath, hempty, if_true]
    rw [hdefault]
    refine canonical_of_end rfl (by decide) ?_
    intro c hc
    cases hc
    rfl
  · have hslash : normalizeEndpointPath path = "/" := by
      simp only [normalizeEndpointPath, hroot, if_true]
      rfl
    rw [hslash]
    exact canonical_root
  · have hleft := tidy_inner hlast
    have hempty : Text.trim path ≠ "" := by
      intro hempty
      rw [hempty] at hleft
      exact hleft rfl
    by_cases hroot : Text.trim path = "/"
    · rw [hroot] at hleft
      exact absurd rfl hleft
    · have hend := getLast?_normalizeEndpointPath hempty hroot hleft
      refine canonical_of_end ?_ ?_ ?_
      · rcases head?_normalizeEndpointPath path with hnone | hleads
        · rw [hnone, hlast] at hend
          cases hend
        · exact hleads
      · rw [hend]
        exact getLast?_trimEndMatches _ '/'
      · rw [hend, hlast]
        intro d hd
        cases hd
        exact hblack

theorem TidyPath.of_canonical (h : CanonicalPath (normalizeEndpointPath path)) : TidyPath path := by
  by_cases hempty : Text.trim path = ""
  · exact .inl hempty
  by_cases hroot : Text.trim path = "/"
  · exact .inr (.inl hroot)
  refine .inr (.inr ?_)
  have hleft : Text.trimEndMatches (Text.trim path) '/' ≠ "" := by
    intro hnone
    have hhead : (Text.trim path).toList.head? = some '/' := by
      cases htrim : (Text.trim path).toList with
      | nil => exact absurd (String.toList_eq_nil_iff.mp htrim) hempty
      | cons first rest =>
        have hfirst := trimEndMatches_eq_empty.mp hnone first (by rw [htrim]; exact List.mem_cons_self)
        rw [List.head?_cons, hfirst]
    have hleads := h.leads
    rw [normalizeEndpointPath_inner hempty hroot, if_pos hhead, hnone] at hleads
    cases hleads
  have hend := getLast?_normalizeEndpointPath hempty hroot hleft
  cases hlast : (Text.trimEndMatches (Text.trim path) '/').toList.getLast? with
  | none => exact absurd (String.toList_eq_nil_iff.mp (List.getLast?_eq_none_iff.mp hlast)) hleft
  | some c =>
    refine ⟨c, rfl, h.ends_trimmed c ?_⟩
    rw [hend]
    exact hlast

theorem TidyPath.target (h : TidyPath path) (hempty : Text.trim path ≠ "")
    (hstar : Text.trim path ≠ "*") :
    normalizeTargetPath path = .ok (normalizeEndpointPath path) := by
  by_cases hroot : Text.trim path = "/"
  · simp only [normalizeTargetPath, normalizeEndpointPath, hroot]
    rfl
  · obtain ⟨c, hlast, -⟩ := (h.resolve_left hempty).resolve_left hroot
    rw [normalizeTargetPath_inner hempty hroot hstar, normalizeEndpointPath_inner hempty hroot,
      head?_trimEndMatches_of_ne (tidy_inner hlast)]

/-- The endpoint is never written as the wildcard. -/
theorem normalizeEndpointPath_ne_star (path : String) : normalizeEndpointPath path ≠ "*" := by
  intro hstar
  rcases head?_normalizeEndpointPath path with h | h
  · exact absurd (hstar.symm.trans h) (by decide)
  · rw [hstar] at h
    cases h

theorem normalizeTarget_of_path {targetType : HttpRouterTargetType} {normalized : String}
    (h : normalizeTargetPath path = .ok normalized) (hstar : normalized ≠ "*") :
    normalizeTarget ⟨targetType, path⟩ = .ok ⟨targetType, normalized⟩ := by
  unfold normalizeTarget
  rw [h]
  exact if_neg fun hboth => hstar hboth.2

end Shapes

/-- The endpoint path is canonical, and targets written like it mean the endpoint, exactly for
tidy paths. -/
theorem namesEndpoint_iff (path : String) : NamesEndpoint path ↔ TidyPath path := by
  constructor
  · intro h
    exact TidyPath.of_canonical h.canonical
  · intro h
    refine ⟨h.canonical, h.canonical.fixed, h.target, ?_, ?_⟩
    · intro hempty hstar Router pluginName state layer index hendpoint
      refine ⟨_, normalizeTarget_of_path (h.target hempty hstar) (normalizeEndpointPath_ne_star path), ?_⟩
      simp [PluginRouteState.applyOp, hendpoint, normalizeEndpointPath_ne_star path]
    · intro hempty hstar Router pluginName state op index hreserved
      refine ⟨_, normalizeTarget_of_path (h.target hempty hstar) (normalizeEndpointPath_ne_star path), ?_⟩
      have hcollides : normalizeEndpointPath path ∈ state.reservedRoutes ∨
          normalizeEndpointPath path ∈ state.pluginRoutes := .inl hreserved
      simp only [PluginRouteState.applyOp, if_pos hcollides]

/-- Slashes alone leave an empty path. -/
theorem slashes_not_named : normalizeEndpointPath "//" = "" ∧ ¬ NamesEndpoint "//" := by
  refine ⟨rfl, fun h => ?_⟩
  have hleads := h.canonical.leads
  cases hleads

end RustMcpCore
