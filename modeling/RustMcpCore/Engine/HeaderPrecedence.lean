import RustMcpCore.Engine.HeaderAgreement

/-! # Which header wins

Headers are set in layers, and a later layer is meant to replace what an earlier one has set. The
map is keyed by the spelling of a name, where a header is known by its name in any case.
-/
namespace RustMcpCore
open Library

/-! ## Layers -/

section Layers
variable {V : Type}

/-- What a header is set to, in whatever spelling. -/
def ofHeader (name : String) (settings : List (String × V)) : List V :=
  (settings.filter fun setting => Text.eqIgnoreAsciiCase setting.1 name).map (·.2)

/-- Every header has the value that the last layer to set it has for it, and no other. -/
def LastWins (layers : List (List (String × V))) (entries : List (String × V)) : Prop :=
  ∀ name, ofHeader name entries =
    (layers.reverse.findSome? fun layer => (ofHeader name layer).getLast?).toList

/-- No header is spelled in two ways. -/
def SpelledAlike (layers : List (List (String × V))) : Prop :=
  ∀ setting ∈ layers.flatten, ∀ other ∈ layers.flatten,
    Text.eqIgnoreAsciiCase setting.1 other.1 → setting.1 = other.1

theorem ofHeader_flatten (name : String) (layers : List (List (String × V))) :
    (ofHeader name layers.flatten).getLast? =
      layers.reverse.findSome? fun layer => (ofHeader name layer).getLast? := by
  have hflatten : ofHeader name layers.flatten = (layers.map (ofHeader name)).flatten := by
    unfold ofHeader
    rw [List.filter_flatten, List.map_flatten, List.map_map]
    rfl
  rw [hflatten, List.getLast?_flatten, ← List.map_reverse, List.findSome?_map]
  rfl

end Layers

/-! ## Maps by spelling -/

section Spelling
variable {settings : List (String × Value)} {key name : String}

theorem eqIgnoreAsciiCase_iff {s other : String} :
    Text.eqIgnoreAsciiCase s other ↔ Text.toAsciiLowercase s = Text.toAsciiLowercase other :=
  decide_eq_true_iff

theorem filter_key {map : Map} (h : Map.Sorted map) (key : String) :
    map.filter (·.1 = key) = (map.lookup key).toList.map (key, ·) := by
  induction map with
  | nil => rfl
  | cons head rest ih =>
    obtain ⟨found, old⟩ := head
    obtain ⟨hhead, hrest⟩ := List.pairwise_cons.mp h
    rw [Map.lookup_cons, List.filter_cons]
    by_cases hkey : key = found
    · have hothers : rest.filter (·.1 = key) = [] := by
        refine List.filter_eq_nil_iff.mpr fun member hmember => ?_
        rw [decide_eq_true_iff, hkey]
        exact (hhead member hmember).ne'
      rw [hothers, if_pos (decide_eq_true hkey.symm), if_pos hkey, hkey]
      rfl
    · have hfound : ¬ decide (found = key) := fun h => hkey (of_decide_eq_true h).symm
      rw [if_neg hfound, if_neg hkey, ih hrest]

theorem lookup_eq_head (settings : List (String × Value)) (key : String) :
    settings.lookup key = ((settings.filter (·.1 = key)).map (·.2)).head? := by
  induction settings with
  | nil => rfl
  | cons setting rest ih =>
    obtain ⟨found, value⟩ := setting
    rw [Map.lookup_cons, List.filter_cons]
    by_cases hkey : key = found
    · rw [if_pos hkey, if_pos (decide_eq_true hkey.symm)]
      rfl
    · have hfound : ¬ decide (found = key) := fun h => hkey (of_decide_eq_true h).symm
      rw [if_neg hkey, if_neg hfound, ih]

theorem mem_settings_of_mem_overlay {entry : String × Value} (h : entry ∈ Map.overlay [] settings) :
    entry ∈ settings := by
  obtain ⟨found, value⟩ := entry
  exact Map.mem_of_lookup_overlay ((Map.lookup_eq_some_iff (Map.sorted_overlay .nil settings)).mpr h)

theorem mem_overlay_of_mem_settings {setting : String × Value} (h : setting ∈ settings) :
    ∃ value, (setting.1, value) ∈ Map.overlay [] settings := by
  obtain ⟨value, hvalue⟩ := Map.exists_lookup_overlay h
  exact ⟨value, (Map.lookup_eq_some_iff (Map.sorted_overlay .nil settings)).mp hvalue⟩

theorem ofHeader_eq_nil {entries : List (String × Value)}
    (h : ∀ entry ∈ entries, ¬ Text.eqIgnoreAsciiCase entry.1 name) : ofHeader name entries = [] := by
  rw [ofHeader, List.filter_eq_nil_iff.mpr h, List.map_nil]

/-- Where a header has one spelling, the map has what it was last set to. -/
theorem ofHeader_of_spelling (hkey : ∀ setting ∈ settings,
      Text.eqIgnoreAsciiCase setting.1 name = decide (setting.1 = key)) :
    ofHeader name (Map.overlay [] settings) = (ofHeader name settings).getLast?.toList := by
  have hfilter : ∀ entries : List (String × Value), (∀ entry ∈ entries, entry ∈ settings) →
      ofHeader name entries = (entries.filter (·.1 = key)).map (·.2) :=
    fun entries hentries => by
      rw [ofHeader, List.filter_congr fun entry hentry => hkey entry (hentries entry hentry)]
  rw [hfilter _ fun _ => mem_settings_of_mem_overlay, hfilter settings fun _ => id,
    filter_key (Map.sorted_overlay .nil settings), Map.lookup_overlay_nil, lookup_eq_head,
    List.filter_reverse, List.map_reverse, List.head?_reverse, List.map_map]
  exact List.map_id _

theorem eq_of_map_toList {A B : Type} {f : A → B} {list : List A} {value : Option B} {a b : A}
    (h : list.map f = value.toList) (ha : a ∈ list) (hb : b ∈ list) : a = b := by
  cases value with
  | none =>
    rw [List.map_eq_nil_iff.mp h] at ha
    exact absurd ha List.not_mem_nil
  | some value =>
    obtain ⟨only, honly, -⟩ := List.map_eq_singleton_iff.mp h
    rw [honly] at ha hb
    exact (List.mem_singleton.mp ha).trans (List.mem_singleton.mp hb).symm

/-- A map by spelling keeps to the order of the layers exactly when there is one spelling. -/
theorem lastWins_overlay_iff (layers : List (List (String × Value))) :
    LastWins layers (Map.overlay [] layers.flatten) ↔ SpelledAlike layers := by
  unfold LastWins SpelledAlike
  simp only [← ofHeader_flatten]
  generalize layers.flatten = settings
  constructor
  · intro h setting hsetting other hother hsame
    obtain ⟨value, hvalue⟩ := mem_overlay_of_mem_settings hsetting
    obtain ⟨value', hvalue'⟩ := mem_overlay_of_mem_settings hother
    have hself : Text.eqIgnoreAsciiCase other.1 other.1 := eqIgnoreAsciiCase_iff.mpr rfl
    have hentry : (setting.1, value) ∈ (Map.overlay [] settings).filter
        fun entry => Text.eqIgnoreAsciiCase entry.1 other.1 := List.mem_filter.mpr ⟨hvalue, hsame⟩
    have hentry' : (other.1, value') ∈ (Map.overlay [] settings).filter
        fun entry => Text.eqIgnoreAsciiCase entry.1 other.1 := List.mem_filter.mpr ⟨hvalue', hself⟩
    exact (Prod.mk.inj (eq_of_map_toList (h other.1) hentry hentry')).1
  · intro h name
    by_cases hset : ∃ setting ∈ settings, Text.eqIgnoreAsciiCase setting.1 name
    · obtain ⟨setting, hsetting, hname⟩ := hset
      have hspelled : ∀ other ∈ settings, Text.eqIgnoreAsciiCase other.1 name =
          decide (other.1 = setting.1) := by
        intro other hother
        rw [Bool.eq_iff_iff, decide_eq_true_iff]
        constructor
        · intro hsame
          refine h other hother setting hsetting ?_
          rw [eqIgnoreAsciiCase_iff] at hname hsame ⊢
          exact hsame.trans hname.symm
        · intro heq
          rw [heq]
          exact hname
      exact ofHeader_of_spelling hspelled
    · rw [not_exists] at hset
      have hnone : ∀ setting ∈ settings, ¬ Text.eqIgnoreAsciiCase setting.1 name :=
        fun setting hsetting hname => hset setting ⟨hsetting, hname⟩
      rw [ofHeader_eq_nil hnone, ofHeader_eq_nil fun entry hentry =>
        hnone entry (mem_settings_of_mem_overlay hentry)]
      rfl

end Spelling

namespace Outbound

/-! ## The layers of a request -/

section Request
variable (base64 : String → String) (outboundHttp : Option OutboundHttpConfig)
  (upstream : UpstreamConfig) (auth : PluginRequestAuth)

/-- The user agent of a layer, and then its headers. -/
def configuredSettings (userAgent : Option String) (headers : HashMap String String) :
    List (String × String) :=
  userAgent.toList.map ("User-Agent", ·) ++ headers.entries.map fun entry => (entry.1, entry.2)

def staticSettings : List (String × String) :=
  if auth.includeUpstreamAuth then
    (staticAuthorization base64 upstream.auth).toList.map ("Authorization", ·)
  else []

/-- Defaults, upstream, static credentials, token and explicit credentials. -/
def baseLayers : List (List (String × String)) :=
  [(outboundHttp.map fun outboundHttp =>
      configuredSettings outboundHttp.userAgent outboundHttp.headers).getD [],
    configuredSettings upstream.userAgent upstream.headers,
    staticSettings base64 upstream auth,
    auth.oauth2Bearer.toList.map fun token => ("Authorization", s!"Bearer {token}"),
    auth.explicitAuthorization.toList.map ("Authorization", ·)]

/-- Headers as they stand in a map. -/
def asMembers (settings : List (String × String)) : List (String × Value) :=
  settings.map fun setting => (setting.1, .string setting.2)

variable {base64 outboundHttp upstream auth}

theorem insertUserAgent_eq (headers : Map) (userAgent : Option String) :
    insertUserAgent headers userAgent =
      Map.overlay headers (asMembers (userAgent.toList.map ("User-Agent", ·))) := by
  cases userAgent with
  | none => rfl
  | some userAgent => rfl

theorem insertEach_eq (headers : Map) (layer : HashMap String String) :
    insertEach headers layer =
      Map.overlay headers (asMembers (layer.entries.map fun entry => (entry.1, entry.2))) := by
  unfold insertEach Map.overlay asMembers
  rw [List.map_map, List.foldl_map]
  rfl

theorem overlay_append (headers : Map) (first second : List (String × String)) :
    Map.overlay headers (asMembers (first ++ second)) =
      Map.overlay (Map.overlay headers (asMembers first)) (asMembers second) := by
  unfold Map.overlay asMembers
  rw [List.map_append, List.foldl_append]

theorem insertSettings_eq (headers : Map) (userAgent : Option String)
    (layer : HashMap String String) : insertEach (insertUserAgent headers userAgent) layer =
      Map.overlay headers (asMembers (configuredSettings userAgent layer)) := by
  rw [insertEach_eq, insertUserAgent_eq, configuredSettings, overlay_append]

theorem insertUpstreamAuth_eq (headers : Map) (credentials : Option UpstreamAuth) :
    insertUpstreamAuth base64 headers credentials = Map.overlay headers
      (asMembers ((staticAuthorization base64 credentials).toList.map ("Authorization", ·))) := by
  cases credentials with
  | none => rfl
  | some credentials =>
    cases credentials with
    | none => rfl
    | bearer token => rfl
    | basic username password => rfl
    | oauth2 config => rfl

theorem buildBaseHeaderMap_overlay : buildBaseHeaderMap base64 outboundHttp upstream auth =
    Map.overlay [] (asMembers (baseLayers base64 outboundHttp upstream auth).flatten) := by
  have hstatic : ∀ headers : Map, (if auth.includeUpstreamAuth then
        insertUpstreamAuth base64 headers upstream.auth else headers) =
      Map.overlay headers (asMembers (staticSettings base64 upstream auth)) := by
    intro headers
    unfold staticSettings
    split
    · exact insertUpstreamAuth_eq headers upstream.auth
    · rfl
  unfold buildBaseHeaderMap baseLayers
  simp only [List.flatten_cons, List.flatten_nil, List.append_nil, overlay_append]
  rw [← insertSettings_eq _ upstream.userAgent, ← hstatic]
  cases outboundHttp with
  | none =>
    cases auth.oauth2Bearer with
    | none =>
      cases auth.explicitAuthorization with
      | none => rfl
      | some authorization => rfl
    | some token =>
      cases auth.explicitAuthorization with
      | none => rfl
      | some authorization => rfl
  | some defaults =>
    rw [Option.map_some, Option.getD_some, ← insertSettings_eq]
    cases auth.oauth2Bearer with
    | none =>
      cases auth.explicitAuthorization with
      | none => rfl
      | some authorization => rfl
    | some token =>
      cases auth.explicitAuthorization with
      | none => rfl
      | some authorization => rfl

/-- The layers of a request of a plugin. -/
def requestLayers (base64 : String → String) (outboundHttp : Option OutboundHttpConfig)
    (upstream : UpstreamConfig) (auth : PluginRequestAuth) (requestHeaders : List (String × String)) :
    List (List (String × String)) :=
  baseLayers base64 outboundHttp upstream auth ++ [requestHeaders]

/-- The layers of a template, which may have anything as the value of a header of its own. -/
def templateLayers (base64 : String → String) (outboundHttp : Option OutboundHttpConfig)
    (upstream : UpstreamConfig) (oauth2Bearer : Option String) (toolHeaders : Option Value) :
    List (List (String × Value)) :=
  (baseLayers base64 outboundHttp upstream (.inherit oauth2Bearer)).map asMembers ++
    [Dispatch.localHeaders toolHeaders]

theorem asMembers_flatten (layers : List (List (String × String))) :
    (layers.map asMembers).flatten = asMembers layers.flatten := by
  unfold asMembers
  rw [List.map_flatten]

theorem buildTemplatedHeaders_entries (oauth2Bearer : Option String) (toolHeaders : Option Value) :
    Dispatch.localHeaders
        (buildTemplatedHeaders base64 outboundHttp upstream oauth2Bearer toolHeaders) =
      Map.overlay []
        (templateLayers base64 outboundHttp upstream oauth2Bearer toolHeaders).flatten := by
  have hbase : Map.overlay
      (buildBaseHeaderMap base64 outboundHttp upstream (.inherit oauth2Bearer))
      (Dispatch.localHeaders toolHeaders) = Map.overlay []
        (templateLayers base64 outboundHttp upstream oauth2Bearer toolHeaders).flatten := by
    rw [templateLayers, List.flatten_append, asMembers_flatten, List.flatten_singleton,
      buildBaseHeaderMap_overlay]
    unfold Map.overlay
    rw [← List.foldl_append]
  rw [Dispatch.buildTemplatedHeaders_local, ← hbase]
  change Dispatch.localHeaders (if (Map.overlay _ _).isEmpty then none else some (.object _)) = _
  split
  · rename_i hempty
    exact (List.isEmpty_iff.mp hempty).symm
  · rfl

theorem buildRequestHeaders_entries (requestHeaders : List (String × String)) :
    asMembers (buildRequestHeaders base64 outboundHttp upstream auth requestHeaders) =
      Map.overlay []
        (asMembers (requestLayers base64 outboundHttp upstream auth requestHeaders).flatten) := by
  have hmerged : requestHeaders.foldl (fun headers header => insertString headers header.1 header.2)
      (buildBaseHeaderMap base64 outboundHttp upstream auth) = Map.overlay []
        (asMembers (requestLayers base64 outboundHttp upstream auth requestHeaders).flatten) := by
    rw [foldl_insertString, buildBaseHeaderMap_overlay, requestLayers, List.flatten_append,
      List.flatten_singleton, overlay_append]
    rfl
  unfold buildRequestHeaders
  rw [hmerged]
  unfold asMembers
  rw [List.map_map]
  refine (List.map_congr_left ?_).trans (List.map_id _)
  rintro ⟨name, value⟩ hentry
  obtain ⟨setting, -, hsetting⟩ := List.mem_map.mp (mem_settings_of_mem_overlay hentry)
  obtain ⟨rfl, rfl⟩ := Prod.mk.inj hsetting
  rfl

theorem ofHeader_asMembers (name : String) (settings : List (String × String)) :
    ofHeader name (asMembers settings) = (ofHeader name settings).map .string := by
  unfold ofHeader asMembers
  rw [List.filter_map, List.map_map, List.map_map]
  rfl

theorem lastWins_asMembers {layers : List (List (String × String))}
    {entries : List (String × String)} :
    LastWins (layers.map asMembers) (asMembers entries) ↔ LastWins layers entries := by
  unfold LastWins
  simp only [← ofHeader_flatten, asMembers_flatten, ofHeader_asMembers, List.getLast?_map]
  refine forall_congr' fun name => ?_
  rw [Option.toList_map]
  exact List.map_inj_right fun _ _ => Value.string.inj

theorem spelledAlike_asMembers {layers : List (List (String × String))} :
    SpelledAlike (layers.map asMembers) ↔ SpelledAlike layers := by
  unfold SpelledAlike
  rw [asMembers_flatten]
  simp only [asMembers, List.forall_mem_map]

end Request

/-- Exactly when no header is spelled in two ways by the layers of a request, or of a template, it
has one entry at most and that is the one of the last layer to set it. -/
theorem headers_last_wins_iff (base64 : String → String)
    (outboundHttp : Option OutboundHttpConfig) (upstream : UpstreamConfig) :
    (∀ auth requestHeaders,
      LastWins (requestLayers base64 outboundHttp upstream auth requestHeaders)
          (buildRequestHeaders base64 outboundHttp upstream auth requestHeaders) ↔
        SpelledAlike (requestLayers base64 outboundHttp upstream auth requestHeaders)) ∧
    ∀ oauth2Bearer toolHeaders,
      LastWins (templateLayers base64 outboundHttp upstream oauth2Bearer toolHeaders)
          (Dispatch.localHeaders
            (buildTemplatedHeaders base64 outboundHttp upstream oauth2Bearer toolHeaders)) ↔
        SpelledAlike (templateLayers base64 outboundHttp upstream oauth2Bearer toolHeaders) := by
  constructor
  · intro auth requestHeaders
    rw [← lastWins_asMembers, ← spelledAlike_asMembers, buildRequestHeaders_entries,
      ← asMembers_flatten]
    exact lastWins_overlay_iff _
  · intro oauth2Bearer toolHeaders
    rw [buildTemplatedHeaders_entries]
    exact lastWins_overlay_iff _

/-- An upstream with a token of its own. -/
def bearerUpstream : UpstreamConfig where
  baseUrl := "https://example.org"
  headers := ∅
  userAgent := none
  timeoutMs := none
  maxResponseBytes := none
  retry := none
  auth := some (.bearer "injected")

/-- A request that has the header in lower case is sent with both. -/
theorem lowercase_authorization_added :
    buildRequestHeaders id none bearerUpstream (.inherit none) [("authorization", "own")] =
        [("Authorization", "Bearer injected"), ("authorization", "own")] ∧
      ¬ LastWins
        (requestLayers id none bearerUpstream (.inherit none) [("authorization", "own")])
        (buildRequestHeaders id none bearerUpstream (.inherit none) [("authorization", "own")]) := by
  have hsent : buildRequestHeaders id none bearerUpstream (.inherit none)
      [("authorization", "own")] = [("Authorization", "Bearer injected"), ("authorization", "own")] := by
    decide
  refine ⟨hsent, fun h => ?_⟩
  have hone := h "authorization"
  rw [hsent] at hone
  exact absurd hone (by decide)

end Outbound
end RustMcpCore
