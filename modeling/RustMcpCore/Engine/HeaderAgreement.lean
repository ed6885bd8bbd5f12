import RustMcpCore.Engine.AttemptBudget
import RustMcpCore.Engine.TemplateMeaning

/-! # Headers of tools and of plugins

Both start from the headers that the configuration gives to an upstream. Those of a tool
are a template, and whatever looks like an expression in them is rendered.
-/
namespace RustMcpCore.Outbound
open Library

/-! ## What is configured -/

section Configured
variable (base64 : String → String) (outboundHttp : Option OutboundHttpConfig)
  (upstream : UpstreamConfig) (oauth2Bearer : Option String)

def staticAuthorization : Option UpstreamAuth → Option String
  | some (.bearer token) => some s!"Bearer {token}"
  | some (.basic username password) =>
    let encoded := base64 s!"{username}:{password}"
    some s!"Basic {encoded}"
  | some .none | some (.oauth2 _) | none => none

/-- The value of one header among those of all names. -/
def headerNamed (header : String) (value : Option String) (name : String) : Option String :=
  if name = header then value else none

/-- A token before what is configured for the upstream, that before the defaults. -/
def configuredHeader (name : String) : Option String :=
  let authorization := (oauth2Bearer.map fun token => s!"Bearer {token}").or
    (staticAuthorization base64 upstream.auth)
  let ofUpstream := (upstream.headers.lookup name).or
    (headerNamed "User-Agent" upstream.userAgent name)
  let ofDefaults := outboundHttp.bind fun outboundHttp =>
    (outboundHttp.headers.lookup name).or (headerNamed "User-Agent" outboundHttp.userAgent name)
  (headerNamed "Authorization" authorization name).or (ofUpstream.or ofDefaults)

end Configured

section Lookup
variable {headers : Map} {name : String}

theorem lookup_insertString (headers : Map) (key value name : String) :
    (insertString headers key value).lookup name =
      ((headerNamed key (some value) name).map .string).or (headers.lookup name) := by
  unfold insertString headerNamed
  rw [Map.lookup_insert]
  split
  · rfl
  · rfl

theorem sorted_insertString {key value : String} (h : Map.Sorted headers) :
    Map.Sorted (insertString headers key value) := Map.sorted_insert h

theorem lookup_insertEach (headers : Map) (layer : HashMap String String) (name : String) :
    (insertEach headers layer).lookup name =
      ((layer.lookup name).map .string).or (headers.lookup name) := by
  obtain ⟨entries, hnodup⟩ := layer
  change (entries.foldl _ headers).lookup name = ((entries.dlookup name).map .string).or _
  induction entries generalizing headers with
  | nil => rfl
  | cons entry rest ih =>
    obtain ⟨key, value⟩ := entry
    obtain ⟨hkey, hrest⟩ := List.nodupKeys_cons.mp hnodup
    rw [List.foldl_cons, ih _ hrest, lookup_insertString]
    by_cases hname : name = key
    · have habsent : rest.dlookup key = none := List.dlookup_eq_none.mpr hkey
      rw [hname, habsent, List.dlookup_cons_eq]
      simp [headerNamed]
    · rw [List.dlookup_cons_ne _ _ hname]
      simp [headerNamed, hname]

theorem sorted_insertEach {layer : HashMap String String} (h : Map.Sorted headers) :
    Map.Sorted (insertEach headers layer) := by
  unfold insertEach
  generalize layer.entries = entries
  induction entries generalizing headers with
  | nil => exact h
  | cons entry rest ih => exact ih (sorted_insertString h)

theorem lookup_insertUserAgent (headers : Map) (userAgent : Option String) (name : String) :
    (insertUserAgent headers userAgent).lookup name =
      ((headerNamed "User-Agent" userAgent name).map .string).or (headers.lookup name) := by
  cases userAgent with
  | none => simp [insertUserAgent, headerNamed]
  | some userAgent => exact lookup_insertString headers "User-Agent" userAgent name

theorem sorted_insertUserAgent {userAgent : Option String} (h : Map.Sorted headers) :
    Map.Sorted (insertUserAgent headers userAgent) := by
  cases userAgent with
  | none => exact h
  | some userAgent => exact sorted_insertString h

theorem lookup_insertUpstreamAuth (base64 : String → String) (headers : Map)
    (auth : Option UpstreamAuth) (name : String) :
    (insertUpstreamAuth base64 headers auth).lookup name =
      ((headerNamed "Authorization" (staticAuthorization base64 auth) name).map .string).or
        (headers.lookup name) := by
  match auth with
  | some (.bearer token) => exact lookup_insertString headers _ _ name
  | some (.basic username password) => exact lookup_insertString headers _ _ name
  | some .none => simp [insertUpstreamAuth, headerNamed, staticAuthorization]
  | some (.oauth2 auth) => simp [insertUpstreamAuth, headerNamed, staticAuthorization]
  | none => simp [insertUpstreamAuth, headerNamed, staticAuthorization]

theorem sorted_insertUpstreamAuth {base64 : String → String} {auth : Option UpstreamAuth}
    (h : Map.Sorted headers) : Map.Sorted (insertUpstreamAuth base64 headers auth) := by
  match auth with
  | some (.bearer token) => exact sorted_insertString h
  | some (.basic username password) => exact sorted_insertString h
  | some .none => exact h
  | some (.oauth2 auth) => exact h
  | none => exact h

end Lookup

section BaseMap
variable (base64 : String → String) (outboundHttp : Option OutboundHttpConfig)
  (upstream : UpstreamConfig) (oauth2Bearer : Option String)

/-- The layers of the headers, from the first to the last. -/
theorem buildBaseHeaderMap_eq :
    buildBaseHeaderMap base64 outboundHttp upstream (.inherit oauth2Bearer) =
      let defaults : Map := outboundHttp.elim [] fun outboundHttp =>
        insertEach (insertUserAgent [] outboundHttp.userAgent) outboundHttp.headers
      let own := insertUpstreamAuth base64
        (insertEach (insertUserAgent defaults upstream.userAgent) upstream.headers) upstream.auth
      oauth2Bearer.elim own fun token => insertString own "Authorization" s!"Bearer {token}" := by
  cases outboundHttp with
  | none =>
    cases oauth2Bearer with
    | none => rfl
    | some token => rfl
  | some outboundHttp =>
    cases oauth2Bearer with
    | none => rfl
    | some token => rfl

theorem sorted_buildBaseHeaderMap :
    Map.Sorted (buildBaseHeaderMap base64 outboundHttp upstream (.inherit oauth2Bearer)) := by
  have hupstream : ∀ headers, Map.Sorted headers →
      Map.Sorted (insertUpstreamAuth base64
        (insertEach (insertUserAgent headers upstream.userAgent) upstream.headers)
        upstream.auth) :=
    fun _ h => sorted_insertUpstreamAuth (sorted_insertEach (sorted_insertUserAgent h))
  have hbearer : ∀ headers, Map.Sorted headers →
      Map.Sorted (oauth2Bearer.elim headers fun token =>
        insertString headers "Authorization" s!"Bearer {token}") := by
    intro headers h
    cases oauth2Bearer with
    | none => exact h
    | some token => exact sorted_insertString h
  rw [buildBaseHeaderMap_eq]
  refine hbearer _ (hupstream _ ?_)
  cases outboundHttp with
  | none => exact .nil
  | some outboundHttp => exact sorted_insertEach (sorted_insertUserAgent .nil)

theorem headerNamed_or (header : String) (value other : Option String) (name : String) :
    headerNamed header (value.or other) name =
      (headerNamed header value name).or (headerNamed header other name) := by
  unfold headerNamed
  split
  · rfl
  · rfl

theorem lookup_buildBaseHeaderMap (name : String) :
    (buildBaseHeaderMap base64 outboundHttp upstream (.inherit oauth2Bearer)).lookup name =
      (configuredHeader base64 outboundHttp upstream oauth2Bearer name).map .string := by
  have hupstream : ∀ headers : Map, (insertUpstreamAuth base64
      (insertEach (insertUserAgent headers upstream.userAgent) upstream.headers)
      upstream.auth).lookup name =
        (((headerNamed "Authorization" (staticAuthorization base64 upstream.auth) name).or
          ((upstream.headers.lookup name).or
            (headerNamed "User-Agent" upstream.userAgent name))).map .string).or
          (headers.lookup name) := by
    intro headers
    rw [lookup_insertUpstreamAuth, lookup_insertEach, lookup_insertUserAgent, Option.map_or,
      Option.map_or, Option.or_assoc, Option.or_assoc]
  have hbearer : ∀ headers : Map, (oauth2Bearer.elim headers fun token =>
      insertString headers "Authorization" s!"Bearer {token}").lookup name =
        ((headerNamed "Authorization" (oauth2Bearer.map fun token => s!"Bearer {token}")
          name).map .string).or (headers.lookup name) := by
    intro headers
    cases oauth2Bearer with
    | none => simp [headerNamed]
    | some token => exact lookup_insertString headers _ _ name
  have hdefaults : (outboundHttp.elim [] fun outboundHttp =>
      insertEach (insertUserAgent [] outboundHttp.userAgent) outboundHttp.headers).lookup name =
        (outboundHttp.bind fun outboundHttp => (outboundHttp.headers.lookup name).or
          (headerNamed "User-Agent" outboundHttp.userAgent name)).map .string := by
    cases outboundHttp with
    | none => rfl
    | some outboundHttp =>
      rw [Option.elim_some, lookup_insertEach, lookup_insertUserAgent, List.lookup_nil,
        Option.or_none]
      exact Option.map_or.symm
  rw [buildBaseHeaderMap_eq]
  refine (hbearer _).trans ?_
  rw [hupstream, hdefaults]
  simp only [configuredHeader, headerNamed_or, Option.map_or, Option.or_assoc]

end BaseMap

/-! ## What is sent -/

section Lists
variable (base64 : String → String) (outboundHttp : Option OutboundHttpConfig)
  (upstream : UpstreamConfig) (oauth2Bearer : Option String)

/-- The headers of one request as a tool holds them. -/
def headerObject (headers : List (String × String)) : Map :=
  headers.foldl (fun map header => insertString map header.1 header.2) []

/-- What both paths put together, before the one renders it. -/
def mergedHeaders (headers : List (String × String)) : Map :=
  headers.foldl (fun map header => insertString map header.1 header.2)
    (buildBaseHeaderMap base64 outboundHttp upstream (.inherit oauth2Bearer))

variable {base64 outboundHttp upstream oauth2Bearer} {headers : List (String × String)}

theorem foldl_insertString (base : Map) (headers : List (String × String)) :
    headers.foldl (fun map header => insertString map header.1 header.2) base =
      Map.overlay base (headers.map fun header => (header.1, .string header.2)) := by
  unfold Map.overlay
  rw [List.foldl_map]
  rfl

theorem buildTemplatedHeaders_eq : buildTemplatedHeaders base64 outboundHttp upstream oauth2Bearer
    (some (.object (headerObject headers))) =
      if (mergedHeaders base64 outboundHttp upstream oauth2Bearer headers).isEmpty then none
      else some (.object (mergedHeaders base64 outboundHttp upstream oauth2Bearer headers)) := by
  have hmerged : Map.overlay
      (buildBaseHeaderMap base64 outboundHttp upstream (.inherit oauth2Bearer))
      (headerObject headers) = mergedHeaders base64 outboundHttp upstream oauth2Bearer headers := by
    unfold headerObject mergedHeaders
    rw [foldl_insertString, foldl_insertString,
      Map.overlay_overlay _ (sorted_buildBaseHeaderMap _ _ _ _)]
  rw [← hmerged]
  rfl

theorem sorted_mergedHeaders :
    Map.Sorted (mergedHeaders base64 outboundHttp upstream oauth2Bearer headers) := by
  unfold mergedHeaders
  rw [foldl_insertString]
  exact Map.sorted_overlay (sorted_buildBaseHeaderMap _ _ _ _) _

/-- The last header of a name in the request, else what is configured. -/
theorem lookup_mergedHeaders (name : String) :
    (mergedHeaders base64 outboundHttp upstream oauth2Bearer headers).lookup name =
      (((headers.reverse.lookup name).or
        (configuredHeader base64 outboundHttp upstream oauth2Bearer name)).map .string) := by
  unfold mergedHeaders
  induction headers using List.reverseRecOn with
  | nil => exact lookup_buildBaseHeaderMap _ _ _ _ name
  | append_singleton rest header ih =>
    obtain ⟨key, value⟩ := header
    rw [List.foldl_concat, lookup_insertString, ih, List.reverse_concat, Map.lookup_cons]
    unfold headerNamed
    split
    · rfl
    · rfl

theorem mem_mergedHeaders {name value : String} : (name, Value.string value) ∈
    mergedHeaders base64 outboundHttp upstream oauth2Bearer headers ↔
      (headers.reverse.lookup name).or
        (configuredHeader base64 outboundHttp upstream oauth2Bearer name) = some value := by
  rw [← Map.lookup_eq_some_iff sorted_mergedHeaders, lookup_mergedHeaders]
  simp

theorem mergedHeaders_texts :
    ∀ member ∈ mergedHeaders base64 outboundHttp upstream oauth2Bearer headers,
      ∃ text, member.2 = .string text := by
  rintro ⟨name, value⟩ h
  rw [← Map.lookup_eq_some_iff sorted_mergedHeaders, lookup_mergedHeaders] at h
  obtain ⟨text, -, rfl⟩ := Option.map_eq_some_iff.mp h
  exact ⟨text, rfl⟩

end Lists

end RustMcpCore.Outbound

namespace RustMcpCore
open Library Outbound

/-! ## What a template renders to -/

/-- No expression begins in the text. -/
def Plain (value : String) : Prop := Text.cut ['$', '{'] value.toList = none

instance (value : String) : Decidable (Plain value) :=
  inferInstanceAs (Decidable (Text.cut ['$', '{'] value.toList = none))

/-- The expressions in a text are replaced by what makes up the same text. -/
def RendersAsItself (json : SerdeJson) (ctx : RenderContext) (value : String) : Prop :=
  ∃ rendered, Templating.renderString json value ctx = .ok (.value rendered) ∧
    Templating.valueToString json rendered = value

section Render
variable {json : SerdeJson} {ctx : RenderContext}

theorem renderString_plain {value : String} (h : Plain value) :
    Templating.renderString json value ctx = .ok (.value (.string value)) := by
  have hsingle : Templating.singlePlaceholder (Text.trim value) = none := by
    unfold Templating.singlePlaceholder
    split
    · rename_i rest htrim
      have hopened : ['$', '{'] <:+: (Text.trim value).toList := by
        rw [htrim]
        exact (List.prefix_append ['$', '{'] rest).isInfix
      exact absurd (hopened.trans (Text.trim_infix value)) (Text.cut_eq_none_iff.mp h)
    · rfl
  unfold Plain at h
  unfold Templating.renderString
  rw [hsingle]
  simp only
  unfold Templating.renderText
  cases value.toList.length with
  | zero => simp
  | succ rounds => simp [h]

theorem renderExpression_ne_null {expr : String} {rendered : Value}
    (h : Templating.renderExpression json expr ctx = .ok (.value rendered)) : rendered ≠ .null := by
  unfold Templating.renderExpression at h
  obtain ⟨⟨base, optional, filters⟩, -, h⟩ := bind_eq_ok h
  simp only at h
  split at h
  · split at h
    · cases h
    · cases h
  · split at h
    · cases h
    · cases h
  · rename_i value hnull _
    cases h
    exact hnull

theorem renderText_ne_null {rounds : ℕ} {output rest : List Char} {rendered : Value}
    (h : Templating.renderText json ctx rounds output rest = .ok (.value rendered)) :
    rendered ≠ .null := by
  induction rounds generalizing output rest with
  | zero =>
    cases h
    nofun
  | succ rounds ih =>
    unfold Templating.renderText at h
    split at h
    · cases h
      nofun
    · split at h
      · cases h
      · obtain ⟨part, -, h⟩ := bind_eq_ok h
        cases part with
        | value value => exact ih h
        | omitted => exact ih h

theorem renderString_ne_null {value : String} {rendered : Value}
    (h : Templating.renderString json value ctx = .ok (.value rendered)) : rendered ≠ .null := by
  unfold Templating.renderString at h
  split at h
  · exact renderExpression_ne_null h
  · exact renderText_ne_null h

theorem length_renderMembers {map out : Map} (h : Map.Sorted map)
    (hout : Templating.renderMembers json map [] ctx = .ok out) : out.length ≤ map.length := by
  induction map generalizing out with
  | nil =>
    cases hout
    exact le_refl 0
  | cons member rest ih =>
    obtain ⟨key, value⟩ := member
    rw [Templating.renderMembers_cons h] at hout
    obtain ⟨rendered, -, hout⟩ := bind_eq_ok hout
    obtain ⟨tail, htail, rfl⟩ := except_map_eq_ok hout
    have hle := ih (List.pairwise_cons.mp h).2 htail
    cases rendered with
    | value rendered => exact Nat.succ_le_succ hle
    | omitted => exact Nat.le_succ_of_le hle

theorem length_pairsOf (out : Map) : (pairsOf json (.object out)).length ≤ out.length :=
  List.length_filterMap_le _ _

theorem pairsOf_cons {key : String} {value : Value} {out : Map} (h : value ≠ .null) :
    pairsOf json (.object ((key, value) :: out)) =
      (key, Templating.valueToString json value) :: pairsOf json (.object out) := by
  cases value with
  | null => exact absurd rfl h
  | _ => rfl

/-- A template of texts gives the same texts exactly if each renders as itself. -/
theorem pairs_eq_iff {map : Map} (h : Map.Sorted map)
    (htexts : ∀ member ∈ map, ∃ text, member.2 = .string text) :
    (Templating.renderMembers json map [] ctx).map (fun out => pairsOf json (.object out)) =
        .ok (map.map fun (key, value) => (key, value.asStr.getD "")) ↔
      ∀ key text, (key, Value.string text) ∈ map → RendersAsItself json ctx text := by
  induction map with
  | nil => exact iff_of_true rfl nofun
  | cons member rest ih =>
    obtain ⟨key, value⟩ := member
    obtain ⟨text, rfl⟩ : ∃ text, value = .string text := htexts _ List.mem_cons_self
    have hrest := (List.pairwise_cons.mp h).2
    have ih := ih hrest fun member hmember => htexts member (List.mem_cons_of_mem _ hmember)
    have hmembers : (∀ name text', (name, Value.string text') ∈ (key, Value.string text) :: rest →
        RendersAsItself json ctx text') ↔
          RendersAsItself json ctx text ∧
            ∀ name text', (name, Value.string text') ∈ rest → RendersAsItself json ctx text' := by
      constructor
      · exact fun hall => ⟨hall key text List.mem_cons_self, fun name text' hmember =>
          hall name text' (List.mem_cons_of_mem _ hmember)⟩
      · rintro ⟨hhead, hall⟩ name text' hmember
        rcases List.mem_cons.mp hmember with heq | hmember
        · cases heq
          exact hhead
        · exact hall name text' hmember
    rw [hmembers, ← ih, Templating.renderMembers_cons h]
    unfold Templating.renderInner RendersAsItself
    cases hrender : Templating.renderString json text ctx with
    | error error =>
      refine iff_of_false nofun ?_
      rintro ⟨⟨_, hok, -⟩, -⟩
      cases hok
    | ok rendered =>
      cases hout : Templating.renderMembers json rest [] ctx with
      | error error =>
        refine iff_of_false nofun ?_
        rintro ⟨-, hok⟩
        cases hok
      | ok out =>
        cases rendered with
        | omitted =>
          refine iff_of_false (fun hsame => ?_) ?_
          · have hlength := congrArg List.length (Except.ok.inj hsame)
            have hpairs : (pairsOf json (.object out)).length ≤ out.length := length_pairsOf out
            have hle := length_renderMembers hrest hout
            simp only [List.map_cons, List.length_cons, List.length_map] at hlength
            omega
          · rintro ⟨⟨_, hok, -⟩, -⟩
            cases hok
        | value rendered =>
          have hcons : pairsOf json (.object ((key, rendered) :: out)) = _ :=
            pairsOf_cons (renderString_ne_null hrender)
          change Except.ok (pairsOf json (.object ((key, rendered) :: out))) = _ ↔
            _ ∧ Except.ok (pairsOf json (.object out)) = _
          rw [hcons]
          simp [Value.asStr]

/-- A map of headers is a template if there are any. -/
theorem renderPairs_ok {map : Map} {pairs : List (String × String)} :
    renderPairs json ctx (if map.isEmpty then none else some (.object map)) = .ok pairs ↔
      (Templating.renderMembers json map [] ctx).map (fun out => pairsOf json (.object out)) =
        .ok pairs := by
  cases map with
  | nil => exact Iff.of_eq (by simp [renderPairs, Templating.renderMembers, pairsOf, Except.map])
  | cons member rest =>
    change ((Templating.renderValue json (.object (member :: rest)) ctx).mapError _).map _ = _ ↔ _
    unfold Templating.renderValue Templating.renderInner
    cases Templating.renderMembers json (member :: rest) [] ctx with
    | error error => exact iff_of_false (fun h => by cases h) (fun h => by cases h)
    | ok out => simp [Except.map, Except.mapError]

/-- The headers of the request are those of the template. -/
theorem prepareRequest_headers {baseUrl : String} {template : HttpRequestTemplate} {args : Value}
    {request : OutboundHttpRequest} (h : prepareRequest json baseUrl template args = .ok request) :
    renderPairs json ⟨args, none⟩ template.headers = .ok request.headers := by
  unfold prepareRequest at h
  obtain ⟨_, -, h⟩ := bind_eq_ok h
  obtain ⟨_, -, h⟩ := bind_eq_ok h
  obtain ⟨_, -, h⟩ := bind_eq_ok h
  obtain ⟨headers, hheaders, h⟩ := bind_eq_ok h
  obtain ⟨_, -, h⟩ := bind_eq_ok h
  cases h
  exact hheaders

end Render

end RustMcpCore

namespace RustMcpCore.Dispatch
open Library Outbound

/-- The headers that a tool has of its own. -/
def localHeaders : Option Value → Map
  | some (.object map) => map
  | _ => []

section Agreement
variable (engine : Engine) (crates : Crates) (executeHttp : ExecuteHttpConfig)
  (upstream : UpstreamConfig) (oauth2Bearer : Option String) (args : Value)

/-- What `execute_http_detailed` makes of the headers of the template. -/
def toolHeaders : Except HttpExecutionError (List (String × String)) :=
  renderPairs crates.json { args, response := none }
    (engine.buildHttpRequestTemplate crates executeHttp upstream oauth2Bearer).headers

def pluginHeaders (request : Option RequestContext) (headers : List (String × String)) :
    List (String × String) :=
  (engine.buildPluginContext request).buildUpstreamRequestHeaders crates.base64.encode upstream
    .inherit oauth2Bearer headers

variable {engine crates executeHttp upstream oauth2Bearer args}

theorem toolHeaders_of_request {request : OutboundHttpRequest}
    (h : prepareRequest crates.json upstream.baseUrl
      (engine.buildHttpRequestTemplate crates executeHttp upstream oauth2Bearer) args =
        .ok request) :
    toolHeaders engine crates executeHttp upstream oauth2Bearer args = .ok request.headers :=
  prepareRequest_headers h

theorem buildTemplatedHeaders_local (base64 : String → String)
    (outboundHttp : Option OutboundHttpConfig) (own : Option Value) :
    buildTemplatedHeaders base64 outboundHttp upstream oauth2Bearer own =
      buildTemplatedHeaders base64 outboundHttp upstream oauth2Bearer
        (some (.object (localHeaders own))) := by
  match own with
  | some (.object map) => rfl
  | some .null => rfl
  | some (.bool _) => rfl
  | some (.number _) => rfl
  | some (.string _) => rfl
  | some (.array _) => rfl
  | none => rfl

/-- The tool renders all that the plugin sends as it is. -/
theorem toolHeaders_eq_iff_merged (request : Option RequestContext)
    (headers : List (String × String))
    (hlocal : localHeaders executeHttp.headers = headerObject headers) :
    toolHeaders engine crates executeHttp upstream oauth2Bearer args =
        .ok (pluginHeaders engine crates upstream oauth2Bearer request headers) ↔
      ∀ name text, (name, Value.string text) ∈ mergedHeaders crates.base64.encode
        engine.config.outboundHttp upstream oauth2Bearer headers →
          RendersAsItself crates.json ⟨args, none⟩ text := by
  refine Iff.trans ?_ (pairs_eq_iff sorted_mergedHeaders mergedHeaders_texts)
  change renderPairs crates.json ⟨args, none⟩ (buildTemplatedHeaders crates.base64.encode
    engine.config.outboundHttp upstream oauth2Bearer executeHttp.headers) = _ ↔ _
  rw [buildTemplatedHeaders_local, hlocal, buildTemplatedHeaders_eq, renderPairs_ok]
  rfl

/-- A tool and a plugin send the same headers exactly if those that are configured, and not
replaced by the request, render as themselves. -/
theorem toolHeaders_eq_iff (request : Option RequestContext) (headers : List (String × String))
    (hlocal : localHeaders executeHttp.headers = headerObject headers)
    (hplain : ∀ header ∈ headers, Plain header.2) :
    toolHeaders engine crates executeHttp upstream oauth2Bearer args =
        .ok (pluginHeaders engine crates upstream oauth2Bearer request headers) ↔
      ∀ name value, (∀ header ∈ headers, header.1 ≠ name) →
        configuredHeader crates.base64.encode engine.config.outboundHttp upstream oauth2Bearer
          name = some value →
        Plain value ∨ RendersAsItself crates.json ⟨args, none⟩ value := by
  rw [toolHeaders_eq_iff_merged request headers hlocal]
  constructor
  · intro hall name value habsent hconfigured
    have hnone : headers.reverse.lookup name = none := by
      rw [List.lookup_eq_none_iff]
      intro header hheader
      exact bne_iff_ne.mpr (habsent header (List.mem_reverse.mp hheader)).symm
    refine .inr (hall name value (mem_mergedHeaders.mpr ?_))
    rw [hnone]
    exact hconfigured
  · intro hall name text h
    rcases Option.or_eq_some_iff.mp (mem_mergedHeaders.mp h) with hfound | ⟨hnone, hconfigured⟩
    · obtain ⟨before, after, hsplit, -⟩ := List.lookup_eq_some_iff.mp hfound
      have hheader : (name, text) ∈ headers := by
        rw [← List.mem_reverse, hsplit]
        exact List.mem_append_right before List.mem_cons_self
      exact ⟨_, renderString_plain (hplain _ hheader), rfl⟩
    · have habsent : ∀ header ∈ headers, header.1 ≠ name := by
        intro header hheader heq
        have hne := List.lookup_eq_none_iff.mp hnone header (List.mem_reverse.mpr hheader)
        exact bne_iff_ne.mp hne heq.symm
      rcases hall name text habsent hconfigured with htext | hself
      · exact ⟨_, renderString_plain htext, rfl⟩
      · exact hself

end Agreement

namespace Quotes

def accepting : ExecuteHttpConfig :=
  { executeHttp with headers := some (.object [("Accept", .string "text/plain")]) }

end Quotes

theorem toolHeaders_eq_iff_accepting :
    toolHeaders (Quotes.engine none) Greeting.crates Quotes.accepting (Quotes.upstream none)
        (some "token") (.object []) =
      .ok (pluginHeaders (Quotes.engine none) Greeting.crates (Quotes.upstream none) (some "token")
        none [("Accept", "text/plain")]) := by
  refine (toolHeaders_eq_iff none [("Accept", "text/plain")] rfl ?_).mpr ?_
  · intro header hheader
    rw [List.mem_singleton.mp hheader]
    decide
  · intro name value _ hconfigured
    by_cases hname : name = "Authorization"
    · rw [hname] at hconfigured
      cases hconfigured
      exact .inl (by decide)
    · have hnone : configuredHeader Greeting.crates.base64.encode
          (Quotes.engine none).config.outboundHttp (Quotes.upstream none) (some "token") name =
            none := by
        simp [configuredHeader, headerNamed, hname, Quotes.upstream, Quotes.engine, McpConfig.empty]
      rw [hnone] at hconfigured
      cases hconfigured

/-- A token with an open expression in it makes the tool fail. -/
theorem toolHeaders_unterminated :
    ¬ toolHeaders (Quotes.engine none) Greeting.crates Quotes.executeHttp (Quotes.upstream none)
        (some "se$\x7bcret") (.object []) =
      .ok (pluginHeaders (Quotes.engine none) Greeting.crates (Quotes.upstream none)
        (some "se$\x7bcret") none []) := by
  have htool : (toolHeaders (Quotes.engine none) Greeting.crates Quotes.executeHttp
      (Quotes.upstream none) (some "se$\x7bcret") (.object [])).toOption = none := by decide
  intro h
  rw [h] at htool
  cases htool

end RustMcpCore.Dispatch
