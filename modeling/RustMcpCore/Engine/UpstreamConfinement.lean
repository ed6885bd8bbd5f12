import RustMcpCore.Engine.RequestTarget
import RustMcpCore.Engine.ToolDispatch
import RustMcpCore.Http.UrlTarget
import RustMcpCore.Plugins.Send

/-! # Where the requests for an upstream go

The arguments of a tool become part of a URL, and the token of an upstream goes with the request.
Whatever the arguments are, the request is for the server of the base URL, in every attempt and
with every token.
-/
namespace RustMcpCore
open Library Outbound

/-! ## The URLs of an upstream -/

section Urls
variable {baseUrl url : String}

theorem joinUrl_leadsTo (baseUrl path : String) : LeadsTo baseUrl (joinUrl baseUrl path) := by
  have hurl : (joinUrl baseUrl path).toList = _ := toList_joinUrl path
  split at hurl
  · rename_i hslash
    obtain ⟨rest, hpath⟩ := List.head?_eq_some_iff.mp hslash
    rw [hpath] at hurl
    exact leadsTo_of_slash hurl
  · exact leadsTo_of_slash hurl

/-- A path that looks like a host does not become one. -/
example : (UrlText.read some (joinUrl "https://api.example.org" "@example.com/v1").toList).map
    (·.authority) = some "api.example.org".toList := rfl

theorem resolveUpstreamUrl_leadsTo {given : String} (hrelative : given.toList.head? = some '/')
    (h : resolveUpstreamUrl baseUrl given = .ok url) : LeadsTo baseUrl url := by
  obtain ⟨rest, hgiven⟩ := List.head?_eq_some_iff.mp hrelative
  have hstrip : (Text.stripPrefix given "/").isSome = true := by
    have hslash : "/".toList = ['/'] := rfl
    simp [Text.stripPrefix, hslash, hgiven]
  unfold resolveUpstreamUrl at h
  rw [if_pos hstrip] at h
  cases h
  have hurl : (Text.trimEndMatches baseUrl '/' ++ given).toList =
      (Text.trimEndMatches baseUrl '/').toList ++ '/' :: rest := by
    rw [String.toList_append, hgiven]
  exact leadsTo_of_slash hurl

end Urls

/-! ## Traffic -/

/-- More traffic, all of it such requests. -/
def Adds {W : Type} (P : OutboundHttpRequest → Prop) (before after : Traffic W) : Prop :=
  ∃ made, after.exchanges = before.exchanges ++ made ∧ ∀ exchange ∈ made, P exchange.request

section Adding
variable {W : Type} {P : OutboundHttpRequest → Prop} {before after last : Traffic W}

theorem adds_of_same (h : after.exchanges = before.exchanges) : Adds P before after :=
  ⟨[], by rw [h, List.append_nil], List.forall_mem_nil _⟩

theorem Adds.trans (h : Adds P before after) (h' : Adds P after last) : Adds P before last := by
  obtain ⟨made, hmade, hrequests⟩ := h
  obtain ⟨more, hmore, hrequests'⟩ := h'
  refine ⟨made ++ more, ?_, List.forall_mem_append.mpr ⟨hrequests, hrequests'⟩⟩
  rw [hmore, hmade, List.append_assoc]

theorem Adds.mono {Q : OutboundHttpRequest → Prop} (h : Adds P before after)
    (hmono : ∀ request, P request → Q request) : Adds Q before after := by
  obtain ⟨made, hmade, hrequests⟩ := h
  exact ⟨made, hmade, fun exchange hexchange => hmono _ (hrequests exchange hexchange)⟩

theorem adds_of_one {request : OutboundHttpRequest} {answer : Option Answer} (h : P request)
    (hafter : after.exchanges = before.exchanges ++ [⟨request, answer⟩]) : Adds P before after :=
  ⟨_, hafter, List.forall_mem_singleton.mpr h⟩

end Adding

section Retry
variable {W T E : Type} {outside : Outside W} {params : RetryExecutionParams E}
  {operation : Traffic W → Except E T × Traffic W}
  {shouldRetry : Except E T → OutboundRetryConfig → Bool} {P : OutboundHttpRequest → Prop}

variable (outside params) in
theorem cancelledBefore_adds (traffic : Traffic W) :
    Adds P traffic (cancelledBefore outside params traffic).2 := by
  unfold cancelledBefore
  split
  · exact adds_of_same rfl
  · exact adds_of_same rfl

variable (outside params) in
theorem delayed_adds (delayMs : UInt64) (traffic : Traffic W) :
    Adds P traffic (delayed outside params delayMs traffic).2 := by
  unfold delayed
  split
  · exact adds_of_same rfl
  · exact adds_of_same rfl

theorem retryRound_adds {retry : OutboundRetryConfig}
    {again : Option (Traffic W → Except E T × Traffic W)}
    (hoperation : ∀ traffic, Adds P traffic (operation traffic).2)
    (hagain : ∀ rest, again = some rest → ∀ traffic, Adds P traffic (rest traffic).2)
    (traffic : Traffic W) :
    Adds P traffic (retryRound outside params operation shouldRetry retry again traffic).2 := by
  have hbefore := cancelledBefore_adds (P := P) outside params traffic
  unfold retryRound
  cases hcancelled : cancelledBefore outside params traffic with
  | mk cancelled started =>
    rw [hcancelled] at hbefore
    cases cancelled with
    | true => exact hbefore
    | false =>
      have htried := hbefore.trans (hoperation started)
      dsimp only
      cases hresult : operation started with
      | mk result tried =>
        rw [hresult] at htried
        cases again with
        | none => exact htried
        | some rest =>
          dsimp only
          split
          · have hdelay := htried.trans (delayed_adds outside params retry.delayMs tried)
            cases hdelayed : delayed outside params retry.delayMs tried with
            | mk dropped rested =>
              rw [hdelayed] at hdelay
              cases dropped with
              | true => exact hdelay
              | false => exact hdelay.trans (hagain rest rfl rested)
          · exact htried

theorem retryLoop_adds {retry : OutboundRetryConfig}
    (hoperation : ∀ traffic, Adds P traffic (operation traffic).2) (left : ℕ) (traffic : Traffic W) :
    Adds P traffic (retryLoop outside params operation shouldRetry retry left traffic).2 := by
  induction left generalizing traffic with
  | zero => exact retryRound_adds hoperation (fun rest hrest => by cases hrest) traffic
  | succ left ih =>
    refine retryRound_adds hoperation (fun rest hrest => ?_) traffic
    cases hrest
    exact ih

/-- Each attempt is the same operation. -/
theorem executeWithRetry_adds (hoperation : ∀ traffic, Adds P traffic (operation traffic).2)
    (traffic : Traffic W) :
    Adds P traffic (executeWithRetry outside params operation shouldRetry traffic).2 := by
  unfold executeWithRetry
  split
  · exact hoperation traffic
  · split
    · exact hoperation traffic
    · exact retryLoop_adds hoperation _ traffic

end Retry

namespace Dispatch

/-- A token of the upstream, from the token manager. -/
def TokenFor {W : Type} (accessToken : TokenManager W) (upstreamName : String)
    (upstream : UpstreamConfig) (token : String) : Prop :=
  ∃ auth forceRefresh world, upstream.auth = some (.oauth2 auth) ∧
    (accessToken upstreamName auth forceRefresh world).1 = .ok token

/-! ## Tools -/

section Tools
variable (engine : Engine) (crates : Crates) {W : Type} (outside : EngineOutside W)

/-- A request of an HTTP tool, as the tool and its upstream are configured. -/
def ForTool (executeHttp : ExecuteHttpConfig) (args : Value) (request : OutboundHttpRequest) :
    Prop :=
  ∃ upstream oauth2Bearer, engine.config.upstreams.lookup executeHttp.upstream = some upstream ∧
    (∀ token, oauth2Bearer = some token →
      TokenFor outside.accessToken executeHttp.upstream upstream token) ∧
    prepareRequest crates.json upstream.baseUrl
      (engine.buildHttpRequestTemplate crates executeHttp upstream oauth2Bearer) args = .ok request ∧
    LeadsTo upstream.baseUrl request.url

variable {engine crates outside} {toolCfg : ToolConfig} {executeHttp : ExecuteHttpConfig}
  {upstream : UpstreamConfig} {args : Value} {request : Option RequestContext}

theorem executeHttpDetailed_adds {json : SerdeJson} {fromSlice : FromSlice} {outside : Outside W}
    {baseUrl : String} {template : HttpRequestTemplate} {P : OutboundHttpRequest → Prop}
    (hrequest : ∀ sent, prepareRequest json baseUrl template args = .ok sent → P sent)
    (cancellation : Option CancellationToken) (traffic : Traffic W) :
    Adds P traffic
      (executeHttpDetailed json fromSlice outside baseUrl template args cancellation traffic).2 := by
  unfold executeHttpDetailed
  cases hprepared : prepareRequest json baseUrl template args with
  | error error => exact adds_of_same rfl
  | ok sent => exact adds_of_one (hrequest sent hprepared) rfl

theorem executeHttpRequestWithRetry_adds {template : HttpRequestTemplate}
    {P : OutboundHttpRequest → Prop} {params : HttpRequestExecutionParams}
    (hrequest : ∀ sent,
      prepareRequest crates.json params.upstreamBaseUrl template params.args = .ok sent → P sent)
    (retry : HttpRetryExecutionParams) (traffic : Traffic W) :
    Adds P traffic
      (executeHttpRequestWithRetry crates outside params template retry traffic).2 := by
  refine executeWithRetry_adds (fun traffic => ?_) traffic
  unfold executeHttpRequestWithCancellation
  split
  · unfold executeOrCancel
    split
    · rename_i hpolled
      exact adds_of_same (congrArg (·.2.exchanges) hpolled).symm
    · rename_i hpolled
      have hsame := adds_of_same (P := P) (congrArg (·.2.exchanges) hpolled).symm
      exact hsame.trans (executeHttpDetailed_adds hrequest _ _)
  · exact executeHttpDetailed_adds hrequest none traffic
  · exact executeHttpDetailed_adds hrequest none traffic

/-- The request, its retries, and once more all of it with a new token. -/
theorem executeHttpRequestFlow_adds {dispatch : HttpDispatchParams} {template : HttpRequestTemplate}
    {oauth2Context : Option Oauth2ExecutionContext} {P : OutboundHttpRequest → Prop}
    (hrequest : ∀ sent, prepareRequest crates.json dispatch.request.upstreamBaseUrl template
      dispatch.request.args = .ok sent → P sent)
    (hrenewed : ∀ context token world, oauth2Context = some context →
      (outside.accessToken dispatch.upstreamName context.auth true world).1 = .ok token →
      ∀ sent, prepareRequest crates.json dispatch.request.upstreamBaseUrl
        { template with
          headers := engine.buildHeaders crates dispatch.upstream (some token)
            (dispatch.request.toolCfg.execute.asHttp.bind (·.headers)) }
        dispatch.request.args = .ok sent → P sent)
    (traffic : Traffic W) :
    Adds P traffic
      (engine.executeHttpRequestFlow crates outside dispatch template oauth2Context traffic).2 := by
  have hfirst : Adds P traffic (executeHttpRequestWithRetry crates outside dispatch.request template
      dispatch.retry traffic).2 := executeHttpRequestWithRetry_adds hrequest dispatch.retry traffic
  unfold Engine.executeHttpRequestFlow
  cases htried : executeHttpRequestWithRetry crates outside dispatch.request template dispatch.retry
      traffic with
  | mk result tried =>
    rw [htried] at hfirst
    cases result with
    | ok response => exact hfirst
    | error error =>
      dsimp only
      split
      · cases oauth2Context with
        | none => exact hfirst
        | some context =>
          dsimp only [Traffic.step]
          cases htoken : (outside.accessToken dispatch.upstreamName context.auth true tried.world).1 with
          | error error => exact hfirst.trans (adds_of_same rfl)
          | ok token =>
            refine (hfirst.trans (adds_of_same rfl)).trans (executeHttpRequestWithRetry_adds ?_ _ _)
            exact hrenewed context token tried.world rfl htoken
      · exact hfirst

theorem prepareRequest_leadsTo {json : SerdeJson} {baseUrl : String} {template : HttpRequestTemplate}
    {sent : OutboundHttpRequest} (h : prepareRequest json baseUrl template args = .ok sent) :
    LeadsTo baseUrl sent.url := by
  obtain ⟨path, -, hurl⟩ := prepareRequest_url h
  rw [hurl]
  exact joinUrl_leadsTo baseUrl path

section Tokens
variable {upstreamName : String} {oauth2Context : Option Oauth2ExecutionContext}
  {traffic started : Traffic W} {resolved : Except McpError (Option Oauth2ExecutionContext)}

theorem resolveOauth2Context_exchanges
    (h : Engine.resolveOauth2Context outside upstreamName upstream traffic = (resolved, started)) :
    started.exchanges = traffic.exchanges := by
  unfold Engine.resolveOauth2Context at h
  split at h
  · cases h
    rfl
  · cases h
    rfl

/-- The context is for the authentication of the upstream, and has a token of it. -/
theorem resolveOauth2Context_tokenFor {context : Oauth2ExecutionContext}
    (h : Engine.resolveOauth2Context outside upstreamName upstream traffic =
      (.ok (some context), started)) :
    upstream.auth = some (.oauth2 context.auth) ∧
      TokenFor outside.accessToken upstreamName upstream context.bearer := by
  unfold Engine.resolveOauth2Context at h
  split at h
  · rename_i auth hauth
    obtain ⟨bearer, hbearer, hcontext⟩ := except_map_eq_ok (congrArg Prod.fst h)
    cases hcontext
    exact ⟨hauth, auth, false, traffic.world, hauth, hbearer⟩
  · cases h

end Tokens

theorem executeHttpTool_adds (hhttp : toolCfg.execute.asHttp = some executeHttp)
    (traffic : Traffic W) :
    Adds (ForTool engine crates outside executeHttp args) traffic
      (engine.executeHttpTool crates outside toolCfg args request traffic).2 := by
  unfold Engine.executeHttpTool
  rw [hhttp]
  dsimp only
  cases hupstream : engine.config.upstreams.lookup executeHttp.upstream with
  | none => exact adds_of_same rfl
  | some upstream =>
    dsimp only
    cases hresolved : Engine.resolveOauth2Context outside executeHttp.upstream upstream traffic with
    | mk resolved started =>
      have hstarted : Adds (ForTool engine crates outside executeHttp args) traffic started :=
        adds_of_same (resolveOauth2Context_exchanges hresolved)
      cases resolved with
      | error error => exact hstarted
      | ok oauth2Context =>
        dsimp only
        let template := engine.buildHttpRequestTemplate crates executeHttp upstream
          (oauth2Context.map (·.bearer))
        let dispatch := engine.dispatchParams toolCfg executeHttp upstream args request oauth2Context
        have hflow : Adds (ForTool engine crates outside executeHttp args) started
            (engine.executeHttpRequestFlow crates outside dispatch template oauth2Context started).2 := by
          refine executeHttpRequestFlow_adds (fun sent hsent => ?_)
            (fun context token world hcontext htoken sent hsent => ?_) started
          · refine ⟨upstream, _, hupstream, fun token htoken => ?_, hsent, prepareRequest_leadsTo hsent⟩
            obtain ⟨context, rfl, rfl⟩ := Option.map_eq_some_iff.mp htoken
            exact (resolveOauth2Context_tokenFor hresolved).2
          · subst hcontext
            have hauth := (resolveOauth2Context_tokenFor hresolved).1
            have hconfigured : dispatch.request.toolCfg.execute.asHttp = some executeHttp := hhttp
            rw [hconfigured] at hsent
            refine ⟨upstream, some token, hupstream, fun other hother => ?_, hsent,
              prepareRequest_leadsTo hsent⟩
            cases hother
            exact ⟨context.auth, true, world, hauth, htoken⟩
        cases hran : engine.executeHttpRequestFlow crates outside dispatch template oauth2Context
            started with
        | mk result finished =>
          rw [hran] at hflow
          cases result with
          | error error => exact hstarted.trans hflow
          | ok response => exact hstarted.trans hflow

theorem executePluginTool_adds {P : OutboundHttpRequest → Prop} (traffic : Traffic W) :
    Adds P traffic (engine.executePluginTool crates outside toolCfg args request traffic).2 := by
  unfold Engine.executePluginTool
  split
  · exact adds_of_same rfl
  · split
    · exact adds_of_same rfl
    · split
      · exact adds_of_same rfl
      · dsimp only
        split
        · split
          · rename_i hcalled
            exact adds_of_same (congrArg (·.2.exchanges) hcalled).symm
          · rename_i hcalled
            exact adds_of_same (congrArg (·.2.exchanges) hcalled).symm
        · exact adds_of_same rfl

/-- The requests of a call are those of an HTTP tool, for its upstream. -/
theorem executeToolWithContext_adds (name : String) (traffic : Traffic W) :
    Adds (fun sent => ∃ toolCfg executeHttp, engine.toolMap.lookup name = some toolCfg ∧
        toolCfg.execute.asHttp = some executeHttp ∧ ForTool engine crates outside executeHttp args sent)
      traffic (engine.executeToolWithContext crates outside name args request traffic).2 := by
  unfold Engine.executeToolWithContext
  cases htool : engine.toolMap.lookup name with
  | none => exact adds_of_same rfl
  | some toolCfg =>
    dsimp only
    unfold Engine.executeToolConfig
    split
    · cases hhttp : toolCfg.execute.asHttp with
      | none =>
        unfold Engine.executeHttpTool
        rw [hhttp]
        exact adds_of_same rfl
      | some executeHttp =>
        refine (executeHttpTool_adds hhttp traffic).mono fun sent hsent => ?_
        exact ⟨toolCfg, executeHttp, rfl, hhttp, hsent⟩
    · exact executePluginTool_adds traffic

end Tools

/-! ## Plugins -/

section Plugins
variable (ctx : PluginContext) (base64 : String → String) {W : Type} (outside : Outside W)
  (tokenManager : Option (TokenManager W))

/-- A request of a plugin, with what the upstream is configured to send. -/
def ForPlugin (upstreamName : String) (given : OutboundHttpRequest) (authMode : PluginSendAuthMode)
    (sent : OutboundHttpRequest) : Prop :=
  ∃ upstream oauth2Bearer url, ctx.upstreams.lookup upstreamName = some upstream ∧
    (∀ token, oauth2Bearer = some token → authMode = .inherit ∧
      ∃ accessToken, tokenManager = some accessToken ∧
        TokenFor accessToken upstreamName upstream token) ∧
    resolveUpstreamUrl upstream.baseUrl given.url = .ok url ∧
    sent = ctx.upstreamRequest base64 upstream authMode url given oauth2Bearer ∧
    (given.url.toList.head? = some '/' → LeadsTo upstream.baseUrl sent.url)

variable {ctx base64 outside tokenManager} {upstreamName : String} {given : OutboundHttpRequest}
  {upstream : UpstreamConfig} {authMode : PluginSendAuthMode}

theorem executeUpstreamHttpWithRetry_adds {P : OutboundHttpRequest → Prop}
    {sent : OutboundHttpRequest} (h : P sent) (retry : Option OutboundRetryConfig)
    (cancellation : Option CancellationToken) (traffic : Traffic W) :
    Adds P traffic (executeUpstreamHttpWithRetry outside sent retry cancellation traffic).2 :=
  executeWithRetry_adds (fun _ => adds_of_one h rfl) traffic

section Tokens
variable {oauth2Context : Option PluginOauth2ExecutionContext} {traffic started : Traffic W}
  {resolved : Except McpError (Option PluginOauth2ExecutionContext)}

theorem resolvePluginOauth2Context_exchanges
    (h : resolvePluginOauth2Context tokenManager upstreamName upstream authMode traffic =
      (resolved, started)) : started.exchanges = traffic.exchanges := by
  unfold resolvePluginOauth2Context at h
  split at h
  · split at h
    · cases h
      rfl
    · cases h
      rfl
  · cases h
    rfl

theorem resolvePluginOauth2Context_tokenFor {context : PluginOauth2ExecutionContext}
    (h : resolvePluginOauth2Context tokenManager upstreamName upstream authMode traffic =
      (.ok (some context), started)) :
    authMode = .inherit ∧ upstream.auth = some (.oauth2 context.auth) ∧
      ∃ accessToken, tokenManager = some accessToken ∧
        TokenFor accessToken upstreamName upstream context.bearer := by
  unfold resolvePluginOauth2Context at h
  split at h
  · rename_i auth hauth
    split at h
    · cases h
    · rename_i accessToken
      obtain ⟨bearer, hbearer, hcontext⟩ := except_map_eq_ok (congrArg Prod.fst h)
      cases hcontext
      exact ⟨rfl, hauth, accessToken, rfl, auth, false, traffic.world, hauth, hbearer⟩
  · cases h

end Tokens

/-- Every request is the one that was given, with the headers and a token of the upstream. -/
theorem sendWith_adds (traffic : Traffic W) :
    Adds (ForPlugin ctx base64 tokenManager upstreamName given authMode) traffic
      (ctx.sendWith outside tokenManager base64 upstreamName given authMode traffic).2 := by
  unfold PluginContext.sendWith
  cases hupstream : ctx.upstreams.lookup upstreamName with
  | none => exact adds_of_same rfl
  | some upstream =>
    dsimp only
    cases hresolved : resolvePluginOauth2Context tokenManager upstreamName upstream authMode traffic with
    | mk resolved started =>
      have hstarted : Adds (ForPlugin ctx base64 tokenManager upstreamName given authMode) traffic
          started := adds_of_same (resolvePluginOauth2Context_exchanges hresolved)
      cases resolved with
      | error error => exact hstarted
      | ok oauth2Context =>
        dsimp only
        cases hurl : resolveUpstreamUrl upstream.baseUrl given.url with
        | error error => exact hstarted
        | ok url =>
          dsimp only
          let withToken := ctx.upstreamRequest base64 upstream authMode url given
          have hsent : ∀ oauth2Bearer, (∀ token, oauth2Bearer = some token → authMode = .inherit ∧
              ∃ accessToken, tokenManager = some accessToken ∧
                TokenFor accessToken upstreamName upstream token) →
              ForPlugin ctx base64 tokenManager upstreamName given authMode (withToken oauth2Bearer) :=
            fun oauth2Bearer htoken => ⟨upstream, oauth2Bearer, url, hupstream, htoken, hurl, rfl,
              fun hrelative => resolveUpstreamUrl_leadsTo hrelative hurl⟩
          have hfirst := hsent (oauth2Context.map (·.bearer)) fun token htoken => by
            obtain ⟨context, rfl, rfl⟩ := Option.map_eq_some_iff.mp htoken
            obtain ⟨hmode, -, hobtained⟩ := resolvePluginOauth2Context_tokenFor hresolved
            exact ⟨hmode, hobtained⟩
          let retry := resolveRetryConfig upstream ctx.outboundHttp none
          have htried : Adds (ForPlugin ctx base64 tokenManager upstreamName given authMode) traffic
              (executeUpstreamHttpWithRetry outside (withToken (oauth2Context.map (·.bearer))) retry
                ctx.cancellation started).2 :=
            hstarted.trans (executeUpstreamHttpWithRetry_adds hfirst retry ctx.cancellation started)
          cases hran : executeUpstreamHttpWithRetry outside (withToken (oauth2Context.map (·.bearer)))
              retry ctx.cancellation started with
          | mk result tried =>
            rw [hran] at htried
            cases result with
            | error error => exact htried
            | ok response =>
              cases oauth2Context with
              | none => exact htried
              | some context =>
                obtain ⟨hmode, hauth, accessToken, rfl, -⟩ :=
                  resolvePluginOauth2Context_tokenFor hresolved
                dsimp only [Traffic.step]
                split
                · cases htoken : (accessToken upstreamName context.auth true tried.world).1 with
                  | error error => exact htried.trans (adds_of_same rfl)
                  | ok refreshed =>
                    have hrenewed := hsent (some refreshed) fun token hsame => by
                      cases hsame
                      exact ⟨hmode, accessToken, rfl, context.auth, true, tried.world, hauth, htoken⟩
                    exact (htried.trans (adds_of_same rfl)).trans
                      (executeUpstreamHttpWithRetry_adds hrenewed retry ctx.cancellation _)
                · exact htried

theorem resolvePluginOauth2Context_bare (hmode : authMode ≠ .inherit) (traffic : Traffic W) :
    resolvePluginOauth2Context tokenManager upstreamName upstream authMode traffic =
      (.ok none, traffic) := by
  cases authMode with
  | inherit => exact absurd rfl hmode
  | none => rfl
  | explicit authorization => rfl

/-- Only for the authentication of the upstream is the token manager asked, at any time of a send. -/
theorem sendWith_bare (hmode : authMode ≠ .inherit) (traffic : Traffic W) :
    ctx.sendWith outside tokenManager base64 upstreamName given authMode traffic =
      ctx.sendWith outside none base64 upstreamName given authMode traffic := by
  unfold PluginContext.sendWith
  cases ctx.upstreams.lookup upstreamName with
  | none => rfl
  | some upstream =>
    dsimp only
    rw [resolvePluginOauth2Context_bare hmode, resolvePluginOauth2Context_bare hmode]
    dsimp only
    cases resolveUpstreamUrl upstream.baseUrl given.url with
    | error error => rfl
    | ok url =>
      dsimp only
      -- without a context there is no second try
      generalize executeUpstreamHttpWithRetry outside _ _ ctx.cancellation traffic = ran
      obtain ⟨result, tried⟩ := ran
      cases result with
      | error error => rfl
      | ok response => rfl

end Plugins

/-- Requests for an upstream go to the server of its base URL, with its own token or none. A tool
cannot leave it, whatever its arguments are; a plugin only by an absolute URL. Where a plugin does
not inherit the authentication, its send is as without a token manager. -/
theorem requests_stay_with_upstream (engine : Engine) (crates : Crates) (ctx : PluginContext) {W : Type}
    (outside : EngineOutside W) (tokenManager : Option (TokenManager W)) :
    (∀ name args request traffic, ∃ made,
      (engine.executeToolWithContext crates outside name args request traffic).2.exchanges =
        traffic.exchanges ++ made ∧
      ∀ exchange ∈ made, ∃ toolCfg executeHttp, engine.toolMap.lookup name = some toolCfg ∧
        toolCfg.execute.asHttp = some executeHttp ∧
        ForTool engine crates outside executeHttp args exchange.request) ∧
      (∀ upstreamName given authMode traffic, ∃ made,
        (ctx.sendWith outside.toOutside tokenManager crates.base64.encode upstreamName given authMode
          traffic).2.exchanges = traffic.exchanges ++ made ∧
        ∀ exchange ∈ made,
          ForPlugin ctx crates.base64.encode tokenManager upstreamName given authMode
            exchange.request) ∧
      ∀ upstreamName given (authMode : PluginSendAuthMode) traffic, authMode ≠ .inherit →
        ctx.sendWith outside.toOutside tokenManager crates.base64.encode upstreamName given authMode
            traffic =
          ctx.sendWith outside.toOutside none crates.base64.encode upstreamName given authMode
            traffic :=
  ⟨fun name _ _ traffic => executeToolWithContext_adds name traffic,
    fun _ _ _ traffic => sendWith_adds traffic,
    fun _ _ _ traffic hmode => sendWith_bare hmode traffic⟩

end Dispatch

end RustMcpCore
