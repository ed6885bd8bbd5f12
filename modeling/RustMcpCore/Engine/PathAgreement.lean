import RustMcpCore.Engine.AttemptBudget

/-! # Tools and plugins on one upstream

The retries of a tool call and of a send of a plugin are decided by predicates of their
own. They differ on answers that the one takes for a reason to try again and the other
does not.
-/
namespace RustMcpCore.Dispatch
open Library Outbound

/-- An answer after which only one of the two tries again. -/
def Disputed (retry : OutboundRetryConfig) (refreshes : Bool) : Answer → Prop
  | .ok response => response.status ∈ retry.onStatuses ∧
      (response.isSuccess = true ∨ refreshes = true ∧ response.status = 401)
  | .error error => retry.onNetworkErrors = true ∧ error.code ≠ ErrorCode.internalError

theorem readAnswer_success {fromSlice : FromSlice} {response : OutboundHttpResponse}
    (h : response.isSuccess = true) :
    (∃ value, readAnswer fromSlice (.ok response) = .ok value) ∨
      ∃ error, readAnswer fromSlice (.ok response) = .error (.response error) := by
  simp only [readAnswer]
  rw [if_pos h]
  cases response.json fromSlice with
  | ok value => exact .inl ⟨value, rfl⟩
  | error error => exact .inr ⟨error, rfl⟩

theorem readAnswer_failure {fromSlice : FromSlice} {response : OutboundHttpResponse}
    (h : response.isSuccess = false) :
    readAnswer fromSlice (.ok response) = .error (.upstreamStatus response.status) :=
  if_neg (Bool.eq_false_iff.mp h)

theorem retries_eq_iff {fromSlice : FromSlice} {retry : OutboundRetryConfig} {refreshes : Bool}
    {answer : Answer} :
    shouldRetryHttpExecution refreshes (readAnswer fromSlice answer) retry =
      shouldRetryUpstreamHttp answer retry ↔ ¬ Disputed retry refreshes answer := by
  cases answer with
  | error error =>
    change retry.onNetworkErrors =
      (decide (error.code = ErrorCode.internalError) && retry.onNetworkErrors) ↔ ¬ (_ ∧ _)
    cases retry.onNetworkErrors with
    | false => simp
    | true => simp
  | ok response =>
    change _ = decide (response.status ∈ retry.onStatuses) ↔ ¬ (_ ∧ _)
    cases hsuccess : response.isSuccess with
    | true =>
      have hfinal : shouldRetryHttpExecution refreshes (readAnswer fromSlice (.ok response)) retry =
          false := by
        rcases readAnswer_success hsuccess with ⟨value, hread⟩ | ⟨error, hread⟩
        · rw [hread]
          rfl
        · rw [hread]
          rfl
      rw [hfinal]
      simp
    | false =>
      rw [readAnswer_failure hsuccess]
      simp only [shouldRetryHttpExecution]
      by_cases hrefused : refreshes = true ∧ response.status = 401
      · simp [hrefused]
      · simp [hrefused]

/-- A tool without retries of its own and a plugin that inherits, on one upstream. -/
structure Pairing (engine : Engine) where
  toolCfg : ToolConfig
  executeHttp : ExecuteHttpConfig
  http : toolCfg.execute.asHttp = some executeHttp
  unretried : executeHttp.retry = none
  toolMethod : methodIsRetryable executeHttp.method = true
  upstream : UpstreamConfig
  found : engine.config.upstreams.lookup executeHttp.upstream = some upstream
  args : Value
  request : Option RequestContext
  pluginRequest : OutboundHttpRequest
  pluginMethod : methodIsRetryable pluginRequest.method = true
  url : String
  resolves : resolveUpstreamUrl upstream.baseUrl pluginRequest.url = .ok url

namespace Pairing
variable {engine : Engine} (pair : Pairing engine) (crates : Crates) (answers : ℕ → Answer)
  (tokens : ℕ → Except McpError String) (base : EngineOutside Moment)

def send : PluginSend where
  ctx := engine.buildPluginContext pair.request
  upstreamName := pair.executeHttp.upstream
  upstream := pair.upstream
  found := pair.found
  request := pair.pluginRequest
  url := pair.url
  resolves := pair.resolves
  authMode := .inherit

def call (oauth2Context : Option Oauth2ExecutionContext) : ToolCall where
  toolCfg := pair.toolCfg
  executeHttp := pair.executeHttp
  http := pair.http
  upstream := pair.upstream
  args := pair.args
  request := pair.request
  oauth2Context

/-- `execute_http_tool` from the start. -/
def toolRun : Except McpError CallToolResult × Traffic Moment :=
  engine.executeHttpTool crates ((Script.calm answers tokens).outside base) pair.toolCfg pair.args
    pair.request ⟨⟨0, []⟩, []⟩

def pluginRun : Answer × Traffic Moment :=
  pair.send.run crates.base64.encode (.calm answers tokens) base

/-- As many requests, and the tokens forced after the same ones of them. -/
def SameCourse : Prop :=
  (pair.toolRun crates answers tokens base).2.exchanges.length =
      (pair.pluginRun crates answers tokens base).2.exchanges.length ∧
    (pair.toolRun crates answers tokens base).2.world.forced =
      (pair.pluginRun crates answers tokens base).2.world.forced

def retry : Option OutboundRetryConfig :=
  resolveRetryConfig pair.upstream engine.config.outboundHttp none

/-- What the token manager gives before the first request. -/
def oauth2Context : Except McpError (Option Oauth2ExecutionContext) :=
  match pair.upstream.auth with
  | some (.oauth2 auth) =>
    let retryOn401Once := (OutboundOauth2RefreshPolicy.fromAuth auth).retryOn401Once
    (tokens 0).map fun bearer => some { auth, bearer, retryOn401Once }
  | _ => .ok none

/-- No answer is disputed from `start` on, as long as there are attempts left. -/
def NoDispute (refreshes : Bool) (start : ℕ) : Prop :=
  ∀ retry, activeRetry pair.retry pair.executeHttp.method = some retry →
    ∀ m < retry.maxAttempts.toNat - 1,
      (∀ i < m, shouldRetryHttpExecution refreshes (readAnswer crates.fromSlice (answers (start + i)))
        retry = true) →
      ¬ Disputed retry refreshes (answers (start + m))

/-- The templates of the tool render with each token that is used, and neither run of the
retries meets a disputed answer. -/
structure Undisputed (oauth2Context : Option Oauth2ExecutionContext) : Prop where
  prepared : (pair.call oauth2Context).unprepared engine crates (oauth2Context.map (·.bearer)) = none
  first : pair.NoDispute crates answers (pair.call oauth2Context).refreshes 0
  renewed : ∀ m token,
    ((pair.call oauth2Context).course engine crates (.calm answers tokens)).Renews m →
      tokens (m + 1) = .ok token →
      (pair.call oauth2Context).unprepared engine crates (some token) = none
  second : ∀ m token,
    ((pair.call oauth2Context).course engine crates (.calm answers tokens)).Renews m →
      tokens (m + 1) = .ok token →
      pair.NoDispute crates answers (pair.call oauth2Context).refreshes (m + 1)

end Pairing

/-! ## The attempts of a script without cancellation -/

namespace ToolCall
variable {call : ToolCall} {engine : Engine} {crates : Crates} {answers : ℕ → Answer}
  {tokens : ℕ → Except McpError String} {bearer : Option String}

theorem calm_refusal (k : ℕ) :
    (call.attempts engine crates (.calm answers tokens) bearer).refusal k =
      call.unprepared engine crates bearer := by
  unfold attempts attemptsOf
  have hprevented : call.prevented engine crates (.calm answers tokens) bearer k =
      call.unprepared engine crates bearer := by
    simp [prevented, Script.calm]
  split
  · exact hprevented
  · simp only [retrying, Script.calm, Bool.and_false, Bool.false_eq_true, if_false]
    exact hprevented

theorem calm_cut (k : ℕ) :
    (call.attempts engine crates (.calm answers tokens) bearer).cut k = none := by
  unfold attempts attemptsOf
  split
  · rfl
  · simp [retrying, Script.calm]

theorem calm_again {retry : OutboundRetryConfig}
    (hactive : activeRetry (call.retry engine) call.executeHttp.method = some retry) (k : ℕ) :
    (call.attempts engine crates (.calm answers tokens) bearer).again k =
      shouldRetryHttpExecution call.refreshes (readAnswer crates.fromSlice (answers k)) retry := by
  have hparams : activeRetry (call.retryParams engine).retry (call.retryParams engine).method =
      some retry := hactive
  simp [attempts, attemptsOf, hparams, retrying, result, Script.calm, readOutcome]

theorem calm_result (k : ℕ) : (call.attempts engine crates (.calm answers tokens) bearer).result k =
    readAnswer crates.fromSlice (answers k) := by
  unfold attempts
  rw [attemptsOf_result]
  simp [result, Script.calm, readOutcome]

theorem calm_steady_iff : (call.attempts engine crates (.calm answers tokens) bearer).Steady ↔
    call.unprepared engine crates bearer = none := by
  constructor
  · intro h
    rw [← calm_refusal 0]
    exact h.made 0
  · intro h
    refine ⟨fun k => ?_, calm_cut⟩
    rw [calm_refusal]
    exact h

theorem calm_steady_or : (call.attempts engine crates (.calm answers tokens) bearer).Steady ∨
    ∀ k, (call.attempts engine crates (.calm answers tokens) bearer).refusal k ≠ none := by
  rw [calm_steady_iff]
  refine (em _).imp_right fun h k => ?_
  rw [calm_refusal]
  exact h

end ToolCall

namespace PluginSend
variable {send : PluginSend} {answers : ℕ → Answer} {tokens : ℕ → Except McpError String}

theorem calm_steady : (send.attempts (.calm answers tokens)).Steady := by
  unfold attempts attemptsOf
  split
  · exact ⟨fun _ => rfl, fun _ => rfl⟩
  · constructor
    · intro k
      simp [retrying, Script.calm]
    · intro k
      simp [retrying, Script.calm]

theorem calm_result (k : ℕ) : (send.attempts (.calm answers tokens)).result k = answers k := by
  unfold attempts
  rw [attemptsOf_result]
  rfl

theorem calm_again {retry : OutboundRetryConfig}
    (hactive : activeRetry send.retry send.request.method = some retry) (k : ℕ) :
    (send.attempts (.calm answers tokens)).again k = shouldRetryUpstreamHttp (answers k) retry := by
  simp [attempts, attemptsOf, hactive, retrying, Script.calm]

end PluginSend

namespace Pairing
variable {engine : Engine} {pair : Pairing engine} {crates : Crates} {answers : ℕ → Answer}
  {tokens : ℕ → Except McpError String} {base : EngineOutside Moment}

theorem retry_call (oauth2Context : Option Oauth2ExecutionContext) :
    (pair.call oauth2Context).retry engine = pair.retry := by
  unfold ToolCall.retry retry call
  rw [pair.unretried]

theorem activeRetry_send : activeRetry pair.send.retry pair.send.request.method =
    activeRetry pair.retry pair.executeHttp.method := by
  have hsend : methodIsRetryable pair.send.request.method = true := pair.pluginMethod
  unfold activeRetry
  rw [pair.toolMethod, hsend]
  rfl

theorem left_eq (oauth2Context : Option Oauth2ExecutionContext)
    (context : Option PluginOauth2ExecutionContext) :
    ((pair.call oauth2Context).course engine crates (.calm answers tokens)).left =
      (pair.send.course (.calm answers tokens) context).left := by
  change attemptsLeft ((pair.call oauth2Context).retry engine) pair.executeHttp.method =
    attemptsLeft pair.send.retry pair.send.request.method
  unfold attemptsLeft
  rw [retry_call, activeRetry_send]

/-- The runs of both go on alike exactly if no answer is disputed. -/
theorem agree_iff {oauth2Context : Option Oauth2ExecutionContext} {bearer : Option String}
    {k : ℕ} :
    ((pair.call oauth2Context).attempts engine crates (.calm answers tokens) bearer).Agree
        (pair.send.attempts (.calm answers tokens))
        ((pair.call oauth2Context).course engine crates (.calm answers tokens)).left k ↔
      pair.NoDispute crates answers (pair.call oauth2Context).refreshes k := by
  change Attempts.Agree _ _
    (attemptsLeft ((pair.call oauth2Context).retry engine) pair.executeHttp.method) k ↔ _
  rw [retry_call]
  unfold Attempts.Agree NoDispute attemptsLeft
  cases hactive : activeRetry pair.retry pair.executeHttp.method with
  | none => exact iff_of_true (fun m hm => absurd hm (Nat.not_lt_zero m)) nofun
  | some retry =>
    have htool : activeRetry ((pair.call oauth2Context).retry engine)
        (pair.call oauth2Context).executeHttp.method = some retry := by
      rw [retry_call]
      exact hactive
    have hplugin := activeRetry_send.trans hactive
    simp only [Option.some.injEq, forall_eq', Option.elim_some]
    refine forall₂_congr fun m _ => ?_
    simp only [ToolCall.calm_again htool, PluginSend.calm_again hplugin, retries_eq_iff]

theorem matches_iff {oauth2Context : Option Oauth2ExecutionContext}
    {context : Option PluginOauth2ExecutionContext} :
    ((pair.call oauth2Context).course engine crates (.calm answers tokens)).Matches
        (pair.send.course (.calm answers tokens) context) ↔
      pair.Undisputed crates answers tokens oauth2Context := by
  have hsecond : ∀ m token, tokens (m + 1) = .ok token →
      ((pair.call oauth2Context).course engine crates (.calm answers tokens)).second (m + 1) =
        (pair.call oauth2Context).attempts engine crates (.calm answers tokens) (some token) := by
    intro m token htoken
    change (pair.call oauth2Context).attempts engine crates _ (tokens (m + 1)).toOption = _
    rw [htoken]
    rfl
  constructor
  · intro h
    refine ⟨ToolCall.calm_steady_iff.mp h.first_steady, agree_iff.mp h.first, ?_, ?_⟩
    · intro m token hrenews htoken
      have hsteady := h.second_steady m hrenews (ToolCall.renewal_eq_none.mpr ⟨token, htoken⟩)
      rw [hsecond m token htoken] at hsteady
      exact ToolCall.calm_steady_iff.mp hsteady
    · intro m token hrenews htoken
      have hagree := h.second m hrenews (ToolCall.renewal_eq_none.mpr ⟨token, htoken⟩)
      rw [hsecond m token htoken] at hagree
      exact agree_iff.mp hagree
  · intro h
    refine ⟨ToolCall.calm_steady_iff.mpr h.prepared, agree_iff.mpr h.first, ?_, ?_⟩
    · intro m hrenews hrenewal
      obtain ⟨token, htoken⟩ := ToolCall.renewal_eq_none.mp hrenewal
      rw [hsecond m token htoken]
      exact ToolCall.calm_steady_iff.mpr (h.renewed m token hrenews htoken)
    · intro m hrenews hrenewal
      obtain ⟨token, htoken⟩ := ToolCall.renewal_eq_none.mp hrenewal
      rw [hsecond m token htoken]
      exact agree_iff.mpr (h.second m token hrenews htoken)

def forPlugin (context : Oauth2ExecutionContext) : PluginOauth2ExecutionContext :=
  ⟨context.auth, context.bearer, context.retryOn401Once⟩

theorem send_oauth2Context : pair.send.oauth2Context (.calm answers tokens) =
    (pair.oauth2Context tokens).map (Option.map forPlugin) := by
  unfold PluginSend.oauth2Context oauth2Context
  have hmode : pair.send.authMode = .inherit := rfl
  have hupstream : pair.send.upstream = pair.upstream := rfl
  rw [hmode, hupstream]
  cases pair.upstream.auth with
  | none => rfl
  | some auth =>
    cases auth with
    | oauth2 auth =>
      change (tokens 0).map _ = ((tokens 0).map _).map _
      cases tokens 0 with
      | error error => rfl
      | ok token => rfl
    | _ => rfl

theorem resolve_eq : Engine.resolveOauth2Context ((Script.calm answers tokens).outside base)
    pair.executeHttp.upstream pair.upstream ⟨⟨0, []⟩, []⟩ =
      (pair.oauth2Context tokens, ⟨⟨0, []⟩, []⟩) := by
  unfold Engine.resolveOauth2Context oauth2Context
  cases pair.upstream.auth with
  | none => rfl
  | some auth =>
    cases auth with
    | oauth2 auth => rfl
    | _ => rfl

theorem toolRun_unresolved {error : McpError} (h : pair.oauth2Context tokens = .error error) :
    (pair.toolRun crates answers tokens base).2 = ⟨⟨0, []⟩, []⟩ := by
  unfold toolRun Engine.executeHttpTool
  rw [pair.http]
  simp only
  rw [pair.found]
  simp only
  rw [resolve_eq, h]

theorem toolRun_traffic {context : Option Oauth2ExecutionContext}
    (h : pair.oauth2Context tokens = .ok context) :
    (pair.toolRun crates answers tokens base).2 =
      ((pair.call context).run engine crates (.calm answers tokens) base).2 := by
  unfold toolRun Engine.executeHttpTool
  rw [pair.http]
  simp only
  rw [pair.found]
  simp only
  rw [resolve_eq, h]
  simp only
  split
  · rename_i hflow
    exact (congrArg Prod.snd hflow).symm
  · rename_i hflow
    exact (congrArg Prod.snd hflow).symm

/-- Both take the same answers for a refused token. -/
theorem rejected_eq (context : Option Oauth2ExecutionContext) (k : ℕ) :
    ((pair.call context).course engine crates (.calm answers tokens)).rejected
        (((pair.call context).course engine crates (.calm answers tokens)).first.result k) =
      (pair.send.course (.calm answers tokens) (context.map forPlugin)).rejected
        ((pair.send.course (.calm answers tokens) (context.map forPlugin)).first.result k) := by
  have htool : ((pair.call context).course engine crates (.calm answers tokens)).first.result k =
      readAnswer crates.fromSlice (answers k) := ToolCall.calm_result k
  have hplugin : (pair.send.course (.calm answers tokens) (context.map forPlugin)).first.result k =
      answers k := PluginSend.calm_result k
  rw [htool, hplugin]
  change (pair.call context).rejected _ = PluginSend.rejected (context.map forPlugin) _
  have hany : (context.map forPlugin).any (·.retryOn401Once) = (pair.call context).refreshes := by
    cases context with
    | none => rfl
    | some context => rfl
  cases answers k with
  | error error => exact Bool.and_false _
  | ok response =>
    unfold PluginSend.rejected
    simp only
    rw [hany]
    cases hsuccess : response.isSuccess with
    | true =>
      have hstatus : response.status ≠ 401 := by
        intro h
        unfold OutboundHttpResponse.isSuccess at hsuccess
        rw [h] at hsuccess
        exact absurd hsuccess (by decide)
      have hread : (pair.call context).rejected (readAnswer crates.fromSlice (.ok response)) =
          false := by
        rcases readAnswer_success hsuccess with ⟨value, hread⟩ | ⟨error, hread⟩
        · rw [hread]
          rfl
        · rw [hread]
          exact Bool.and_false _
      rw [hread, decide_eq_false hstatus, Bool.false_and]
    | false =>
      rw [readAnswer_failure hsuccess, ToolCall.rejected, Bool.and_comm]
      simp only [HttpExecutionError.statusCode, Option.some.injEq]

theorem renewal_iff (k : ℕ) : ToolCall.renewal (.calm answers tokens) k = none ↔
    PluginSend.renewal (.calm answers tokens) k = none :=
  ToolCall.renewal_eq_none.trans PluginSend.renewal_eq_none.symm

theorem run_eq_iff (context : Option Oauth2ExecutionContext) :
    ((pair.call context).course engine crates (.calm answers tokens)).run.2 =
        (pair.send.course (.calm answers tokens) (context.map forPlugin)).run.2 ↔
      pair.Undisputed crates answers tokens context :=
  (Course.same_iff (left_eq context (context.map forPlugin)) ToolCall.calm_steady_or
    (fun _ => ToolCall.calm_steady_or) PluginSend.calm_steady (fun _ => PluginSend.calm_steady)
    (rejected_eq context) renewal_iff).trans matches_iff

/-- Tools and plugins send the same requests and force the same tokens exactly if no answer
that comes while there are attempts left is disputed. -/
theorem sameCourse_iff : pair.SameCourse crates answers tokens base ↔
    ∀ oauth2Context, pair.oauth2Context tokens = .ok oauth2Context →
      pair.Undisputed crates answers tokens oauth2Context := by
  unfold SameCourse
  cases hcontext : pair.oauth2Context tokens with
  | error error =>
    have hplugin : pair.pluginRun crates answers tokens base = _ :=
      PluginSend.run_unresolved (by rw [send_oauth2Context, hcontext]; rfl)
    rw [toolRun_unresolved hcontext, hplugin]
    exact iff_of_true ⟨rfl, rfl⟩ fun _ h => by cases h
  | ok context =>
    have hplugin : pair.send.oauth2Context (.calm answers tokens) = .ok (context.map forPlugin) := by
      rw [send_oauth2Context, hcontext]
      rfl
    have hends : Ends (pair.pluginRun crates answers tokens base) _ _ _ :=
      PluginSend.run_ends hplugin
    have htool : Ends ((pair.call context).run engine crates (.calm answers tokens) base) _ _ _ :=
      ToolCall.run_ends
    simp only [Except.ok.injEq, forall_eq']
    rw [toolRun_traffic hcontext, htool.traffic.exchanges, hends.traffic.exchanges,
      htool.traffic.world, hends.traffic.world, ← run_eq_iff, Prod.ext_iff]
    refine and_congr_right fun _ => ?_
    refine ⟨fun h => ?_, congrArg Option.toList⟩
    have hhead := congrArg List.head? h
    rwa [Option.head?_toList, Option.head?_toList] at hhead

end Pairing

/-! ## A refused token that is a reason to try again -/

namespace Quotes

def onRefusal : OutboundRetryConfig where
  maxAttempts := 2
  delayMs := 100
  onNetworkErrors := true
  onStatuses := [401]

theorem tool_http : tool.execute.asHttp = some executeHttp := rfl

def pair : Pairing (engine (some onRefusal)) where
  toolCfg := tool
  executeHttp
  http := tool_http
  unretried := rfl
  toolMethod := by decide
  upstream := upstream (some onRefusal)
  found := rfl
  args := .object []
  request := none
  pluginRequest := { method := "GET", url := "/latest" }
  pluginMethod := by decide
  url := "http://localhost/latest"
  resolves := rfl

end Quotes

/-- The tool forces a token after the first request, the plugin never does. -/
theorem refused_token_retried :
    ¬ Quotes.pair.SameCourse Greeting.crates
      (fun k => Quotes.answer (if k = 0 then 401 else 200)) (fun _ => .ok "token") Quotes.base := by
  have htool : (Quotes.pair.toolRun Greeting.crates
      (fun k => Quotes.answer (if k = 0 then 401 else 200)) (fun _ => .ok "token")
      Quotes.base).2.world.forced = [1] := by decide
  have hplugin : (Quotes.pair.pluginRun Greeting.crates
      (fun k => Quotes.answer (if k = 0 then 401 else 200)) (fun _ => .ok "token")
      Quotes.base).2.world.forced = [] := by decide
  rintro ⟨-, hforced⟩
  rw [htool, hplugin] at hforced
  cases hforced

end RustMcpCore.Dispatch
