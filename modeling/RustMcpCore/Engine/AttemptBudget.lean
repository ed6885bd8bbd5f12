import RustMcpCore.Engine.RequestCourses
import RustMcpCore.Engine.ToolFailures

/-! # The budget of attempts

A retry configuration sets how many requests a call may send, and a refused token may
cost one more. The retries after a refusal start anew with the whole budget.
-/
namespace RustMcpCore.Dispatch
open Library Outbound

/-- `max_attempts`, one if there are no retries. -/
def attemptBudget (retry : Option OutboundRetryConfig) : ℕ :=
  retry.elim 1 fun retry => max 1 retry.maxAttempts.toNat

theorem budget_cases (retry : Option OutboundRetryConfig) (method : String) :
    attemptsLeft retry method + 1 = attemptBudget retry ∨
      attemptsLeft retry method = 0 ∧ 1 ≤ attemptBudget retry := by
  cases hactive : activeRetry retry method with
  | none =>
    refine .inr ⟨attemptsLeft_eq_zero hactive, ?_⟩
    unfold attemptBudget
    cases retry with
    | none => exact le_refl 1
    | some retry => exact le_max_left 1 _
  | some active =>
    obtain ⟨rfl, hmany, -⟩ := retry_of_active hactive
    have hmany : 1 < active.maxAttempts.toNat := UInt32.lt_iff_toNat_lt.mp hmany
    refine .inl ?_
    rw [attemptsLeft, hactive, attemptBudget]
    simp only [Option.elim_some]
    omega

/-- A course that never asks for a new token stays within the budget of one run. -/
theorem made_within {R : Type} {course : Course R} {retry : Option OutboundRetryConfig}
    {method : String} (hleft : course.left = attemptsLeft retry method)
    (haccepted : ∀ result, course.rejected result = false) :
    course.run.2.1 ≤ attemptBudget retry := by
  have hle := Course.made_le_of_accepted haccepted
  have hbudget := budget_cases retry method
  omega

/-- Otherwise it has one more request. -/
theorem made_within_iff {R : Type} {course : Course R} {retry : Option OutboundRetryConfig}
    {method : String} (hleft : course.left = attemptsLeft retry method) :
    course.run.2.1 ≤ attemptBudget retry + 1 ↔ ¬ course.Overspends := by
  rcases budget_cases retry method with hbudget | ⟨hsingle, hbudget⟩
  · rw [← hbudget, ← hleft, Course.made_le_iff]
  · have hspends : ¬ course.Overspends := by
      rintro ⟨m, hpos, hrenews, -⟩
      have hwithin := hrenews.settles.within
      omega
    have hle := Course.made_le_iff.mpr hspends
    exact iff_of_true (by omega) hspends

theorem not_overspends {R : Type} {course : Course R}
    (haccepted : ∀ result, course.rejected result = false) : ¬ course.Overspends := by
  rintro ⟨m, -, hrenews, -⟩
  have hrejected := hrenews.rejected
  rw [haccepted] at hrejected
  cases hrejected

namespace ToolCall
variable (call : ToolCall) (engine : Engine) (crates : Crates) (script : Script)
  (base : EngineOutside Moment)

/-- The requests of a call stay within the budget, with one more if a 401 is answered with a
new token. -/
def WithinBudget : Prop :=
  (call.run engine crates script base).2.exchanges.length ≤
    attemptBudget (call.retry engine) + if call.refreshes then 1 else 0

variable {call engine crates script base}

theorem withinBudget_iff : call.WithinBudget engine crates script base ↔
    ¬ (call.course engine crates script).Overspends := by
  unfold WithinBudget
  rw [run_ends.traffic.exchanges]
  cases hrefreshes : call.refreshes with
  | true =>
    rw [if_pos rfl]
    exact made_within_iff rfl
  | false =>
    rw [if_neg Bool.false_ne_true]
    have hrejected : ∀ result, (call.course engine crates script).rejected result = false := by
      intro result
      rw [Bool.eq_false_iff]
      intro h
      obtain ⟨_, _, _, _, htrue, _⟩ := rejected_iff.mp h
      rw [hrefreshes] at htrue
      cases htrue
    exact iff_of_true (made_within rfl hrejected) (not_overspends hrejected)

end ToolCall

namespace PluginSend
variable (send : PluginSend) (base64 : String → String) (script : Script)
  (base : EngineOutside Moment)

/-- A 401 is answered with a new token. -/
def refreshes : Bool :=
  match send.authMode, send.upstream.auth with
  | .inherit, some (.oauth2 auth) => (OutboundOauth2RefreshPolicy.fromAuth auth).retryOn401Once
  | _, _ => false

/-- As for tools. -/
def WithinBudget : Prop :=
  (send.run base64 script base).2.exchanges.length ≤
    attemptBudget send.retry + if send.refreshes then 1 else 0

variable {send base64 script base}

theorem refreshes_eq {oauth2Context : Option PluginOauth2ExecutionContext}
    (h : send.oauth2Context script = .ok oauth2Context) :
    oauth2Context.any (·.retryOn401Once) = send.refreshes := by
  unfold PluginSend.oauth2Context at h
  unfold refreshes
  cases hmode : send.authMode with
  | none =>
    rw [hmode] at h
    cases h
    rfl
  | explicit authorization =>
    rw [hmode] at h
    cases h
    rfl
  | inherit =>
    cases hauth : send.upstream.auth with
    | none =>
      rw [hmode, hauth] at h
      cases h
      rfl
    | some auth =>
      cases auth with
      | oauth2 auth =>
        rw [hmode, hauth] at h
        obtain ⟨bearer, -, rfl⟩ := except_map_eq_ok h
        rfl
      | _ =>
        rw [hmode, hauth] at h
        cases h
        rfl

theorem withinBudget_iff : send.WithinBudget base64 script base ↔
    ∀ oauth2Context, send.oauth2Context script = .ok oauth2Context →
      ¬ (send.course script oauth2Context).Overspends := by
  unfold WithinBudget
  cases hcontext : send.oauth2Context script with
  | error error =>
    have hrun : send.run base64 script base = _ := run_unresolved hcontext
    rw [hrun]
    exact iff_of_true (Nat.zero_le _) fun _ h => by cases h
  | ok oauth2Context =>
    simp only [Except.ok.injEq, forall_eq']
    have hends : Ends (send.run base64 script base) _ _ _ := run_ends hcontext
    rw [hends.traffic.exchanges, ← refreshes_eq hcontext]
    cases hrefreshes : oauth2Context.any (·.retryOn401Once) with
    | true =>
      rw [if_pos rfl]
      exact made_within_iff rfl
    | false =>
      rw [if_neg Bool.false_ne_true]
      have hrejected : ∀ result, (send.course script oauth2Context).rejected result = false := by
        intro result
        change rejected oauth2Context result = false
        cases result with
        | error error => rfl
        | ok response => rw [rejected, hrefreshes, Bool.and_false]
      exact iff_of_true (made_within rfl hrejected) (not_overspends hrejected)

end PluginSend

/-- A call stays within its budget unless the retries after a refused token overspend. -/
theorem attempts_within_budget (engine : Engine) (crates : Crates) (base64 : String → String) (script : Script)
    (base : EngineOutside Moment) (call : ToolCall) (send : PluginSend) :
    (call.WithinBudget engine crates script base ↔
      ¬ (call.course engine crates script).Overspends) ∧
    (send.WithinBudget base64 script base ↔
      ∀ oauth2Context, send.oauth2Context script = .ok oauth2Context →
        ¬ (send.course script oauth2Context).Overspends) :=
  ⟨ToolCall.withinBudget_iff, PluginSend.withinBudget_iff⟩

/-! ## An upstream that answers a second attempt with a 401 -/

namespace Quotes

def auth : UpstreamOauth2AuthConfig where
  grant := .clientCredentials
  tokenUrl := "http://localhost/token"
  clientId := "server"
  clientSecret := ⟨.inline, "secret"⟩
  authMethod := none
  scopes := []
  audience := none
  extraTokenParams := ∅
  refresh := none
  refreshToken := none
  mtls := none

def upstream (retry : Option OutboundRetryConfig) : UpstreamConfig where
  baseUrl := "http://localhost"
  headers := ∅
  userAgent := none
  timeoutMs := none
  maxResponseBytes := none
  retry
  auth := some (.oauth2 auth)

def executeHttp : ExecuteHttpConfig where
  upstream := "quotes"
  method := "GET"
  path := "/latest"
  query := none
  headers := none
  body := none
  retry := none
  taskSupport := .forbidden

def tool : ToolConfig where
  name := "quote"
  description := "Gives the latest quote."
  cancellable := true
  inputSchema := .object []
  outputSchema := none
  execute := .http executeHttp
  response := none

def engine (retry : Option OutboundRetryConfig) : Engine where
  config := { McpConfig.empty with upstreams := AList.singleton "quotes" (upstream retry) }
  toolMap := AList.singleton "quote" tool
  plugins := .new
  completionSources := ∅

def call (retry : Option OutboundRetryConfig) (request : Option RequestContext) : ToolCall where
  toolCfg := tool
  executeHttp
  http := rfl
  upstream := upstream retry
  args := .object []
  request
  oauth2Context := some ⟨auth, "token", true⟩

def answer (status : UInt16) : Answer := .ok ⟨status, [123, 125]⟩

def script (answers : ℕ → Answer) : Script := .calm answers fun _ => .ok "token"

def base : EngineOutside Moment where
  send _ moment := (answer 200, moment)
  sendUnlessCancelled _ _ moment := (none, moment)
  isCancelled _ moment := (false, moment)
  pollsCancelled _ moment := (false, moment)
  sleep _ moment := moment
  sleepUnlessCancelled _ _ moment := (false, moment)
  accessToken _ _ _ moment := (.ok "token", moment)
  callTool _ _ _ moment := (.panicked none, moment)
  callToolUnlessCancelled _ _ _ moment := (none, moment)
  listPrompts _ _ moment := (.ok [], moment)
  getPrompt _ _ _ _ moment := (.ok ⟨none, []⟩, moment)
  listResources _ _ moment := (.ok [], moment)
  readResource _ _ _ moment := (.ok ⟨[]⟩, moment)
  complete _ _ _ moment := (.ok ⟨[], none, none⟩, moment)

def twice : OutboundRetryConfig where
  maxAttempts := 2
  delayMs := 100
  onNetworkErrors := true
  onStatuses := [503]

end Quotes

/-- With two attempts, four requests are sent. -/
theorem refused_token_overspends :
    ¬ (Quotes.call (some Quotes.twice) none).WithinBudget (Quotes.engine (some Quotes.twice))
      Greeting.crates (Quotes.script fun k => Quotes.answer (if k = 1 then 401 else 503))
      Quotes.base := by
  have hsent : ((Quotes.call (some Quotes.twice) none).run (Quotes.engine (some Quotes.twice))
      Greeting.crates (Quotes.script fun k => Quotes.answer (if k = 1 then 401 else 503))
      Quotes.base).2.exchanges.length = 4 := by decide
  unfold ToolCall.WithinBudget
  rw [hsent]
  decide

end RustMcpCore.Dispatch
