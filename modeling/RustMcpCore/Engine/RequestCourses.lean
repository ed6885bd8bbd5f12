import RustMcpCore.Engine.ToolDispatch
import RustMcpCore.Library.Attempts
import RustMcpCore.Plugins.Send

/-! # The courses of outbound requests

A script says beforehand what happens at each await of a call: what the upstream
answers, which tokens there are, where the cancellation is noticed. With it the retries
of a tool call and of a plugin are courses of attempts.
-/
namespace RustMcpCore.Dispatch
open Library Outbound

/-- How far a call has come. -/
structure Moment where
  /-- The requests that have been sent. -/
  sent : ℕ
  /-- After how many of them a new token was forced. -/
  forced : List ℕ

/-- All entries are numbered by how many requests have been sent before. -/
structure Script where
  answers : ℕ → Answer
  tokens : ℕ → Except McpError String
  /-- The token of the call has been cancelled when the request is due. -/
  cancelled : ℕ → Bool
  /-- A `select!` looks at the token before it starts the request. -/
  polledFirst : ℕ → Bool
  /-- The token wins while the request is out. -/
  dropped : ℕ → Bool
  /-- The token wins in the delay before the request. -/
  awoken : ℕ → Bool

namespace Script
variable (script : Script)

def outside (base : EngineOutside Moment) : EngineOutside Moment :=
  { base with
    send := fun _ moment => (script.answers moment.sent, { moment with sent := moment.sent + 1 })
    sendUnlessCancelled := fun _ _ moment =>
      (if script.dropped moment.sent then none else some (script.answers moment.sent),
        { moment with sent := moment.sent + 1 })
    isCancelled := fun _ moment => (script.cancelled moment.sent, moment)
    pollsCancelled := fun _ moment =>
      (script.cancelled moment.sent && script.polledFirst moment.sent, moment)
    sleep := fun _ moment => moment
    sleepUnlessCancelled := fun _ _ moment => (script.awoken moment.sent, moment)
    accessToken := fun _ _ forceRefresh moment =>
      (script.tokens moment.sent,
        if forceRefresh then { moment with forced := moment.forced ++ [moment.sent] } else moment) }

/-- The script of a call whose token is never cancelled. -/
def calm (answers : ℕ → Answer) (tokens : ℕ → Except McpError String) : Script where
  answers
  tokens
  cancelled _ := false
  polledFirst _ := false
  dropped _ := false
  awoken _ := false

end Script

/-! ## Retries -/

/-- The settings of the retries if there are any. -/
def activeRetry (retry : Option OutboundRetryConfig) (method : String) :
    Option OutboundRetryConfig :=
  retry.filter fun retry => 1 < retry.maxAttempts && methodIsRetryable method

/-- The attempts after the first. -/
def attemptsLeft (retry : Option OutboundRetryConfig) (method : String) : ℕ :=
  (activeRetry retry method).elim 0 fun retry => retry.maxAttempts.toNat - 1

theorem attemptsLeft_eq_zero {retry : Option OutboundRetryConfig} {method : String}
    (h : activeRetry retry method = none) : attemptsLeft retry method = 0 := by
  rw [attemptsLeft, h, Option.elim_none]

theorem retry_of_active {retry : Option OutboundRetryConfig} {method : String}
    {active : OutboundRetryConfig} (h : activeRetry retry method = some active) :
    retry = some active ∧ 1 < active.maxAttempts ∧ methodIsRetryable method = true := by
  obtain ⟨hretry, hactive⟩ := Option.filter_eq_some_iff.mp h
  obtain ⟨hattempts, hmethod⟩ := Bool.and_eq_true_iff.mp hactive
  exact ⟨hretry, of_decide_eq_true hattempts, hmethod⟩

/-- The traffic of a call that has sent so many requests. -/
structure At (traffic : Traffic Moment) (sent : ℕ) (forced : List ℕ) : Prop where
  world : traffic.world = ⟨sent, forced⟩
  exchanges : traffic.exchanges.length = sent

structure Ends {R : Type} (out : R × Traffic Moment) (result : R) (sent : ℕ) (forced : List ℕ) :
    Prop where
  result : out.1 = result
  traffic : At out.2 sent forced

/-- A call that takes the result of its first run if it is accepted, and otherwise goes on with
a renewal, follows the course. -/
theorem ends_of_first {R : Type} {course : Course R} {first out : R × Traffic Moment}
    (hfirst : Ends first (course.first.run course.left 0).1 (course.first.run course.left 0).2 [])
    (haccepted : course.rejected first.1 = false → out = first)
    (hfailed : ∀ sent failed, At first.2 sent [] → course.rejected first.1 = true →
      course.renewal sent = some failed → out = (failed, ⟨⟨sent, [sent]⟩, first.2.exchanges⟩))
    (hrenewed : ∀ sent, At first.2 sent [] → course.rejected first.1 = true →
      course.renewal sent = none → Ends out ((course.second sent).run course.left sent).1
        ((course.second sent).run course.left sent).2 [sent]) :
    Ends out course.run.1 course.run.2.1 course.run.2.2.toList := by
  cases hrejected : course.rejected first.1 with
  | false =>
    rw [haccepted hrejected]
    rw [hfirst.result] at hrejected
    rw [Course.run_accepted hrejected]
    exact hfirst
  | true =>
    have hrenews : course.rejected (course.first.run course.left 0).1 = true := by
      rw [← hfirst.result]
      exact hrejected
    obtain ⟨m, hrenews⟩ := Course.renews_of_rejected hrenews
    rw [hrenews.first_run] at hfirst
    cases hrenewal : course.renewal (m + 1) with
    | some failed =>
      rw [hrenews.run_failed hrenewal, hfailed _ _ hfirst.traffic hrejected hrenewal]
      exact ⟨rfl, rfl, hfirst.traffic.exchanges⟩
    | none =>
      rw [hrenews.run_second hrenewal]
      exact hrenewed _ hfirst.traffic hrejected hrenewal

section Retry
variable {E T : Type} (script : Script) (params : RetryExecutionParams E)
  (prevented : ℕ → Option (Except E T)) (result : ℕ → Except E T)
  (shouldRetry : Except E T → OutboundRetryConfig → Bool)

/-- An operation that sends one request if nothing prevents it. -/
structure Follows (operation : Traffic Moment → Except E T × Traffic Moment) : Prop where
  holds : ∀ traffic sent forced instead, At traffic sent forced →
    prevented sent = some instead → Ends (operation traffic) instead sent forced
  sends : ∀ traffic sent forced, At traffic sent forced → prevented sent = none →
    Ends (operation traffic) (result sent) (sent + 1) forced

/-- An operation that is not tried again. -/
def single : Attempts (Except E T) where
  refusal := prevented
  result
  again _ := false
  cut _ := none

/-- The attempts of the loop. -/
def retrying (retry : OutboundRetryConfig) : Attempts (Except E T) where
  refusal k :=
    if params.cancellation.isSome && script.cancelled k then some (.error params.cancelledError)
    else prevented k
  result
  again k := shouldRetry (result k) retry
  cut k :=
    if params.cancellation.isSome && script.awoken k then some (.error params.cancelledError)
    else none

/-- What `execute_with_retry` makes of an operation. -/
def attemptsOf : Attempts (Except E T) :=
  match activeRetry params.retry params.method with
  | none => single prevented result
  | some retry => retrying script params prevented result shouldRetry retry

end Retry

section Ends
variable {E T : Type} {script : Script} {base : EngineOutside Moment}
  {params : RetryExecutionParams E} {prevented : ℕ → Option (Except E T)}
  {result : ℕ → Except E T} {shouldRetry : Except E T → OutboundRetryConfig → Bool}
  {operation : Traffic Moment → Except E T × Traffic Moment} {traffic : Traffic Moment}
  {sent : ℕ} {forced : List ℕ}

theorem cancelledBefore_at (h : At traffic sent forced) :
    cancelledBefore (script.outside base).toOutside params traffic =
      (params.cancellation.isSome && script.cancelled sent, traffic) := by
  unfold cancelledBefore
  obtain ⟨world, exchanges⟩ := traffic
  cases h.world
  cases params.cancellation with
  | none => rfl
  | some token => rfl

theorem delayed_at (h : At traffic sent forced) (delayMs : UInt64) :
    delayed (script.outside base).toOutside params delayMs traffic =
      (params.cancellation.isSome && script.awoken sent, traffic) := by
  unfold delayed
  obtain ⟨world, exchanges⟩ := traffic
  cases h.world
  cases params.cancellation with
  | none => rfl
  | some token => rfl

variable {retry : OutboundRetryConfig}
  {again : Option (Traffic Moment → Except E T × Traffic Moment)}

theorem retryRound_refused {refused : Except E T} (hfollows : Follows prevented result operation)
    (hprevented : ∀ k instead, prevented k = some instead → shouldRetry instead retry = false)
    (h : At traffic sent forced)
    (hrefusal : (retrying script params prevented result shouldRetry retry).refusal sent =
      some refused) :
    Ends (retryRound (script.outside base).toOutside params operation shouldRetry retry again
      traffic) refused sent forced := by
  unfold retryRound
  rw [cancelledBefore_at h]
  simp only [retrying] at hrefusal
  cases hcancelled : params.cancellation.isSome && script.cancelled sent with
  | true =>
    rw [hcancelled, if_pos rfl] at hrefusal
    cases hrefusal
    exact ⟨rfl, h⟩
  | false =>
    rw [hcancelled, if_neg Bool.false_ne_true] at hrefusal
    have hends := hfollows.holds traffic sent forced refused h hrefusal
    have hstop := hprevented sent refused hrefusal
    rw [← hends.result] at hstop
    cases again with
    | none => exact hends
    | some rest => simpa only [hstop, Bool.false_eq_true, if_false] using hends

variable (base again) in
theorem retryRound_made (hfollows : Follows prevented result operation) (h : At traffic sent forced)
    (hrefusal : (retrying script params prevented result shouldRetry retry).refusal sent = none) :
    Ends (operation traffic) (result sent) (sent + 1) forced ∧
      retryRound (script.outside base).toOutside params operation shouldRetry retry again traffic =
        match again with
        | none => operation traffic
        | some again =>
          if shouldRetry (result sent) retry then
            if params.cancellation.isSome && script.awoken (sent + 1) then
              (.error params.cancelledError, (operation traffic).2)
            else again (operation traffic).2
          else (result sent, (operation traffic).2) := by
  unfold retryRound
  rw [cancelledBefore_at h]
  simp only [retrying] at hrefusal
  cases hcancelled : params.cancellation.isSome && script.cancelled sent with
  | true =>
    rw [hcancelled, if_pos rfl] at hrefusal
    cases hrefusal
  | false =>
    rw [hcancelled, if_neg Bool.false_ne_true] at hrefusal
    have hends := hfollows.sends traffic sent forced h hrefusal
    refine ⟨hends, ?_⟩
    cases again with
    | none => rfl
    | some rest =>
      simp only [hends.result]
      rw [delayed_at hends.traffic]
      cases params.cancellation.isSome && script.awoken (sent + 1) with
      | true => simp only [if_true]
      | false => simp only [Bool.false_eq_true, if_false]

/-- The loop makes the attempts it is said to make. -/
theorem retryLoop_ends (hfollows : Follows prevented result operation)
    (hprevented : ∀ k instead, prevented k = some instead → shouldRetry instead retry = false)
    (left : ℕ) (h : At traffic sent forced) :
    Ends (retryLoop (script.outside base).toOutside params operation shouldRetry retry left traffic)
      ((retrying script params prevented result shouldRetry retry).run left sent).1
      ((retrying script params prevented result shouldRetry retry).run left sent).2 forced := by
  induction left generalizing traffic sent with
  | zero =>
    cases hrefusal : (retrying script params prevented result shouldRetry retry).refusal sent with
    | some refused =>
      rw [Attempts.run_refused hrefusal]
      exact retryRound_refused hfollows hprevented h hrefusal
    | none =>
      obtain ⟨hends, hround⟩ := retryRound_made base none hfollows h hrefusal
      rw [Attempts.run_last hrefusal (.inl rfl)]
      unfold retryLoop
      rw [hround]
      exact hends
  | succ left ih =>
    cases hrefusal : (retrying script params prevented result shouldRetry retry).refusal sent with
    | some refused =>
      rw [Attempts.run_refused hrefusal]
      exact retryRound_refused hfollows hprevented h hrefusal
    | none =>
      obtain ⟨hends, hround⟩ := retryRound_made base (some (retryLoop
        (script.outside base).toOutside params operation shouldRetry retry left)) hfollows h hrefusal
      unfold retryLoop
      rw [hround]
      simp only
      cases hagain : shouldRetry (result sent) retry with
      | false =>
        rw [Attempts.run_last hrefusal (.inr hagain)]
        exact ⟨rfl, hends.traffic⟩
      | true =>
        cases hawoken : params.cancellation.isSome && script.awoken (sent + 1) with
        | true =>
          rw [Attempts.run_cut hrefusal hagain (if_pos hawoken)]
          exact ⟨rfl, hends.traffic⟩
        | false =>
          rw [Attempts.run_again hrefusal hagain (if_neg (by rw [hawoken]; exact Bool.false_ne_true))]
          exact ih hends.traffic

theorem executeWithRetry_inactive (hactive : activeRetry params.retry params.method = none) :
    executeWithRetry (script.outside base).toOutside params operation shouldRetry traffic =
      operation traffic := by
  unfold executeWithRetry
  cases hretry : params.retry with
  | none => rfl
  | some retry =>
    rw [hretry, activeRetry, Option.filter_eq_none_iff] at hactive
    have hinactive := hactive retry rfl
    refine if_pos ?_
    by_contra hmany
    rw [not_or, UInt32.not_le, Bool.not_eq_true', Bool.not_eq_false] at hmany
    exact hinactive (Bool.and_eq_true_iff.mpr ⟨decide_eq_true hmany.1, hmany.2⟩)

theorem executeWithRetry_ends (hfollows : Follows prevented result operation)
    (hprevented : ∀ retry k instead, prevented k = some instead → shouldRetry instead retry = false)
    (h : At traffic sent forced) :
    Ends (executeWithRetry (script.outside base).toOutside params operation shouldRetry traffic)
      ((attemptsOf script params prevented result shouldRetry).run
        (attemptsLeft params.retry params.method) sent).1
      ((attemptsOf script params prevented result shouldRetry).run
        (attemptsLeft params.retry params.method) sent).2 forced := by
  cases hactive : activeRetry params.retry params.method with
  | some retry =>
    obtain ⟨hretry, hmany, hmethod⟩ := retry_of_active hactive
    have hloop : ¬ (retry.maxAttempts ≤ 1 ∨ !methodIsRetryable params.method) := by
      rw [hmethod, not_or]
      exact ⟨UInt32.not_le.mpr hmany, Bool.false_ne_true⟩
    unfold executeWithRetry attemptsOf attemptsLeft
    rw [hactive, hretry]
    simp only [hloop, if_false]
    exact retryLoop_ends hfollows (hprevented retry) _ h
  | none =>
    rw [executeWithRetry_inactive hactive]
    simp only [attemptsOf, attemptsLeft, hactive, Option.elim_none]
    cases hheld : (single prevented result).refusal sent with
    | some instead =>
      rw [Attempts.run_refused hheld]
      exact hfollows.holds traffic sent forced instead h hheld
    | none =>
      rw [Attempts.run_last hheld (.inl rfl)]
      exact hfollows.sends traffic sent forced h hheld

end Ends

theorem attemptsOf_refusal {E T : Type} {script : Script} {params : RetryExecutionParams E}
    {prevented : ℕ → Option (Except E T)} {result : ℕ → Except E T}
    {shouldRetry : Except E T → OutboundRetryConfig → Bool} {k : ℕ} {refused : Except E T}
    (h : (attemptsOf script params prevented result shouldRetry).refusal k = some refused) :
    refused = .error params.cancelledError ∨ prevented k = some refused := by
  unfold attemptsOf at h
  split at h
  · exact .inr h
  · simp only [retrying] at h
    split at h
    · exact .inl (Option.some.inj h).symm
    · exact .inr h

theorem attemptsOf_cut {E T : Type} {script : Script} {params : RetryExecutionParams E}
    {prevented : ℕ → Option (Except E T)} {result : ℕ → Except E T}
    {shouldRetry : Except E T → OutboundRetryConfig → Bool} {k : ℕ} {cut : Except E T}
    (h : (attemptsOf script params prevented result shouldRetry).cut k = some cut) :
    cut = .error params.cancelledError := by
  unfold attemptsOf at h
  split at h
  · cases h
  · simp only [retrying] at h
    split at h
    · exact (Option.some.inj h).symm
    · cases h

@[simp]
theorem attemptsOf_result {E T : Type} (script : Script) (params : RetryExecutionParams E)
    (prevented : ℕ → Option (Except E T)) (result : ℕ → Except E T)
    (shouldRetry : Except E T → OutboundRetryConfig → Bool) :
    (attemptsOf script params prevented result shouldRetry).result = result := by
  unfold attemptsOf
  split
  · rfl
  · rfl

/-! ## Tool calls -/

/-- A call of an HTTP tool whose token has been fetched. -/
structure ToolCall where
  toolCfg : ToolConfig
  executeHttp : ExecuteHttpConfig
  http : toolCfg.execute.asHttp = some executeHttp
  upstream : UpstreamConfig
  args : Value
  request : Option RequestContext
  oauth2Context : Option Oauth2ExecutionContext

namespace ToolCall
variable (call : ToolCall) (engine : Engine) (crates : Crates) (script : Script)
  (base : EngineOutside Moment)

def template (bearer : Option String) : HttpRequestTemplate :=
  engine.buildHttpRequestTemplate crates call.executeHttp call.upstream bearer

def run : Except HttpExecutionError Value × Traffic Moment :=
  engine.executeHttpRequestFlow crates (script.outside base)
    (engine.dispatchParams call.toolCfg call.executeHttp call.upstream call.args call.request
      call.oauth2Context)
    (call.template engine crates (call.oauth2Context.map (·.bearer))) call.oauth2Context
    ⟨⟨0, []⟩, []⟩

/-- The call can be cancelled. -/
def raced : Bool := call.toolCfg.cancellable && call.request.isSome

/-- A 401 is answered with a new token. -/
def refreshes : Bool := call.oauth2Context.any (·.retryOn401Once)

def retry : Option OutboundRetryConfig :=
  resolveRetryConfig call.upstream engine.config.outboundHttp call.executeHttp.retry

/-- What comes of a template that does not render. -/
def unprepared (bearer : Option String) : Option (Except HttpExecutionError Value) :=
  match prepareRequest crates.json call.upstream.baseUrl (call.template engine crates bearer)
    call.args with
  | .error error => some (.error error)
  | .ok _ => none

def prevented (bearer : Option String) (k : ℕ) : Option (Except HttpExecutionError Value) :=
  if call.raced && (script.cancelled k && script.polledFirst k) then some (.error .cancelled)
  else call.unprepared engine crates bearer

def result (k : ℕ) : Except HttpExecutionError Value :=
  readOutcome crates.fromSlice
    (if call.raced && script.dropped k then none else some (script.answers k))

def retryParams : RetryExecutionParams HttpExecutionError where
  method := call.executeHttp.method
  retry := call.retry engine
  cancellation := if call.toolCfg.cancellable then call.request.map (·.ct) else none
  cancelledError := .cancelled

def attempts (bearer : Option String) : Attempts (Except HttpExecutionError Value) :=
  attemptsOf script (call.retryParams engine) (call.prevented engine crates script bearer)
    (call.result crates script) (shouldRetryHttpExecution call.refreshes)

def rejected : Except HttpExecutionError Value → Bool
  | .error error => call.refreshes && error.statusCode = some 401
  | .ok _ => false

/-- The token manager fails. -/
def renewal (k : ℕ) : Option (Except HttpExecutionError Value) :=
  match script.tokens k with
  | .error error => some (.error (.request error))
  | .ok _ => none

variable {call engine crates script base}

theorem renewal_eq_none {k : ℕ} :
    renewal script k = none ↔ ∃ token, script.tokens k = .ok token := by
  unfold renewal
  cases script.tokens k with
  | error error => exact iff_of_false (Option.some_ne_none _) fun ⟨_, h⟩ => by cases h
  | ok token => exact iff_of_true rfl ⟨token, rfl⟩

theorem renewal_eq_some {k : ℕ} {failed : Except HttpExecutionError Value}
    (h : renewal script k = some failed) :
    ∃ error, script.tokens k = .error error ∧ failed = .error (.request error) := by
  unfold renewal at h
  split at h
  · rename_i error htoken
    exact ⟨error, htoken, (Option.some.inj h).symm⟩
  · cases h

theorem isSome_cancellation : (call.retryParams engine).cancellation.isSome = call.raced := by
  unfold retryParams raced
  cases call.toolCfg.cancellable with
  | false => rfl
  | true => rw [if_pos rfl, Option.isSome_map, Bool.true_and]

theorem prevented_eq_some {bearer : Option String} {k : ℕ}
    {instead : Except HttpExecutionError Value}
    (h : call.prevented engine crates script bearer k = some instead) :
    instead = .error .cancelled ∨ ∃ inner, instead = .error (.template inner) := by
  unfold prevented unprepared at h
  split at h
  · exact .inl (Option.some.inj h).symm
  · split at h
    · rename_i error herror
      obtain ⟨inner, rfl⟩ := prepareRequest_error herror
      exact .inr ⟨inner, (Option.some.inj h).symm⟩
    · cases h

theorem attempts_refusal {bearer : Option String} {k : ℕ}
    {refused : Except HttpExecutionError Value}
    (h : (call.attempts engine crates script bearer).refusal k = some refused) :
    refused = .error .cancelled ∨ ∃ inner, refused = .error (.template inner) :=
  (attemptsOf_refusal h).elim .inl prevented_eq_some

variable (call engine crates script) in
def course : Course (Except HttpExecutionError Value) where
  left := attemptsLeft (call.retry engine) call.executeHttp.method
  first := call.attempts engine crates script (call.oauth2Context.map (·.bearer))
  rejected := call.rejected
  renewal := renewal script
  second n := call.attempts engine crates script (script.tokens n).toOption
  refusal_kept k refused h := by
    rcases attempts_refusal h with rfl | ⟨inner, rfl⟩
    · exact Bool.and_false _
    · exact Bool.and_false _
  cut_kept k cut h := by
    rw [attemptsOf_cut h]
    exact Bool.and_false _

theorem executeHttpDetailed_follows {bearer : Option String} {token : Option CancellationToken}
    {traffic : Traffic Moment} {sent : ℕ} {forced : List ℕ} (h : At traffic sent forced) :
    (∀ instead, call.unprepared engine crates bearer = some instead →
      Ends (executeHttpDetailed crates.json crates.fromSlice (script.outside base).toOutside
        call.upstream.baseUrl (call.template engine crates bearer) call.args token traffic)
        instead sent forced) ∧
    (call.unprepared engine crates bearer = none →
      Ends (executeHttpDetailed crates.json crates.fromSlice (script.outside base).toOutside
        call.upstream.baseUrl (call.template engine crates bearer) call.args token traffic)
        (readOutcome crates.fromSlice
          (if token.isSome && script.dropped sent then none else some (script.answers sent)))
        (sent + 1) forced) := by
  unfold executeHttpDetailed unprepared
  cases prepareRequest crates.json call.upstream.baseUrl (call.template engine crates bearer)
    call.args with
  | error error =>
    refine ⟨fun instead hinstead => ?_, nofun⟩
    cases hinstead
    exact ⟨rfl, h⟩
  | ok request =>
    refine ⟨nofun, fun _ => ?_⟩
    obtain ⟨world, exchanges⟩ := traffic
    cases h.world
    have hlength : ∀ exchange : Exchange, (exchanges ++ [exchange]).length = sent + 1 := by
      intro exchange
      rw [List.length_append, h.exchanges, List.length_singleton]
    cases token with
    | none => exact ⟨rfl, rfl, hlength _⟩
    | some token => exact ⟨rfl, rfl, hlength _⟩

theorem executeOrCancel_at {bearer : Option String} {token : CancellationToken}
    {traffic : Traffic Moment} {sent : ℕ} {forced : List ℕ} (h : At traffic sent forced) :
    executeOrCancel crates.json crates.fromSlice (script.outside base).toOutside
        call.upstream.baseUrl (call.template engine crates bearer) call.args token traffic =
      if script.cancelled sent && script.polledFirst sent then (.error .cancelled, traffic)
      else executeHttpDetailed crates.json crates.fromSlice (script.outside base).toOutside
        call.upstream.baseUrl (call.template engine crates bearer) call.args (some token)
        traffic := by
  unfold executeOrCancel
  obtain ⟨world, exchanges⟩ := traffic
  cases h.world
  have hstep : (Traffic.step ⟨⟨sent, forced⟩, exchanges⟩
      ((script.outside base).toOutside.pollsCancelled token)) =
        (script.cancelled sent && script.polledFirst sent, ⟨⟨sent, forced⟩, exchanges⟩) := rfl
  rw [hstep]
  cases script.cancelled sent && script.polledFirst sent with
  | true => rfl
  | false => simp only [Bool.false_eq_true, if_false]

variable (call engine crates script base) in
/-- The operation of the retries, with a token to race against if the call can be cancelled. -/
theorem request_operation (bearer : Option String) (context : Option Oauth2ExecutionContext) :
    ∃ token : Option CancellationToken, token.isSome = call.raced ∧
      executeHttpRequestWithCancellation crates (script.outside base)
        (engine.dispatchParams call.toolCfg call.executeHttp call.upstream call.args call.request
          context).request (call.template engine crates bearer) =
      fun traffic =>
        match token with
        | some token => executeOrCancel crates.json crates.fromSlice (script.outside base).toOutside
            call.upstream.baseUrl (call.template engine crates bearer) call.args token traffic
        | none => executeHttpDetailed crates.json crates.fromSlice (script.outside base).toOutside
            call.upstream.baseUrl (call.template engine crates bearer) call.args none traffic := by
  unfold executeHttpRequestWithCancellation raced Engine.dispatchParams
  cases hcancellable : call.toolCfg.cancellable with
  | false => exact ⟨none, rfl, by simp only⟩
  | true =>
    cases hrequest : call.request with
    | none => exact ⟨none, rfl, by simp only⟩
    | some request => exact ⟨some request.ct, rfl, by simp only⟩

theorem request_follows {bearer : Option String} {context : Option Oauth2ExecutionContext} :
    Follows (call.prevented engine crates script bearer) (call.result crates script)
      (executeHttpRequestWithCancellation crates (script.outside base)
        (engine.dispatchParams call.toolCfg call.executeHttp call.upstream call.args call.request
          context).request (call.template engine crates bearer)) := by
  obtain ⟨token, hraced, hoperation⟩ :=
    request_operation call engine crates script base bearer context
  have hprevented : ∀ k, call.prevented engine crates script bearer k =
      if token.isSome && (script.cancelled k && script.polledFirst k) then some (.error .cancelled)
      else call.unprepared engine crates bearer := by
    intro k
    rw [hraced]
    rfl
  have hresult : ∀ k, call.result crates script k = readOutcome crates.fromSlice
      (if token.isSome && script.dropped k then none else some (script.answers k)) := by
    intro k
    rw [hraced]
    rfl
  rw [hoperation]
  cases token with
  | none =>
    simp only [Option.isSome_none, Bool.false_and, Bool.false_eq_true, if_false]
      at hprevented hresult
    constructor
    · intro traffic sent forced instead h hinstead
      rw [hprevented] at hinstead
      simp only
      exact (executeHttpDetailed_follows h).1 instead hinstead
    · intro traffic sent forced h hnone
      rw [hprevented] at hnone
      simp only
      rw [hresult]
      exact (executeHttpDetailed_follows h).2 hnone
  | some token =>
    constructor
    · intro traffic sent forced instead h hinstead
      rw [hprevented, Option.isSome_some, Bool.true_and] at hinstead
      simp only
      rw [executeOrCancel_at h]
      split at hinstead
      · cases hinstead
        rw [if_pos ‹_›]
        exact ⟨rfl, h⟩
      · rw [if_neg ‹_›]
        exact (executeHttpDetailed_follows h).1 instead hinstead
    · intro traffic sent forced h hnone
      rw [hprevented, Option.isSome_some, Bool.true_and] at hnone
      simp only
      rw [executeOrCancel_at h, hresult]
      split at hnone
      · cases hnone
      · rw [if_neg ‹_›]
        exact (executeHttpDetailed_follows h).2 hnone

theorem prevented_final {bearer : Option String} {retry : OutboundRetryConfig} {k : ℕ}
    {instead : Except HttpExecutionError Value}
    (h : call.prevented engine crates script bearer k = some instead) :
    shouldRetryHttpExecution call.refreshes instead retry = false := by
  rcases prevented_eq_some h with rfl | ⟨inner, rfl⟩
  · rfl
  · rfl

/-- The requests of a run with one token. -/
theorem retries_end {bearer : Option String} {traffic : Traffic Moment} {sent : ℕ}
    {forced : List ℕ} (h : At traffic sent forced) :
    Ends (executeHttpRequestWithRetry crates (script.outside base)
        (engine.dispatchParams call.toolCfg call.executeHttp call.upstream call.args call.request
          call.oauth2Context).request (call.template engine crates bearer)
        (engine.dispatchParams call.toolCfg call.executeHttp call.upstream call.args call.request
          call.oauth2Context).retry traffic)
      ((call.attempts engine crates script bearer).run
        (attemptsLeft (call.retry engine) call.executeHttp.method) sent).1
      ((call.attempts engine crates script bearer).run
        (attemptsLeft (call.retry engine) call.executeHttp.method) sent).2 forced :=
  executeWithRetry_ends request_follows (fun _ _ _ => prevented_final) h

theorem rejected_iff {result : Except HttpExecutionError Value} :
    call.rejected result = true ↔ ∃ context error, call.oauth2Context = some context ∧
      result = .error error ∧ call.refreshes = true ∧ error.statusCode = some 401 := by
  unfold rejected
  cases result with
  | ok value => exact iff_of_false Bool.false_ne_true fun ⟨_, _, _, h, _⟩ => by cases h
  | error error =>
    rw [Bool.and_eq_true, decide_eq_true_iff]
    constructor
    · rintro ⟨hrefreshes, hstatus⟩
      obtain ⟨context, hcontext, -⟩ := (Option.any_eq_true _ _).mp hrefreshes
      exact ⟨context, error, hcontext, rfl, hrefreshes, hstatus⟩
    · rintro ⟨_, _, _, h, hrefreshes, hstatus⟩
      cases h
      exact ⟨hrefreshes, hstatus⟩

theorem refreshed_template {refreshed : String} :
    { call.template engine crates (call.oauth2Context.map (·.bearer)) with
      headers := engine.buildHeaders crates call.upstream (some refreshed)
        (call.toolCfg.execute.asHttp.bind (·.headers)) } =
      call.template engine crates (some refreshed) := by
  rw [call.http]
  rfl

variable (call engine) in
abbrev dispatch : HttpDispatchParams :=
  engine.dispatchParams call.toolCfg call.executeHttp call.upstream call.args call.request
    call.oauth2Context

/-- `execute_http_request_flow` after the first run. -/
theorem flow_accepted {template : HttpRequestTemplate} {traffic after : Traffic Moment}
    {result : Except HttpExecutionError Value}
    (h : executeHttpRequestWithRetry crates (script.outside base) (call.dispatch engine).request
      template (call.dispatch engine).retry traffic = (result, after))
    (haccepted : call.rejected result = false) :
    engine.executeHttpRequestFlow crates (script.outside base) (call.dispatch engine) template
      call.oauth2Context traffic = (result, after) := by
  unfold Engine.executeHttpRequestFlow
  rw [h]
  cases result with
  | ok value => rfl
  | error error =>
    refine if_neg ?_
    rintro ⟨hrefreshes, hstatus⟩
    have hrejected : call.rejected (.error error) = true :=
      Bool.and_eq_true_iff.mpr ⟨hrefreshes, decide_eq_true hstatus⟩
    rw [haccepted] at hrejected
    cases hrejected

theorem flow_rejected {template : HttpRequestTemplate} {traffic after : Traffic Moment}
    {result : Except HttpExecutionError Value} {sent : ℕ} {forced : List ℕ}
    (h : executeHttpRequestWithRetry crates (script.outside base) (call.dispatch engine).request
      template (call.dispatch engine).retry traffic = (result, after))
    (hafter : At after sent forced)
    (hrejected : call.rejected result = true) :
    (∀ error, script.tokens sent = .error error →
      engine.executeHttpRequestFlow crates (script.outside base) (call.dispatch engine) template
        call.oauth2Context traffic =
          (.error (.request error), ⟨⟨sent, forced ++ [sent]⟩, after.exchanges⟩)) ∧
    ∀ refreshed, script.tokens sent = .ok refreshed →
      engine.executeHttpRequestFlow crates (script.outside base) (call.dispatch engine) template
        call.oauth2Context traffic =
          let headers := engine.buildHeaders crates call.upstream (some refreshed)
            (call.toolCfg.execute.asHttp.bind (·.headers))
          executeHttpRequestWithRetry crates (script.outside base) (call.dispatch engine).request
            { template with headers } (call.dispatch engine).retry
            ⟨⟨sent, forced ++ [sent]⟩, after.exchanges⟩ := by
  obtain ⟨context, error, hcontext, rfl, hrefreshes, hstatus⟩ := rejected_iff.mp hrejected
  obtain ⟨world, exchanges⟩ := after
  cases hafter.world
  have hstep : (Traffic.step ⟨⟨sent, forced⟩, exchanges⟩ ((script.outside base).accessToken
      (call.dispatch engine).upstreamName context.auth true)) =
        (script.tokens sent, ⟨⟨sent, forced ++ [sent]⟩, exchanges⟩) := rfl
  unfold Engine.executeHttpRequestFlow
  rw [h]
  simp only
  rw [if_pos ⟨hrefreshes, hstatus⟩, hcontext]
  simp only
  rw [hstep]
  constructor
  · intro error htoken
    rw [htoken]
  · intro refreshed htoken
    rw [htoken]
    rfl

/-- A tool call follows its course. -/
theorem run_ends :
    Ends (call.run engine crates script base) (call.course engine crates script).run.1
      (call.course engine crates script).run.2.1
      (call.course engine crates script).run.2.2.toList := by
  refine ends_of_first (retries_end ⟨rfl, rfl⟩) (fun haccepted => flow_accepted rfl haccepted)
    ?_ ?_
  · intro sent failed hsent hrejected hrenewal
    obtain ⟨error, htoken, rfl⟩ := renewal_eq_some hrenewal
    exact (flow_rejected rfl hsent hrejected).1 error htoken
  · intro sent hsent hrejected hrenewal
    obtain ⟨refreshed, htoken⟩ := renewal_eq_none.mp hrenewal
    have hsecond : (call.course engine crates script).second sent =
        call.attempts engine crates script (some refreshed) := by
      change call.attempts engine crates script (script.tokens sent).toOption = _
      rw [htoken]
      rfl
    unfold run
    rw [(flow_rejected rfl hsent hrejected).2 refreshed htoken, hsecond]
    simp only
    rw [refreshed_template]
    exact retries_end ⟨rfl, hsent.exchanges⟩

end ToolCall

/-! ## Sends of plugins -/

/-- A request of a plugin to a configured upstream. -/
structure PluginSend where
  ctx : PluginContext
  upstreamName : String
  upstream : UpstreamConfig
  found : ctx.upstreams.lookup upstreamName = some upstream
  request : OutboundHttpRequest
  url : String
  resolves : resolveUpstreamUrl upstream.baseUrl request.url = .ok url
  authMode : PluginSendAuthMode

namespace PluginSend
variable (send : PluginSend) (base64 : String → String) (script : Script)
  (base : EngineOutside Moment)

def run : Answer × Traffic Moment :=
  send.ctx.sendWith (script.outside base).toOutside (some (script.outside base).accessToken) base64
    send.upstreamName send.request send.authMode ⟨⟨0, []⟩, []⟩

/-- What the token manager gives before the first request. -/
def oauth2Context : Except McpError (Option PluginOauth2ExecutionContext) :=
  match send.authMode, send.upstream.auth with
  | .inherit, some (.oauth2 auth) =>
    let retryOn401Once := (OutboundOauth2RefreshPolicy.fromAuth auth).retryOn401Once
    (script.tokens 0).map fun bearer => some { auth, bearer, retryOn401Once }
  | _, _ => .ok none

def retry : Option OutboundRetryConfig :=
  resolveRetryConfig send.upstream send.ctx.outboundHttp none

def attempts : Attempts Answer :=
  attemptsOf script
    { method := send.request.method
      retry := send.retry
      cancellation := send.ctx.cancellation
      cancelledError }
    (fun _ => none) script.answers shouldRetryUpstreamHttp

def rejected (oauth2Context : Option PluginOauth2ExecutionContext) : Answer → Bool
  | .ok response => response.status = 401 && oauth2Context.any (·.retryOn401Once)
  | .error _ => false

/-- The token manager fails. -/
def renewal (k : ℕ) : Option Answer :=
  match script.tokens k with
  | .error error => some (.error error)
  | .ok _ => none

variable {send script}

theorem renewal_eq_none {k : ℕ} :
    renewal script k = none ↔ ∃ token, script.tokens k = .ok token := by
  unfold renewal
  cases script.tokens k with
  | error error => exact iff_of_false (Option.some_ne_none _) fun ⟨_, h⟩ => by cases h
  | ok token => exact iff_of_true rfl ⟨token, rfl⟩

theorem renewal_eq_some {k : ℕ} {failed : Answer} (h : renewal script k = some failed) :
    ∃ error, script.tokens k = .error error ∧ failed = .error error := by
  unfold renewal at h
  split at h
  · rename_i error htoken
    exact ⟨error, htoken, (Option.some.inj h).symm⟩
  · cases h

theorem attempts_refusal {k : ℕ} {refused : Answer}
    (h : (send.attempts script).refusal k = some refused) : refused = .error cancelledError :=
  (attemptsOf_refusal h).elim id nofun

variable (send script) in
def course (oauth2Context : Option PluginOauth2ExecutionContext) : Course Answer where
  left := attemptsLeft send.retry send.request.method
  first := send.attempts script
  rejected := rejected oauth2Context
  renewal := renewal script
  second _ := send.attempts script
  refusal_kept k refused h := by
    rw [attempts_refusal h]
    rfl
  cut_kept k cut h := by
    rw [attemptsOf_cut h]
    rfl

variable {base64 base}

theorem sendOnce_follows (request : OutboundHttpRequest) :
    Follows (fun _ => none) script.answers (sendOnce (script.outside base).toOutside request) := by
  refine ⟨nofun, fun traffic sent forced h _ => ?_⟩
  obtain ⟨world, exchanges⟩ := traffic
  cases h.world
  refine ⟨rfl, rfl, ?_⟩
  change (exchanges ++ [_]).length = sent + 1
  rw [List.length_append, h.exchanges, List.length_singleton]

/-- The requests of a run with one token. -/
theorem retries_end {bearer : Option String} {traffic : Traffic Moment} {sent : ℕ}
    {forced : List ℕ} (h : At traffic sent forced) :
    Ends (executeUpstreamHttpWithRetry (script.outside base).toOutside
        (send.ctx.upstreamRequest base64 send.upstream send.authMode send.url send.request bearer)
        send.retry send.ctx.cancellation traffic)
      ((send.attempts script).run (attemptsLeft send.retry send.request.method) sent).1
      ((send.attempts script).run (attemptsLeft send.retry send.request.method) sent).2 forced :=
  executeWithRetry_ends (sendOnce_follows _) nofun h

theorem resolve_eq : resolvePluginOauth2Context (some (script.outside base).accessToken)
    send.upstreamName send.upstream send.authMode ⟨⟨0, []⟩, []⟩ =
      (send.oauth2Context script, ⟨⟨0, []⟩, []⟩) := by
  unfold resolvePluginOauth2Context oauth2Context
  cases send.authMode with
  | none => rfl
  | explicit authorization => rfl
  | inherit =>
    cases send.upstream.auth with
    | none => rfl
    | some auth =>
      cases auth with
      | oauth2 auth => rfl
      | _ => rfl

theorem run_unresolved {error : McpError} (h : send.oauth2Context script = .error error) :
    send.run base64 script base = (.error error, ⟨⟨0, []⟩, []⟩) := by
  unfold run PluginContext.sendWith
  rw [send.found]
  simp only
  rw [resolve_eq, h]

theorem rejected_iff {oauth2Context : Option PluginOauth2ExecutionContext} {answer : Answer} :
    rejected oauth2Context answer = true ↔ ∃ context response, oauth2Context = some context ∧
      answer = .ok response ∧ response.status = 401 ∧ context.retryOn401Once = true := by
  unfold rejected
  cases answer with
  | error error => exact iff_of_false Bool.false_ne_true fun ⟨_, _, _, h, _⟩ => by cases h
  | ok response =>
    rw [Bool.and_eq_true, decide_eq_true_iff, Option.any_eq_true]
    constructor
    · rintro ⟨hstatus, context, hcontext, hretry⟩
      exact ⟨context, response, hcontext, rfl, hstatus, hretry⟩
    · rintro ⟨context, _, hcontext, h, hstatus, hretry⟩
      cases h
      exact ⟨hstatus, context, hcontext, hretry⟩

variable (send script base base64) in
/-- The run with a token. -/
def attempted (bearer : Option String) (traffic : Traffic Moment) : Answer × Traffic Moment :=
  executeUpstreamHttpWithRetry (script.outside base).toOutside
    (send.ctx.upstreamRequest base64 send.upstream send.authMode send.url send.request bearer)
    send.retry send.ctx.cancellation traffic

/-- `send_with` after the first run. -/
theorem run_accepted {oauth2Context : Option PluginOauth2ExecutionContext} {result : Answer}
    {after : Traffic Moment} (hcontext : send.oauth2Context script = .ok oauth2Context)
    (h : send.attempted base64 script base (oauth2Context.map (·.bearer)) ⟨⟨0, []⟩, []⟩ =
      (result, after))
    (haccepted : rejected oauth2Context result = false) :
    send.run base64 script base = (result, after) := by
  unfold run PluginContext.sendWith
  rw [send.found]
  simp only
  rw [resolve_eq, hcontext]
  simp only
  rw [send.resolves]
  simp only
  unfold attempted retry at h
  rw [h]
  cases result with
  | error error => rfl
  | ok response =>
    cases oauth2Context with
    | none => rfl
    | some context =>
      refine if_neg ?_
      rintro ⟨hstatus, hretry⟩
      have hrejected : rejected (some context) (.ok response) = true :=
        rejected_iff.mpr ⟨context, response, rfl, rfl, hstatus, hretry⟩
      rw [haccepted] at hrejected
      cases hrejected

theorem run_rejected {oauth2Context : Option PluginOauth2ExecutionContext} {result : Answer}
    {after : Traffic Moment} {sent : ℕ} {forced : List ℕ}
    (hcontext : send.oauth2Context script = .ok oauth2Context)
    (h : send.attempted base64 script base (oauth2Context.map (·.bearer)) ⟨⟨0, []⟩, []⟩ =
      (result, after)) (hafter : At after sent forced)
    (hrejected : rejected oauth2Context result = true) :
    (∀ error, script.tokens sent = .error error → send.run base64 script base =
      (.error error, ⟨⟨sent, forced ++ [sent]⟩, after.exchanges⟩)) ∧
    ∀ refreshed, script.tokens sent = .ok refreshed → send.run base64 script base =
      send.attempted base64 script base (some refreshed)
        ⟨⟨sent, forced ++ [sent]⟩, after.exchanges⟩ := by
  obtain ⟨context, response, rfl, rfl, hstatus, hretry⟩ := rejected_iff.mp hrejected
  obtain ⟨world, exchanges⟩ := after
  cases hafter.world
  have hstep : (Traffic.step ⟨⟨sent, forced⟩, exchanges⟩ ((script.outside base).accessToken
      send.upstreamName context.auth true)) =
        (script.tokens sent, ⟨⟨sent, forced ++ [sent]⟩, exchanges⟩) := rfl
  unfold run PluginContext.sendWith
  rw [send.found]
  simp only
  rw [resolve_eq, hcontext]
  simp only
  rw [send.resolves]
  simp only
  unfold attempted retry at h
  rw [h]
  simp only
  rw [if_pos ⟨hstatus, hretry⟩, hstep]
  constructor
  · intro error htoken
    rw [htoken]
  · intro refreshed htoken
    rw [htoken]
    rfl

/-- A send follows its course. -/
theorem run_ends {oauth2Context : Option PluginOauth2ExecutionContext}
    (h : send.oauth2Context script = .ok oauth2Context) :
    Ends (send.run base64 script base) (send.course script oauth2Context).run.1
      (send.course script oauth2Context).run.2.1
      (send.course script oauth2Context).run.2.2.toList := by
  have hfirst : Ends (send.attempted base64 script base (oauth2Context.map (·.bearer))
      ⟨⟨0, []⟩, []⟩) _ _ [] := retries_end ⟨rfl, rfl⟩
  refine ends_of_first hfirst (fun haccepted => run_accepted h rfl haccepted) ?_ ?_
  · intro sent failed hsent hrejected hrenewal
    obtain ⟨error, htoken, rfl⟩ := renewal_eq_some hrenewal
    exact (run_rejected h rfl hsent hrejected).1 error htoken
  · intro sent hsent hrejected hrenewal
    obtain ⟨refreshed, htoken⟩ := renewal_eq_none.mp hrenewal
    rw [(run_rejected h rfl hsent hrejected).2 refreshed htoken]
    exact retries_end ⟨rfl, hsent.exchanges⟩

end PluginSend

end RustMcpCore.Dispatch
