import RustMcpCore.Engine.AttemptBudget

/-! # Requests after a cancellation

The retry loop looks at the token before each attempt. A call without retries leaves this
to the `select!` around its request, which may start the request first; the request of a
plugin has none.
-/
namespace RustMcpCore.Dispatch
open Library Outbound

/-- The same with a token that has not been cancelled when the request after `k` others is due. -/
def Script.spare (script : Script) (k : ℕ) : Script :=
  { script with cancelled := Function.update script.cancelled k false }

/-- A request that would be sent, had the token not been cancelled before, is not sent and the
call ends as cancelled. -/
def StopsWhenCancelled {E T : Type} (script : Script) (cancelled : E)
    (run : Script → Except E T × Traffic Moment) : Prop :=
  ∀ k, script.cancelled k = true → k < (run (script.spare k)).2.exchanges.length →
    (run script).2.exchanges.length ≤ k ∧ (run script).1 = .error cancelled

section Attempts
variable {E T : Type} {script : Script} {params : RetryExecutionParams E}
  {prevented prevented' : ℕ → Option (Except E T)} {result : ℕ → Except E T}
  {shouldRetry : Except E T → OutboundRetryConfig → Bool} {k : ℕ}

/-- The attempts of a script and of the one that is spared once. -/
theorem attemptsOf_spare (hprevented : ∀ j, j ≠ k → prevented j = prevented' j) :
    (attemptsOf script params prevented result shouldRetry).SameBut
      (attemptsOf (script.spare k) params prevented' result shouldRetry) k := by
  unfold attemptsOf
  cases activeRetry params.retry params.method with
  | none => exact ⟨hprevented, rfl, rfl, rfl⟩
  | some retry =>
    refine ⟨fun j hj => ?_, rfl, rfl, rfl⟩
    simp only [retrying, Script.spare, Function.update_of_ne hj, hprevented j hj]

/-- The loop notices the cancellation. -/
theorem attemptsOf_noticed {retry : OutboundRetryConfig}
    (hactive : activeRetry params.retry params.method = some retry)
    (htoken : params.cancellation.isSome = true) (hcancelled : script.cancelled k = true) :
    (attemptsOf script params prevented result shouldRetry).refusal k =
      some (.error params.cancelledError) := by
  simp only [attemptsOf, hactive, retrying, htoken, hcancelled, Bool.and_self, if_true]

theorem attemptsOf_unwatched (hinactive : activeRetry params.retry params.method = none) :
    attemptsOf script params prevented result shouldRetry = single prevented result := by
  simp only [attemptsOf, hinactive]

end Attempts

namespace ToolCall
variable {call : ToolCall} {engine : Engine} {crates : Crates} {script : Script}
  {base : EngineOutside Moment} {k : ℕ} {bearer : Option String}

theorem attempts_spare : (call.attempts engine crates script bearer).SameBut
    (call.attempts engine crates (script.spare k) bearer) k := by
  refine attemptsOf_spare fun j hj => ?_
  simp only [prevented, Script.spare, Function.update_of_ne hj]

theorem course_spare : (call.course engine crates script).SameBut
    (call.course engine crates (script.spare k)) k :=
  ⟨rfl, attempts_spare, rfl, rfl, fun _ => attempts_spare⟩

/-- The loop looks at the token before the request. -/
theorem attempts_noticed {retry : OutboundRetryConfig} (hraced : call.raced = true)
    (hactive : activeRetry (call.retry engine) call.executeHttp.method = some retry)
    (hcancelled : script.cancelled k = true) :
    (call.attempts engine crates script bearer).refusal k = some (.error .cancelled) := by
  have hparams : activeRetry (call.retryParams engine).retry (call.retryParams engine).method =
      some retry := hactive
  have htoken : (call.retryParams engine).cancellation.isSome = true := by
    rw [isSome_cancellation]
    exact hraced
  unfold attempts
  rw [attemptsOf_noticed hparams htoken hcancelled]
  rfl

theorem attempts_single (script : Script) (bearer : Option String)
    (hinactive : activeRetry (call.retry engine) call.executeHttp.method = none) :
    call.attempts engine crates script bearer =
      single (call.prevented engine crates script bearer) (call.result crates script) := by
  have hparams : activeRetry (call.retryParams engine).retry (call.retryParams engine).method =
      none := hinactive
  unfold attempts
  rw [attemptsOf_unwatched hparams]

theorem sent_eq (script : Script) : (call.run engine crates script base).2.exchanges.length =
    (call.course engine crates script).run.2.1 := run_ends.traffic.exchanges

theorem stops_of_active {retry : OutboundRetryConfig} (hraced : call.raced = true)
    (hactive : activeRetry (call.retry engine) call.executeHttp.method = some retry) :
    StopsWhenCancelled script .cancelled fun script => call.run engine crates script base := by
  intro k hcancelled hdue
  rw [sent_eq] at hdue
  rw [sent_eq, run_ends.result]
  obtain ⟨hresult, hmade⟩ := course_spare.run_refused (attempts_noticed hraced hactive hcancelled)
    (fun _ => attempts_noticed hraced hactive hcancelled) hdue
  exact ⟨hmade.le, hresult⟩

variable (call engine crates script) in
/-- When a call that does not retry comes to its requests. -/
def Due : ℕ → Prop
  | 0 => call.unprepared engine crates (call.oauth2Context.map (·.bearer)) = none
  | 1 => call.prevented engine crates script (call.oauth2Context.map (·.bearer)) 0 = none ∧
      call.rejected (call.result crates script 0) = true ∧
      ∃ token, script.tokens 1 = .ok token ∧ call.unprepared engine crates (some token) = none
  | _ + 2 => False

variable (call engine crates script) in
/-- The same for the requests that it makes. -/
def Makes : ℕ → Prop
  | 0 => call.prevented engine crates script (call.oauth2Context.map (·.bearer)) 0 = none
  | 1 => call.prevented engine crates script (call.oauth2Context.map (·.bearer)) 0 = none ∧
      call.rejected (call.result crates script 0) = true ∧
      ∃ token, script.tokens 1 = .ok token ∧ call.prevented engine crates script (some token) 1 = none
  | _ + 2 => False

theorem makes_iff (hinactive : activeRetry (call.retry engine) call.executeHttp.method = none) :
    k < (call.course engine crates script).run.2.1 ↔ call.Makes engine crates script k := by
  have hleft : (call.course engine crates script).left = 0 := attemptsLeft_eq_zero hinactive
  have hfirst : (call.course engine crates script).first =
      single (call.prevented engine crates script (call.oauth2Context.map (·.bearer)))
        (call.result crates script) := attempts_single _ _ hinactive
  match k with
  | 0 =>
    rw [Course.first_iff hleft, hfirst]
    rfl
  | 1 =>
    have hrenewal : (call.course engine crates script).renewal 1 = none ↔
        ∃ token, script.tokens 1 = .ok token := renewal_eq_none
    have hsecond : ((call.course engine crates script).second 1).refusal 1 =
        call.prevented engine crates script (script.tokens 1).toOption 1 := by
      change (call.attempts engine crates script _).refusal 1 = _
      rw [attempts_single _ _ hinactive]
      rfl
    rw [Course.second_iff hleft, hfirst, hrenewal, hsecond]
    refine and_congr Iff.rfl (and_congr Iff.rfl ?_)
    constructor
    · rintro ⟨⟨token, htoken⟩, hmade⟩
      rw [htoken] at hmade
      exact ⟨token, htoken, hmade⟩
    · rintro ⟨token, htoken, hmade⟩
      rw [htoken]
      exact ⟨⟨token, rfl⟩, hmade⟩
  | k + 2 =>
    have hmade : (call.course engine crates script).run.2.1 ≤ 2 := Course.made_le_two hleft
    exact iff_of_false (by omega) not_false

theorem prevented_unnoticed (h : (script.cancelled k && script.polledFirst k) = false) :
    call.prevented engine crates script bearer k = call.unprepared engine crates bearer := by
  simp only [prevented, h, Bool.and_false, Bool.false_eq_true, if_false]

theorem prevented_polled (hraced : call.raced = true) (hcancelled : script.cancelled k = true)
    (hpolled : script.polledFirst k = true) :
    call.prevented engine crates script bearer k = some (.error .cancelled) := by
  simp only [prevented, hraced, hcancelled, hpolled, Bool.and_self, if_true]

theorem makes_of_unnoticed (h : (script.cancelled k && script.polledFirst k) = false) :
    call.Makes engine crates script k ↔ call.Due engine crates script k := by
  match k with
  | 0 =>
    unfold Makes Due
    rw [prevented_unnoticed h]
  | 1 =>
    unfold Makes Due
    simp only [prevented_unnoticed h]
  | k + 2 => exact Iff.rfl

/-- With a token that is not cancelled, the requests that are due are made. -/
theorem makes_spare : call.Makes engine crates (script.spare k) k ↔
    call.Due engine crates script k := by
  have hspared : ((script.spare k).cancelled k && (script.spare k).polledFirst k) = false := by
    simp only [Script.spare, Function.update_self, Bool.false_and]
  rw [makes_of_unnoticed hspared]
  match k with
  | 0 => exact Iff.rfl
  | 1 =>
    have hbefore : call.prevented engine crates (script.spare 1)
        (call.oauth2Context.map (·.bearer)) 0 =
          call.prevented engine crates script (call.oauth2Context.map (·.bearer)) 0 := by
      simp only [prevented, Script.spare, Function.update_of_ne Nat.zero_ne_one]
    unfold Due
    rw [hbefore]
    rfl
  | k + 2 => exact Iff.rfl

theorem stops_iff (hraced : call.raced = true) :
    (StopsWhenCancelled script .cancelled fun script => call.run engine crates script base) ↔
      (activeRetry (call.retry engine) call.executeHttp.method).isSome = true ∨
        ∀ k, script.cancelled k = true → call.Due engine crates script k →
          script.polledFirst k = true := by
  cases hactive : activeRetry (call.retry engine) call.executeHttp.method with
  | some retry => exact iff_of_true (stops_of_active hraced hactive) (.inl rfl)
  | none =>
    simp only [Option.isSome_none, Bool.false_eq_true, false_or]
    refine forall₂_congr fun k hcancelled => ?_
    rw [sent_eq, makes_iff hactive, makes_spare]
    refine imp_congr_right fun hdue => ?_
    rw [sent_eq, run_ends.result]
    cases hpolled : script.polledFirst k with
    | false =>
      have hunnoticed : (script.cancelled k && script.polledFirst k) = false := by
        rw [hpolled, Bool.and_false]
      have hmade : k < (call.course engine crates script).run.2.1 :=
        (makes_iff hactive).mpr ((makes_of_unnoticed hunnoticed).mpr hdue)
      exact iff_of_false (fun h => Nat.not_lt.mpr h.1 hmade) Bool.false_ne_true
    | true =>
      have hrefusal : ∀ bearer, (call.attempts engine crates script bearer).refusal k =
          some (.error .cancelled) := by
        intro bearer
        rw [attempts_single _ _ hactive]
        exact prevented_polled hraced hcancelled hpolled
      have hspared : k < (call.course engine crates (script.spare k)).run.2.1 :=
        (makes_iff hactive).mpr (makes_spare.mpr hdue)
      obtain ⟨hresult, hmade⟩ :=
        course_spare.run_refused (hrefusal _) (fun _ => hrefusal _) hspared
      exact iff_of_true ⟨hmade.le, hresult⟩ rfl

end ToolCall

namespace PluginSend
variable {send : PluginSend} {base64 : String → String} {script : Script}
  {base : EngineOutside Moment} {oauth2Context : Option PluginOauth2ExecutionContext} {k : ℕ}

theorem attempts_spare : (send.attempts script).SameBut (send.attempts (script.spare k)) k := by
  unfold attempts
  exact attemptsOf_spare fun _ _ => rfl

theorem course_spare : (send.course script oauth2Context).SameBut
    (send.course (script.spare k) oauth2Context) k :=
  ⟨rfl, attempts_spare, rfl, rfl, fun _ => attempts_spare⟩

theorem sent_eq (h : send.oauth2Context script = .ok oauth2Context) :
    (send.run base64 script base).2.exchanges.length = (send.course script oauth2Context).run.2.1 :=
  (run_ends h).traffic.exchanges

variable (send script) in
/-- As for tools. Nothing prevents a request. -/
def Due (oauth2Context : Option PluginOauth2ExecutionContext) : ℕ → Prop
  | 0 => True
  | 1 => rejected oauth2Context (script.answers 0) = true ∧ ∃ token, script.tokens 1 = .ok token
  | _ + 2 => False

theorem attempts_single (hinactive : activeRetry send.retry send.request.method = none) :
    send.attempts script = single (fun _ => none) script.answers := by
  unfold attempts
  exact attemptsOf_unwatched hinactive

theorem makes_iff (hinactive : activeRetry send.retry send.request.method = none) :
    k < (send.course script oauth2Context).run.2.1 ↔ Due script oauth2Context k := by
  have hleft : (send.course script oauth2Context).left = 0 := attemptsLeft_eq_zero hinactive
  have hfirst : (send.course script oauth2Context).first =
      single (fun _ => none) script.answers := attempts_single hinactive
  match k with
  | 0 =>
    rw [Course.first_iff hleft, hfirst]
    exact iff_of_true rfl trivial
  | 1 =>
    have hrenewal : (send.course script oauth2Context).renewal 1 = none ↔
        ∃ token, script.tokens 1 = .ok token := renewal_eq_none
    have hsecond : ((send.course script oauth2Context).second 1).refusal 1 = none := by
      change (send.attempts script).refusal 1 = none
      rw [attempts_single hinactive]
      rfl
    rw [Course.second_iff hleft, hfirst, hrenewal]
    constructor
    · exact fun ⟨_, hrejected, htoken, _⟩ => ⟨hrejected, htoken⟩
    · exact fun ⟨hrejected, htoken⟩ => ⟨rfl, hrejected, htoken, hsecond⟩
  | k + 2 =>
    have hmade : (send.course script oauth2Context).run.2.1 ≤ 2 := Course.made_le_two hleft
    exact iff_of_false (by omega) not_false

theorem stops_iff (htoken : send.ctx.cancellation.isSome = true) :
    (StopsWhenCancelled script cancelledError fun script => send.run base64 script base) ↔
      (activeRetry send.retry send.request.method).isSome = true ∨
        ∀ oauth2Context, send.oauth2Context script = .ok oauth2Context →
          ∀ k, script.cancelled k = true → ¬ Due script oauth2Context k := by
  have hspared : ∀ k, send.oauth2Context (script.spare k) = send.oauth2Context script :=
    fun _ => rfl
  cases hcontext : send.oauth2Context script with
  | error error =>
    refine iff_of_true (fun k _ hdue => ?_) (.inr fun _ h => by cases h)
    have hrun : send.run base64 (script.spare k) base = _ :=
      run_unresolved ((hspared k).trans hcontext)
    beta_reduce at hdue
    rw [hrun] at hdue
    exact absurd hdue (Nat.not_lt_zero k)
  | ok oauth2Context =>
    simp only [Except.ok.injEq, forall_eq']
    unfold StopsWhenCancelled
    cases hactive : activeRetry send.retry send.request.method with
    | some retry =>
      refine iff_of_true (fun k hcancelled hdue => ?_) (.inl rfl)
      rw [sent_eq ((hspared k).trans hcontext)] at hdue
      rw [sent_eq hcontext, (run_ends hcontext).result]
      have hrefusal : (send.attempts script).refusal k = some (.error cancelledError) :=
        attemptsOf_noticed hactive htoken hcancelled
      obtain ⟨hresult, hmade⟩ := course_spare.run_refused hrefusal (fun _ => hrefusal) hdue
      exact ⟨hmade.le, hresult⟩
    | none =>
      simp only [Option.isSome_none, Bool.false_eq_true, false_or]
      refine forall₂_congr fun k hcancelled => ?_
      rw [sent_eq ((hspared k).trans hcontext), sent_eq hcontext, makes_iff hactive]
      have hmakes : k < (send.course script oauth2Context).run.2.1 ↔ Due script oauth2Context k :=
        makes_iff hactive
      constructor
      · intro hstops hdue
        exact Nat.not_lt.mpr (hstops hdue).1 (hmakes.mpr hdue)
      · exact fun hundue hdue => absurd hdue hundue

end PluginSend

/-- Calls that do not retry stop at a cancellation if it is noticed before each request that
is due, those of plugins if there is none. -/
theorem stops_when_cancelled (engine : Engine) (crates : Crates) (base64 : String → String)
    (script : Script) (base : EngineOutside Moment) (call : ToolCall) (send : PluginSend)
    (hraced : call.raced = true) (htoken : send.ctx.cancellation.isSome = true) :
    ((StopsWhenCancelled script .cancelled fun script => call.run engine crates script base) ↔
      (activeRetry (call.retry engine) call.executeHttp.method).isSome = true ∨
        ∀ k, script.cancelled k = true → call.Due engine crates script k →
          script.polledFirst k = true) ∧
    ((StopsWhenCancelled script cancelledError fun script => send.run base64 script base) ↔
      (activeRetry send.retry send.request.method).isSome = true ∨
        ∀ oauth2Context, send.oauth2Context script = .ok oauth2Context →
          ∀ k, script.cancelled k = true → ¬ PluginSend.Due script oauth2Context k) :=
  ⟨ToolCall.stops_iff hraced, PluginSend.stops_iff htoken⟩

/-! ## A token that is cancelled before the first request -/

namespace Quotes

def request : RequestContext where
  ct := 1
  peer := 1
  peerKey := "client"

def cancelled : Script where
  answers _ := answer 200
  tokens _ := .ok "token"
  cancelled _ := true
  polledFirst _ := false
  dropped _ := true
  awoken _ := true

def send (retry : Option OutboundRetryConfig) : PluginSend where
  ctx := (engine retry).buildPluginContext (some request)
  upstreamName := "quotes"
  upstream := upstream retry
  found := rfl
  request := { method := "GET", url := "/latest" }
  url := "http://localhost/latest"
  resolves := by
    change resolveUpstreamUrl "http://localhost" "/latest" = _
    rfl
  authMode := .inherit

end Quotes

theorem stops_when_cancelled_retrying :
    StopsWhenCancelled Quotes.cancelled .cancelled
      (fun script => (Quotes.call (some Quotes.twice) (some Quotes.request)).run
        (Quotes.engine (some Quotes.twice)) Greeting.crates script Quotes.base) ∧
    StopsWhenCancelled Quotes.cancelled cancelledError
      (fun script => (Quotes.send (some Quotes.twice)).run Greeting.crates.base64.encode script
        Quotes.base) := by
  have hstops := stops_when_cancelled (Quotes.engine (some Quotes.twice)) Greeting.crates
    Greeting.crates.base64.encode Quotes.cancelled Quotes.base
    (Quotes.call (some Quotes.twice) (some Quotes.request)) (Quotes.send (some Quotes.twice))
    rfl rfl
  exact ⟨hstops.1.mpr (.inl (by decide)), hstops.2.mpr (.inl (by decide))⟩

/-- Without retries, both send the request. -/
theorem cancelled_request_sent :
    (¬ StopsWhenCancelled Quotes.cancelled .cancelled fun script =>
      (Quotes.call none (some Quotes.request)).run (Quotes.engine none) Greeting.crates script
        Quotes.base) ∧
    ¬ StopsWhenCancelled Quotes.cancelled cancelledError fun script =>
      (Quotes.send none).run Greeting.crates.base64.encode script Quotes.base := by
  constructor
  · intro hstops
    have hsent := (hstops 0 rfl (by decide)).1
    exact absurd hsent (by decide)
  · intro hstops
    have hsent := (hstops 0 rfl (by decide)).1
    exact absurd hsent (by decide)

end RustMcpCore.Dispatch
