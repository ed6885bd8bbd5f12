import RustMcpCore.Http.OutboundPipeline

/-! # The history of a retried operation

Whatever is handed to the loop may keep a state of its own, the predicate too. The history of a
run is what was called in it, in order, and what came of each call.
-/
namespace RustMcpCore.Outbound
open Library

/-! ## The loop -/

/-- What the loop calls. Its closures are `FnMut`, so each changes the state that all share. -/
structure RetryCaller (S T E : Type) where
  operation : S → Except E T × S
  shouldRetry : Except E T → OutboundRetryConfig → S → Bool × S
  isCancelled : CancellationToken → S → Bool × S
  /-- Whether the token won. -/
  sleepUnlessCancelled : CancellationToken → UInt64 → S → Bool × S
  sleep : UInt64 → S → S

namespace RetryCaller
variable {S T E : Type} (caller : RetryCaller S T E) (params : RetryExecutionParams E)

def cancelledBefore (state : S) : Bool × S :=
  match params.cancellation with
  | some token => caller.isCancelled token state
  | none => (false, state)

def delayed (delayMs : UInt64) (state : S) : Bool × S :=
  match params.cancellation with
  | some token => caller.sleepUnlessCancelled token delayMs state
  | none => (false, caller.sleep delayMs state)

/-- The loop, with the number of attempts that are left after the next one. -/
def retryLoop (retry : OutboundRetryConfig) : ℕ → S → Except E T × S
  | left, state =>
    match caller.cancelledBefore params state with
    | (true, state) => (.error params.cancelledError, state)
    | (false, state) =>
      let (result, state) := caller.operation state
      match left with
      | 0 => (result, state)
      | left + 1 =>
        match caller.shouldRetry result retry state with
        | (false, state) => (result, state)
        | (true, state) =>
          match caller.delayed params retry.delayMs state with
          | (true, state) => (.error params.cancelledError, state)
          | (false, state) => retryLoop retry left state

def executeWithRetry (state : S) : Except E T × S :=
  match params.retry with
  | none => caller.operation state
  | some retry =>
    if retry.maxAttempts ≤ 1 ∨ !methodIsRetryable params.method then caller.operation state
    else caller.retryLoop params retry (retry.maxAttempts.toNat - 1) state

end RetryCaller

/-! ## Histories -/

inductive RetryEvent (T E : Type)
  | invoked (outcome : Except E T)
  | judged (outcome : Except E T) (again : Bool)
  | asked (token : CancellationToken) (cancelled : Bool)

/-- The outcomes of the operation. -/
def outcomes {T E : Type} (history : List (RetryEvent T E)) : List (Except E T) :=
  history.filterMap fun
    | .invoked outcome => some outcome
    | .judged _ _ | .asked _ _ => none

namespace RetryCaller
variable {S T E : Type} (caller : RetryCaller S T E) (params : RetryExecutionParams E)

/-- Each call is written down. -/
def logged : RetryCaller (S × List (RetryEvent T E)) T E where
  operation := fun (state, history) =>
    let (outcome, state) := caller.operation state
    (outcome, state, history ++ [.invoked outcome])
  shouldRetry outcome retry := fun (state, history) =>
    let (again, state) := caller.shouldRetry outcome retry state
    (again, state, history ++ [.judged outcome again])
  isCancelled token := fun (state, history) =>
    let (cancelled, state) := caller.isCancelled token state
    (cancelled, state, history ++ [.asked token cancelled])
  sleepUnlessCancelled token delayMs := fun (state, history) =>
    let (cancelled, state) := caller.sleepUnlessCancelled token delayMs state
    (cancelled, state, history ++ [.asked token cancelled])
  sleep delayMs := fun (state, history) => (caller.sleep delayMs state, history)

def history (state : S) : List (RetryEvent T E) :=
  (caller.logged.executeWithRetry params (state, [])).2.2

end RetryCaller

def RetryEvent.invokes {T E : Type} : RetryEvent T E → Prop
  | .invoked _ => True
  | .judged _ _ | .asked _ _ => False

def RetryEvent.declines {T E : Type} : RetryEvent T E → Prop
  | .judged _ again => again = false
  | .invoked _ | .asked _ _ => False

/-- The operation is not called once the predicate has declined an outcome. -/
def EndsDeclined {T E : Type} (history : List (RetryEvent T E)) : Prop :=
  history.Pairwise fun earlier later => earlier.declines → ¬ later.invokes

section Params
variable {T E : Type} (params : RetryExecutionParams E)

/-- There is one attempt, whatever comes of it: the retries are not configured for more, or the
method is not one of the four that are tried again. -/
def Bypassed : Prop :=
  (∀ retry, params.retry = some retry → retry.maxAttempts ≤ 1) ∨
    Text.toAsciiUppercase (Text.trim params.method) ∉ ["GET", "HEAD", "OPTIONS", "DELETE"]

def maxAttempts : ℕ := (params.retry.map (·.maxAttempts.toNat)).getD 1

/-- What is asked of a token, if there is one. -/
def asks (cancelled : Bool) : List (RetryEvent T E) :=
  params.cancellation.toList.map (.asked · cancelled)

/-- The histories of the loop, with what each of them ends in. -/
inductive Course : ℕ → List (RetryEvent T E) → Except E T → Prop
  | cancelled {left token} (h : params.cancellation = some token) :
    Course left [.asked token true] (.error params.cancelledError)
  | last {outcome} : Course 0 (asks params false ++ [.invoked outcome]) outcome
  | declined {left outcome} :
    Course (left + 1) (asks params false ++ [.invoked outcome, .judged outcome false]) outcome
  | cut {left token} (outcome) (h : params.cancellation = some token) :
    Course (left + 1)
      (asks params false ++ [.invoked outcome, .judged outcome true, .asked token true])
      (.error params.cancelledError)
  | again {left rest result} (outcome) (h : Course left rest result) :
    Course (left + 1)
      (asks params false ++ [.invoked outcome, .judged outcome true] ++ asks params false ++ rest)
      result

end Params

/-! ## The branches of the loop -/

namespace RetryCaller
section Branches
variable {S T E : Type} {caller : RetryCaller S T E} {params : RetryExecutionParams E}
variable {retry : OutboundRetryConfig} {left : ℕ} {state started called judged rested : S}
variable {outcome : Except E T}

theorem retryLoop_cancelled (hbefore : caller.cancelledBefore params state = (true, started)) :
    caller.retryLoop params retry left state = (.error params.cancelledError, started) := by
  unfold retryLoop
  simp only [hbefore]

theorem retryLoop_last (hbefore : caller.cancelledBefore params state = (false, started))
    (hcall : caller.operation started = (outcome, called)) :
    caller.retryLoop params retry 0 state = (outcome, called) := by
  simp only [retryLoop, hbefore, hcall]

theorem retryLoop_declined (hbefore : caller.cancelledBefore params state = (false, started))
    (hcall : caller.operation started = (outcome, called))
    (hjudged : caller.shouldRetry outcome retry called = (false, judged)) :
    caller.retryLoop params retry (left + 1) state = (outcome, judged) := by
  simp only [retryLoop, hbefore, hcall, hjudged]

theorem retryLoop_cut (hbefore : caller.cancelledBefore params state = (false, started))
    (hcall : caller.operation started = (outcome, called))
    (hjudged : caller.shouldRetry outcome retry called = (true, judged))
    (hdelayed : caller.delayed params retry.delayMs judged = (true, rested)) :
    caller.retryLoop params retry (left + 1) state = (.error params.cancelledError, rested) := by
  simp only [retryLoop, hbefore, hcall, hjudged, hdelayed]

theorem retryLoop_again (hbefore : caller.cancelledBefore params state = (false, started))
    (hcall : caller.operation started = (outcome, called))
    (hjudged : caller.shouldRetry outcome retry called = (true, judged))
    (hdelayed : caller.delayed params retry.delayMs judged = (false, rested)) :
    caller.retryLoop params retry (left + 1) state = caller.retryLoop params retry left rested := by
  rw [retryLoop]
  simp only [hbefore, hcall, hjudged, hdelayed]

variable {history : List (RetryEvent T E)}

theorem cancelledBefore_logged {cancelled : Bool}
    (h : caller.cancelledBefore params state = (cancelled, started)) :
    caller.logged.cancelledBefore params (state, history) =
      (cancelled, started, history ++ asks params cancelled) := by
  unfold cancelledBefore at h ⊢
  unfold asks
  cases hcancellation : params.cancellation with
  | none =>
    rw [hcancellation] at h
    obtain ⟨rfl, rfl⟩ := Prod.mk.inj h
    simp only [Option.toList_none, List.map_nil, List.append_nil]
  | some token =>
    rw [hcancellation] at h
    simp only [logged, h, Option.toList_some, List.map_cons, List.map_nil]

theorem delayed_logged {delayMs : UInt64} {cancelled : Bool}
    (h : caller.delayed params delayMs state = (cancelled, rested)) :
    caller.logged.delayed params delayMs (state, history) =
      (cancelled, rested, history ++ asks params cancelled) := by
  unfold delayed at h ⊢
  unfold asks
  cases hcancellation : params.cancellation with
  | none =>
    rw [hcancellation] at h
    obtain ⟨rfl, rfl⟩ := Prod.mk.inj h
    simp only [logged, Option.toList_none, List.map_nil, List.append_nil]
  | some token =>
    rw [hcancellation] at h
    simp only [logged, h, Option.toList_some, List.map_cons, List.map_nil]

theorem operation_logged (h : caller.operation started = (outcome, called)) :
    caller.logged.operation (started, history) = (outcome, called, history ++ [.invoked outcome]) := by
  simp only [logged, h]

theorem shouldRetry_logged {again : Bool}
    (h : caller.shouldRetry outcome retry called = (again, judged)) :
    caller.logged.shouldRetry outcome retry (called, history) =
      (again, judged, history ++ [.judged outcome again]) := by
  simp only [logged, h]

/-- Without a token nothing is cancelled. -/
theorem asks_of_cancelledBefore (h : caller.cancelledBefore params state = (true, started)) :
    ∃ token, params.cancellation = some token := by
  unfold cancelledBefore at h
  cases hcancellation : params.cancellation with
  | none =>
    rw [hcancellation] at h
    cases h
  | some token => exact ⟨token, rfl⟩

theorem asks_of_delayed {delayMs : UInt64}
    (h : caller.delayed params delayMs judged = (true, rested)) :
    ∃ token, params.cancellation = some token := by
  unfold delayed at h
  cases hcancellation : params.cancellation with
  | none =>
    rw [hcancellation] at h
    cases h
  | some token => exact ⟨token, rfl⟩

/-- A loop that does the same with its history written down, where the history is a course. -/
def Written (caller : RetryCaller S T E) (params : RetryExecutionParams E)
    (retry : OutboundRetryConfig) (left : ℕ) (state : S) (history : List (RetryEvent T E)) : Prop :=
  ∃ course, Course params left course (caller.retryLoop params retry left state).1 ∧
    caller.logged.retryLoop params retry left (state, history) =
      ((caller.retryLoop params retry left state).1, (caller.retryLoop params retry left state).2,
        history ++ course)

theorem written_cancelled (hbefore : caller.cancelledBefore params state = (true, started)) :
    caller.Written params retry left state history := by
  obtain ⟨token, htoken⟩ := asks_of_cancelledBefore hbefore
  unfold Written
  rw [retryLoop_cancelled hbefore, retryLoop_cancelled (cancelledBefore_logged hbefore)]
  refine ⟨[.asked token true], .cancelled htoken, ?_⟩
  simp only [asks, htoken, Option.toList_some, List.map_cons, List.map_nil]

theorem written_last (hbefore : caller.cancelledBefore params state = (false, started)) :
    caller.Written params retry 0 state history := by
  rcases hcall : caller.operation started with ⟨outcome, called⟩
  unfold Written
  rw [retryLoop_last hbefore hcall,
    retryLoop_last (cancelledBefore_logged hbefore) (operation_logged hcall)]
  exact ⟨_, .last, by rw [List.append_assoc]⟩

theorem written_declined (hbefore : caller.cancelledBefore params state = (false, started))
    (hcall : caller.operation started = (outcome, called))
    (hjudged : caller.shouldRetry outcome retry called = (false, judged)) :
    caller.Written params retry (left + 1) state history := by
  unfold Written
  rw [retryLoop_declined hbefore hcall hjudged, retryLoop_declined (cancelledBefore_logged hbefore)
    (operation_logged hcall) (shouldRetry_logged hjudged)]
  exact ⟨_, .declined, by simp only [List.append_assoc, List.cons_append, List.nil_append]⟩

theorem written_cut (hbefore : caller.cancelledBefore params state = (false, started))
    (hcall : caller.operation started = (outcome, called))
    (hjudged : caller.shouldRetry outcome retry called = (true, judged))
    (hdelayed : caller.delayed params retry.delayMs judged = (true, rested)) :
    caller.Written params retry (left + 1) state history := by
  obtain ⟨token, htoken⟩ := asks_of_delayed hdelayed
  unfold Written
  rw [retryLoop_cut hbefore hcall hjudged hdelayed, retryLoop_cut (cancelledBefore_logged hbefore)
    (operation_logged hcall) (shouldRetry_logged hjudged) (delayed_logged hdelayed)]
  refine ⟨_, .cut outcome htoken, ?_⟩
  simp only [asks, htoken, Option.toList_some, List.map_cons, List.map_nil, List.append_assoc,
    List.cons_append, List.nil_append]

theorem written_again (hbefore : caller.cancelledBefore params state = (false, started))
    (hcall : caller.operation started = (outcome, called))
    (hjudged : caller.shouldRetry outcome retry called = (true, judged))
    (hdelayed : caller.delayed params retry.delayMs judged = (false, rested))
    (hrest : ∀ history, caller.Written params retry left rested history) :
    caller.Written params retry (left + 1) state history := by
  unfold Written at hrest ⊢
  rw [retryLoop_again hbefore hcall hjudged hdelayed,
    retryLoop_again (cancelledBefore_logged hbefore) (operation_logged hcall)
      (shouldRetry_logged hjudged) (delayed_logged hdelayed)]
  obtain ⟨course, hcourse, hsame⟩ := hrest
    (history ++ asks params false ++ [.invoked outcome] ++ [.judged outcome true] ++
      asks params false)
  refine ⟨_, .again outcome hcourse, ?_⟩
  rw [hsame]
  simp only [List.append_assoc, List.cons_append, List.nil_append]

end Branches

variable {S T E : Type} (caller : RetryCaller S T E) (params : RetryExecutionParams E)

theorem written (retry : OutboundRetryConfig) (left : ℕ) (state : S)
    (history : List (RetryEvent T E)) : caller.Written params retry left state history := by
  induction left generalizing state history with
  | zero =>
    rcases hbefore : caller.cancelledBefore params state with ⟨cancelled, started⟩
    cases cancelled with
    | true => exact written_cancelled hbefore
    | false => exact written_last hbefore
  | succ left ih =>
    rcases hbefore : caller.cancelledBefore params state with ⟨cancelled, started⟩
    cases cancelled with
    | true => exact written_cancelled hbefore
    | false =>
      rcases hcall : caller.operation started with ⟨outcome, called⟩
      rcases hjudged : caller.shouldRetry outcome retry called with ⟨again, judged⟩
      cases again with
      | false => exact written_declined hbefore hcall hjudged
      | true =>
        rcases hdelayed : caller.delayed params retry.delayMs judged with ⟨cut, rested⟩
        cases cut with
        | true => exact written_cut hbefore hcall hjudged hdelayed
        | false => exact written_again hbefore hcall hjudged hdelayed (ih rested)

end RetryCaller

/-! ## What a history says -/

section Courses
variable {T E : Type} {params : RetryExecutionParams E} {left : ℕ}
variable {history : List (RetryEvent T E)} {result : Except E T}

/-- A token that said it was cancelled. -/
def SaysCancelled (params : RetryExecutionParams E) (history : List (RetryEvent T E)) : Prop :=
  ∃ token, params.cancellation = some token ∧ .asked token true ∈ history

theorem outcomes_append (history later : List (RetryEvent T E)) :
    outcomes (history ++ later) = outcomes history ++ outcomes later :=
  List.filterMap_append

theorem outcomes_asks (cancelled : Bool) :
    outcomes (asks (T := T) params cancelled) = [] := by
  unfold asks
  cases params.cancellation with
  | none => rfl
  | some token => rfl

theorem Course.outcomes_le (h : Course params left history result) :
    (outcomes history).length ≤ left + 1 := by
  induction h with
  | cancelled htoken => exact Nat.zero_le _
  | last =>
    rw [outcomes_append, outcomes_asks]
    exact Nat.le_refl 1
  | declined =>
    rw [outcomes_append, outcomes_asks]
    exact Nat.le_add_left 1 _
  | cut outcome htoken =>
    rw [outcomes_append, outcomes_asks]
    exact Nat.le_add_left 1 _
  | again outcome hrest ih =>
    simp only [outcomes_append, outcomes_asks, List.append_nil, List.nil_append, List.length_append]
    rw [Nat.add_comm]
    exact Nat.add_le_add_right ih 1

theorem Course.result_eq (h : Course params left history result) :
    (outcomes history).getLast? = some result ∨
      result = .error params.cancelledError ∧ SaysCancelled params history := by
  induction h with
  | cancelled htoken => exact .inr ⟨rfl, _, htoken, List.mem_singleton_self _⟩
  | last =>
    rw [outcomes_append, outcomes_asks]
    exact .inl rfl
  | declined =>
    rw [outcomes_append, outcomes_asks]
    exact .inl rfl
  | cut outcome htoken =>
    refine .inr ⟨rfl, _, htoken, List.mem_append_right _ ?_⟩
    exact List.mem_cons_of_mem _ (List.mem_cons_of_mem _ (List.mem_singleton_self _))
  | again outcome hrest ih =>
    rcases ih with hlast | ⟨hcancelled, token, htoken, hsaid⟩
    · refine .inl ?_
      rw [outcomes_append, List.getLast?_append, hlast]
      rfl
    · exact .inr ⟨hcancelled, token, htoken, List.mem_append_right _ hsaid⟩

theorem not_declines_of_mem_asks {cancelled : Bool} {event : RetryEvent T E}
    (h : event ∈ asks params cancelled) : ¬ event.declines := by
  obtain ⟨token, -, rfl⟩ := List.mem_map.mp h
  exact id

theorem EndsDeclined.cons {event : RetryEvent T E} (h : ¬ event.declines)
    (hrest : EndsDeclined history) : EndsDeclined (event :: history) :=
  List.pairwise_cons.mpr ⟨fun _ _ hdeclines => absurd hdeclines h, hrest⟩

theorem EndsDeclined.append {first rest : List (RetryEvent T E)}
    (hfirst : ∀ event ∈ first, ¬ event.declines) (hrest : EndsDeclined rest) :
    EndsDeclined (first ++ rest) := by
  induction first with
  | nil => exact hrest
  | cons event first ih =>
    obtain ⟨hevent, hfirst⟩ := List.forall_mem_cons.mp hfirst
    exact .cons hevent (ih hfirst)

theorem Course.endsDeclined (h : Course params left history result) : EndsDeclined history := by
  have hasks : ∀ event ∈ asks (T := T) params false, ¬ event.declines :=
    fun _ => not_declines_of_mem_asks
  induction h with
  | cancelled htoken => exact List.pairwise_singleton _ _
  | last => exact .append hasks (List.pairwise_singleton _ _)
  | declined => exact .append hasks (.cons id (List.pairwise_singleton _ _))
  | cut outcome htoken =>
    exact .append hasks (.cons id (.cons Bool.true_eq_false.mp (List.pairwise_singleton _ _)))
  | again outcome hrest ih =>
    simp only [List.append_assoc, List.cons_append, List.nil_append]
    exact .append hasks (.cons id (.cons Bool.true_eq_false.mp (.append hasks ih)))

end Courses

/-! ## All runs -/

namespace RetryCaller
variable {S T E : Type} (caller : RetryCaller S T E) (params : RetryExecutionParams E) (state : S)

theorem execute_bypassed (h : Bypassed params) :
    caller.executeWithRetry params state = caller.operation state := by
  unfold executeWithRetry
  cases hretry : params.retry with
  | none => rfl
  | some retry =>
    have hskips : retry.maxAttempts ≤ 1 ∨ !methodIsRetryable params.method :=
      h.imp (fun hmax => hmax retry hretry) fun hmethod => by
        rw [Bool.not_eq_true', ← Bool.not_eq_true]
        exact mt methodIsRetryable_iff.mp hmethod
    exact if_pos hskips

theorem execute_retried {retry : OutboundRetryConfig} (hretry : params.retry = some retry)
    (h : ¬ Bypassed params) :
    caller.executeWithRetry params state =
      caller.retryLoop params retry (retry.maxAttempts.toNat - 1) state := by
  have hgoes : ¬ (retry.maxAttempts ≤ 1 ∨ !methodIsRetryable params.method) := by
    rintro (hmax | hmethod)
    · refine h (.inl fun other hother => ?_)
      rw [← Option.some.inj (hretry.symm.trans hother)]
      exact hmax
    · refine h (.inr fun hlisted => ?_)
      rw [methodIsRetryable_iff.mpr hlisted] at hmethod
      cases hmethod
  simp only [executeWithRetry, hretry, if_neg hgoes]

theorem history_bypassed (h : Bypassed params) :
    caller.history params state = [.invoked (caller.operation state).1] := by
  unfold history
  rw [execute_bypassed _ _ _ h]
  rfl

end RetryCaller

/-! ## The loop of outbound calls -/

section Outbound
variable {W T E : Type} (outside : Outside W) (params : RetryExecutionParams E)
  (operation : Traffic W → Except E T × Traffic W)
  (shouldRetry : Except E T → OutboundRetryConfig → Bool)

/-- An outbound call shares the traffic with its operation, and its predicate keeps no state. -/
def outboundCaller : RetryCaller (Traffic W) T E where
  operation := operation
  shouldRetry outcome retry traffic := (shouldRetry outcome retry, traffic)
  isCancelled token traffic := traffic.step (outside.isCancelled token)
  sleepUnlessCancelled token delayMs traffic :=
    traffic.step (outside.sleepUnlessCancelled token delayMs)
  sleep delayMs traffic := { traffic with world := outside.sleep delayMs traffic.world }

theorem cancelledBefore_outbound (traffic : Traffic W) :
    cancelledBefore outside params traffic =
      (outboundCaller outside operation shouldRetry).cancelledBefore params traffic := by
  unfold cancelledBefore RetryCaller.cancelledBefore
  cases params.cancellation with
  | none => rfl
  | some token => rfl

theorem delayed_outbound (delayMs : UInt64) (traffic : Traffic W) :
    delayed outside params delayMs traffic =
      (outboundCaller outside operation shouldRetry).delayed params delayMs traffic := by
  unfold delayed RetryCaller.delayed
  cases params.cancellation with
  | none => rfl
  | some token => rfl

theorem retryLoop_outbound (retry : OutboundRetryConfig) (left : ℕ) (traffic : Traffic W) :
    retryLoop outside params operation shouldRetry retry left traffic =
      (outboundCaller outside operation shouldRetry).retryLoop params retry left traffic := by
  let caller := outboundCaller outside operation shouldRetry
  induction left generalizing traffic with
  | zero =>
    rcases hbefore : caller.cancelledBefore params traffic with ⟨cancelled, started⟩
    have hbefore' := (cancelledBefore_outbound outside params operation shouldRetry _).trans hbefore
    cases cancelled with
    | true =>
      rw [RetryCaller.retryLoop_cancelled hbefore]
      simp only [retryLoop, retryRound, hbefore']
    | false =>
      rcases hcall : operation started with ⟨outcome, called⟩
      rw [RetryCaller.retryLoop_last hbefore hcall]
      simp only [retryLoop, retryRound, hbefore', hcall]
  | succ left ih =>
    rcases hbefore : caller.cancelledBefore params traffic with ⟨cancelled, started⟩
    have hbefore' := (cancelledBefore_outbound outside params operation shouldRetry _).trans hbefore
    cases cancelled with
    | true =>
      rw [RetryCaller.retryLoop_cancelled hbefore]
      simp only [retryLoop, retryRound, hbefore']
    | false =>
      rcases hcall : operation started with ⟨outcome, called⟩
      cases hjudged : shouldRetry outcome retry with
      | false =>
        have hdeclined : caller.shouldRetry outcome retry called = (false, called) :=
          congrArg (·, called) hjudged
        rw [RetryCaller.retryLoop_declined hbefore hcall hdeclined]
        simp only [retryLoop, retryRound, hbefore', hcall, hjudged, Bool.false_eq_true, if_false]
      | true =>
        have hagain : caller.shouldRetry outcome retry called = (true, called) :=
          congrArg (·, called) hjudged
        rcases hdelayed : caller.delayed params retry.delayMs called with ⟨cut, rested⟩
        have hdelayed' := (delayed_outbound outside params operation shouldRetry _ _).trans hdelayed
        cases cut with
        | true =>
          rw [RetryCaller.retryLoop_cut hbefore hcall hagain hdelayed]
          simp only [retryLoop, retryRound, hbefore', hcall, hjudged, if_true, hdelayed']
        | false =>
          rw [RetryCaller.retryLoop_again hbefore hcall hagain hdelayed, ← ih rested]
          simp only [retryLoop, retryRound, hbefore', hcall, hjudged, if_true, hdelayed']

theorem executeWithRetry_outbound (traffic : Traffic W) :
    executeWithRetry outside params operation shouldRetry traffic =
      (outboundCaller outside operation shouldRetry).executeWithRetry params traffic := by
  unfold executeWithRetry RetryCaller.executeWithRetry
  simp only [retryLoop_outbound]
  rfl

end Outbound
end RustMcpCore.Outbound
