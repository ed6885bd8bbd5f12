import RustMcpCore.Engine.Templating
import RustMcpCore.Http.OutboundPipeline

/-! # Requests of HTTP tools

The templates of a tool are rendered with its arguments, and the answer of the
upstream is read. Everything up to the request happens at once.
-/
namespace RustMcpCore
open Library Outbound

inductive HttpExecutionError
  | template (error : McpError)
  | request (error : McpError)
  | response (error : McpError)
  | upstreamStatus (status : UInt16)
  | cancelled

namespace HttpExecutionError

def statusCode : HttpExecutionError → Option UInt16
  | .upstreamStatus status => some status
  | .template _ | .request _ | .response _ | .cancelled => none

def intoMcpError : HttpExecutionError → McpError
  | .template error | .request error | .response error => error
  | .upstreamStatus status => .internalError s!"upstream returned {status}" none
  | .cancelled => .internalError CANCELLED_ERROR_MESSAGE none

end HttpExecutionError

structure HttpRequestTemplate where
  method : String
  path : String
  query : Option Value
  headers : Option Value
  body : Option Value
  timeoutMs : Option UInt64
  maxResponseBytes : Option UInt64

section Execute
variable (json : SerdeJson)

def renderTemplate (ctx : RenderContext) (template : Value) : Except HttpExecutionError Value :=
  (Templating.renderValue json template ctx).mapError .template

/-- The members of a rendered object, null ones left out, as text. -/
def pairsOf : Value → List (String × String)
  | .object map => map.filterMap fun (key, value) =>
      match value with
      | .null => none
      | value => some (key, Templating.valueToString json value)
  | _ => []

def renderPairs (ctx : RenderContext) : Option Value →
    Except HttpExecutionError (List (String × String))
  | none => .ok []
  | some template => (renderTemplate json ctx template).map (pairsOf json)

def renderBody (ctx : RenderContext) : Option Value → Except HttpExecutionError (Option Value)
  | none => .ok none
  | some template => (renderTemplate json ctx template).map some

def requirePath : Value → Except HttpExecutionError String
  | .string path => .ok path
  | _ => .error (.template (.invalidRequest "path must render to a string" none))

def joinUrl (baseUrl path : String) : String :=
  Text.trimEndMatches baseUrl '/' ++
    if (Text.stripPrefix path "/").isSome then path else "/" ++ path

/-- `execute_http_detailed` up to the request. -/
def prepareRequest (baseUrl : String) (template : HttpRequestTemplate) (args : Value) :
    Except HttpExecutionError OutboundHttpRequest := do
  let ctx : RenderContext := { args, response := none }
  let path ← requirePath (← renderTemplate json ctx (.string template.path))
  let query ← renderPairs json ctx template.query
  let headers ← renderPairs json ctx template.headers
  let jsonBody ← renderBody json ctx template.body
  return { method := template.method
           url := joinUrl baseUrl path
           query
           headers
           timeoutMs := template.timeoutMs
           maxResponseBytes := template.maxResponseBytes
           jsonBody }

variable (fromSlice : FromSlice)

/-- `execute_http_detailed` from the answer on. -/
def readAnswer : Answer → Except HttpExecutionError Value
  | .error error => .error (.request error)
  | .ok response =>
    if response.isSuccess then (response.json fromSlice).mapError .response
    else .error (.upstreamStatus response.status)

/-- What came of a request that may have been dropped. -/
def readOutcome : Option Answer → Except HttpExecutionError Value
  | some answer => readAnswer fromSlice answer
  | none => .error .cancelled

variable {W : Type} (outside : Outside W) (baseUrl : String) (template : HttpRequestTemplate)
  (args : Value)

def executeHttpDetailed (cancellation : Option CancellationToken) (traffic : Traffic W) :
    Except HttpExecutionError Value × Traffic W :=
  match prepareRequest json baseUrl template args with
  | .error error => (.error error, traffic)
  | .ok request =>
    let (outcome, traffic) := traffic.exchange request (outside.sendOr request cancellation)
    (readOutcome fromSlice outcome, traffic)

/-- The `select!` between the request and the token. -/
def executeOrCancel (token : CancellationToken) (traffic : Traffic W) :
    Except HttpExecutionError Value × Traffic W :=
  match traffic.step (outside.pollsCancelled token) with
  | (true, traffic) => (.error .cancelled, traffic)
  | (false, traffic) => executeHttpDetailed json fromSlice outside baseUrl template args (some token) traffic

end Execute

section Errors
variable {json : SerdeJson}

theorem renderTemplate_error {ctx : RenderContext} {template : Value}
    {error : HttpExecutionError} (h : renderTemplate json ctx template = .error error) :
    ∃ inner, error = .template inner := by
  unfold renderTemplate at h
  cases hrender : Templating.renderValue json template ctx with
  | ok value =>
    rw [hrender] at h
    cases h
  | error inner =>
    rw [hrender] at h
    exact ⟨inner, (Except.error.inj h).symm⟩

theorem map_renderTemplate_error {A : Type} {ctx : RenderContext}
    {template : Value} {f : Value → A} {error : HttpExecutionError}
    (h : (renderTemplate json ctx template).map f = .error error) :
    ∃ inner, error = .template inner := by
  cases hrender : renderTemplate json ctx template with
  | ok value =>
    rw [hrender] at h
    cases h
  | error inner =>
    rw [hrender] at h
    cases h
    exact renderTemplate_error hrender

/-- Before the request only a template can fail. -/
theorem prepareRequest_error {baseUrl : String} {template : HttpRequestTemplate}
    {args : Value} {error : HttpExecutionError}
    (h : prepareRequest json baseUrl template args = .error error) :
    ∃ inner, error = .template inner := by
  unfold prepareRequest at h
  rcases bind_eq_error h with h | ⟨rendered, -, h⟩
  · exact renderTemplate_error h
  rcases bind_eq_error h with h | ⟨path, -, h⟩
  · cases rendered with
    | string path => cases h
    | _ => exact ⟨_, (Except.error.inj h).symm⟩
  rcases bind_eq_error h with h | ⟨query, -, h⟩
  · cases hquery : template.query with
    | none =>
      rw [hquery] at h
      cases h
    | some query =>
      rw [hquery] at h
      exact map_renderTemplate_error h
  rcases bind_eq_error h with h | ⟨headers, -, h⟩
  · cases hheaders : template.headers with
    | none =>
      rw [hheaders] at h
      cases h
    | some headers =>
      rw [hheaders] at h
      exact map_renderTemplate_error h
  rcases bind_eq_error h with h | ⟨jsonBody, -, h⟩
  · cases hbody : template.body with
    | none =>
      rw [hbody] at h
      cases h
    | some body =>
      rw [hbody] at h
      exact map_renderTemplate_error h
  · cases h

end Errors

/-! ## What an upstream answered -/

/-- A success whose body is a JSON value. -/
def Yields (fromSlice : FromSlice) (exchange : Exchange) (response : Value) : Prop :=
  ∃ answer, exchange.answer = some (.ok answer) ∧ answer.isSuccess = true ∧
    answer.json fromSlice = .ok response

/-- The last request of a call was answered with a JSON value. -/
def AnsweredWith (fromSlice : FromSlice) (exchanges : List Exchange) (response : Value) : Prop :=
  ∃ exchange, exchanges.getLast? = some exchange ∧ Yields fromSlice exchange response

section Answers
variable {json : SerdeJson} {fromSlice : FromSlice} {W : Type}

theorem readOutcome_ok {exchange : Exchange} {response : Value} :
    readOutcome fromSlice exchange.answer = .ok response ↔ Yields fromSlice exchange response := by
  unfold readOutcome readAnswer Yields
  cases exchange.answer with
  | none => exact iff_of_false nofun fun ⟨_, h, _⟩ => by cases h
  | some answer =>
    cases answer with
    | error error => exact iff_of_false nofun fun ⟨_, h, _⟩ => by cases h
    | ok answer =>
      simp only [Option.some.injEq, Except.ok.injEq, exists_eq_left']
      split
      · rename_i hsuccess
        rw [mapError_eq_ok]
        exact ⟨fun h => ⟨hsuccess, h⟩, fun h => h.2⟩
      · rename_i hfailure
        exact iff_of_false nofun fun ⟨h, _⟩ => hfailure h

/-- An operation gives a value exactly if it ended in an answer with that value. An
operation on traffic without one, that is. -/
def Faithful (fromSlice : FromSlice)
    (operation : Traffic W → Except HttpExecutionError Value × Traffic W) : Prop :=
  ∀ traffic, (∀ response, ¬ AnsweredWith fromSlice traffic.exchanges response) →
    ∀ response, (operation traffic).1 = .ok response ↔
      AnsweredWith fromSlice (operation traffic).2.exchanges response

variable {outside : Outside W} {baseUrl : String} {template : HttpRequestTemplate} {args : Value}

theorem executeHttpDetailed_faithful {cancellation : Option CancellationToken} :
    Faithful fromSlice (executeHttpDetailed json fromSlice outside baseUrl template args cancellation) := by
  intro traffic hquiet response
  unfold executeHttpDetailed
  cases prepareRequest json baseUrl template args with
  | error error => exact iff_of_false nofun (hquiet response)
  | ok request =>
    simp only [Traffic.exchanges_exchange]
    let exchange : Exchange :=
      ⟨request, (traffic.exchange request (outside.sendOr request cancellation)).1⟩
    have hread : readOutcome fromSlice exchange.answer = .ok response ↔ Yields fromSlice exchange response :=
      readOutcome_ok
    refine hread.trans ⟨fun h => ⟨_, List.getLast?_concat, h⟩, ?_⟩
    rintro ⟨exchange, hlast, h⟩
    rw [List.getLast?_concat] at hlast
    cases hlast
    exact h

theorem executeOrCancel_faithful {token : CancellationToken} :
    Faithful fromSlice (executeOrCancel json fromSlice outside baseUrl template args token) := by
  intro traffic hquiet response
  unfold executeOrCancel
  have hstep : (traffic.step (outside.pollsCancelled token)).2.exchanges = traffic.exchanges := rfl
  cases htraffic : traffic.step (outside.pollsCancelled token) with
  | mk polled after =>
    rw [htraffic] at hstep
    cases polled with
    | true =>
      refine iff_of_false nofun ?_
      rw [hstep]
      exact hquiet response
    | false =>
      rw [← hstep] at hquiet
      simp only
      exact executeHttpDetailed_faithful after hquiet response

variable (params : RetryExecutionParams HttpExecutionError) (traffic : Traffic W)

variable (outside) in
theorem cancelledBefore_exchanges :
    (cancelledBefore outside params traffic).2.exchanges = traffic.exchanges := by
  unfold cancelledBefore
  split
  · rfl
  · rfl

variable (outside) in
theorem delayed_exchanges (delayMs : UInt64) :
    (delayed outside params delayMs traffic).2.exchanges = traffic.exchanges := by
  unfold delayed
  split
  · rfl
  · rfl

variable {params : RetryExecutionParams HttpExecutionError}
  {operation : Traffic W → Except HttpExecutionError Value × Traffic W}
  {shouldRetry : Except HttpExecutionError Value → OutboundRetryConfig → Bool}

/-- No round follows an answer, for a value is never tried again. -/
theorem retryRound_faithful {retry : OutboundRetryConfig}
    {again : Option (Traffic W → Except HttpExecutionError Value × Traffic W)}
    (hoperation : Faithful fromSlice operation)
    (hvalue : ∀ value, shouldRetry (.ok value) retry = false)
    (hagain : ∀ rest, again = some rest → Faithful fromSlice rest) :
    Faithful fromSlice (retryRound outside params operation shouldRetry retry again) := by
  intro traffic hquiet response
  have hbefore := cancelledBefore_exchanges outside params traffic
  unfold retryRound
  cases hcancelled : cancelledBefore outside params traffic with
  | mk cancelled after =>
    rw [hcancelled] at hbefore
    replace hquiet : ∀ response, ¬ AnsweredWith fromSlice after.exchanges response := by rwa [hbefore]
    cases cancelled with
    | true => exact iff_of_false nofun (hquiet response)
    | false =>
      have hround := hoperation after hquiet
      simp only
      cases hresult : operation after with
      | mk result tried =>
        rw [hresult] at hround
        cases again with
        | none => exact hround response
        | some rest =>
          simp only
          split
          · rename_i hretry
            have hfailed : ∀ response, ¬ AnsweredWith fromSlice tried.exchanges response := by
              intro value hanswered
              rw [← hround value] at hanswered
              simp only at hanswered
              rw [hanswered, hvalue] at hretry
              cases hretry
            have hdelay := delayed_exchanges outside params tried retry.delayMs
            cases hdelayed : delayed outside params retry.delayMs tried with
            | mk dropped rested =>
              rw [hdelayed] at hdelay
              replace hfailed : ∀ response, ¬ AnsweredWith fromSlice rested.exchanges response := by
                rwa [hdelay]
              cases dropped with
              | true => exact iff_of_false nofun (hfailed response)
              | false => exact hagain rest rfl rested hfailed response
          · exact hround response

theorem retryLoop_faithful {retry : OutboundRetryConfig} {left : ℕ}
    (hoperation : Faithful fromSlice operation)
    (hvalue : ∀ value, shouldRetry (.ok value) retry = false) :
    Faithful fromSlice (retryLoop outside params operation shouldRetry retry left) := by
  induction left with
  | zero => exact retryRound_faithful hoperation hvalue nofun
  | succ left ih =>
    refine retryRound_faithful hoperation hvalue fun rest hrest => ?_
    cases hrest
    exact ih

theorem executeWithRetry_faithful (hoperation : Faithful fromSlice operation)
    (hvalue : ∀ value retry, shouldRetry (.ok value) retry = false) :
    Faithful fromSlice (executeWithRetry outside params operation shouldRetry) := by
  intro traffic hquiet
  unfold executeWithRetry
  split
  · exact hoperation traffic hquiet
  · split
    · exact hoperation traffic hquiet
    · exact retryLoop_faithful hoperation (fun value => hvalue value _) traffic hquiet

end Answers

end RustMcpCore
