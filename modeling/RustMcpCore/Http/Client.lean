import RustMcpCore.Errors

/-! # The HTTP client of the engine

What happens at an await is up to the outside, which has a state of its own. The
requests that were given to the client are kept with what became of them.
-/
namespace RustMcpCore.Outbound

structure OutboundHttpRequest where
  method : String := ""
  url : String := ""
  query : List (String × String) := []
  headers : List (String × String) := []
  timeoutMs : Option UInt64 := none
  maxResponseBytes : Option UInt64 := none
  jsonBody : Option Value := none
  formBody : List (String × String) := []
  basicAuth : Option (String × Option String) := none

structure OutboundHttpResponse where
  status : UInt16
  body : List UInt8

namespace OutboundHttpResponse
variable (response : OutboundHttpResponse)

def isSuccess : Bool := 200 ≤ response.status ∧ response.status < 300

def json (fromSlice : FromSlice) : Except McpError Value :=
  (fromSlice response.body).mapError fun error => .internalError error none

end OutboundHttpResponse

abbrev Answer := Except McpError OutboundHttpResponse

/-- What goes on outside while the code waits. Where it waits in a `select!` with a
token, it gets nothing if the token wins. -/
structure Outside (W : Type) where
  /-- `HttpClient::send`. -/
  send : OutboundHttpRequest → W → Answer × W
  sendUnlessCancelled : CancellationToken → OutboundHttpRequest → W → Option Answer × W
  isCancelled : CancellationToken → W → Bool × W
  /-- A `select!` polls the token first, and it has been cancelled. -/
  pollsCancelled : CancellationToken → W → Bool × W
  sleep : UInt64 → W → W
  /-- Whether the token won. -/
  sleepUnlessCancelled : CancellationToken → UInt64 → W → Bool × W

/-- A request, and the answer to it unless it was dropped before there was one. -/
structure Exchange where
  request : OutboundHttpRequest
  answer : Option Answer

structure Traffic (W : Type) where
  world : W
  exchanges : List Exchange

namespace Traffic
variable {W A : Type} (traffic : Traffic W)

/-- Something happens that is no exchange. -/
def step (effect : W → A × W) : A × Traffic W :=
  ((effect traffic.world).1, { traffic with world := (effect traffic.world).2 })

/-- An exchange, and what it gives. -/
def exchange (request : OutboundHttpRequest) (effect : W → Option Answer × W) :
    Option Answer × Traffic W :=
  ((effect traffic.world).1,
    { world := (effect traffic.world).2
      exchanges := traffic.exchanges ++ [⟨request, (effect traffic.world).1⟩] })

@[simp]
theorem exchanges_step (effect : W → A × W) :
    (traffic.step effect).2.exchanges = traffic.exchanges := rfl

@[simp]
theorem exchanges_exchange (request : OutboundHttpRequest) (effect : W → Option Answer × W) :
    (traffic.exchange request effect).2.exchanges =
      traffic.exchanges ++ [⟨request, (traffic.exchange request effect).1⟩] := rfl

end Traffic

/-- `send`, with or without a token it is raced against. -/
def Outside.sendOr {W : Type} (outside : Outside W) (request : OutboundHttpRequest) :
    Option CancellationToken → W → Option Answer × W
  | none, world => ((outside.send request world).map some id)
  | some token, world => outside.sendUnlessCancelled token request world

end RustMcpCore.Outbound
