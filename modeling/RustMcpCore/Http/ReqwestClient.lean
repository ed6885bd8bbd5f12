import RustMcpCore.Http.Client
import RustMcpCore.Library.Text
import RustMcpCore.Library.Utf8

/-! # The default HTTP client

`ReqwestHttpClient` hands a request to `reqwest` and reads the body of the response chunk by
chunk, up to a limit.
-/
namespace RustMcpCore.Outbound
open Library

inductive WireBody
  | empty
  | json (value : Value)
  | form (bytes : List UInt8)

/-- What the builder of `reqwest` is given. -/
structure WireRequest (Method : Type) where
  method : Method
  url : String
  query : List (String × String)
  headers : List (String × String)
  timeoutMs : Option UInt64
  basicAuth : Option (String × Option String)
  body : WireBody

/-- The chunks of the body come until it ends, or one cannot be read. -/
structure WireResponse where
  status : UInt16
  chunks : List (Except String (List UInt8))

structure Reqwest (Method W : Type) where
  usizeMax : ℕ
  /-- `Method::from_bytes`. -/
  fromBytes : String → Except String Method
  send : WireRequest Method → W → Except String WireResponse × W

def DEFAULT_MAX_RESPONSE_BYTES : ℕ := 1048576

/-- `RequestBuilder::form`. -/
def WireBody.ofForm (formBody : List (String × String)) : WireBody :=
  .form (FormUrlencoded.serialize Utf8.encoding formBody)

namespace ReqwestHttpClient
variable {Method W : Type} (lib : Reqwest Method W)

def effectiveMaxResponseBytes (request : OutboundHttpRequest) : Except McpError ℕ :=
  match request.maxResponseBytes with
  | some limit =>
    if limit.toNat ≤ lib.usizeMax then .ok limit.toNat
    else .error (.invalidRequest "max_response_bytes is too large for this platform" none)
  | none => .ok DEFAULT_MAX_RESPONSE_BYTES

def rejectTwoBodies (request : OutboundHttpRequest) : Except McpError Unit :=
  if request.jsonBody.isSome && !request.formBody.isEmpty then
    .error (.invalidRequest "outbound request cannot use json and form body together" none)
  else .ok ()

def bodyOf (request : OutboundHttpRequest) : WireBody :=
  match request.jsonBody with
  | some body => .json body
  | none => if request.formBody.isEmpty then .empty else .ofForm request.formBody

/-- The request that is sent, and the limit for its response. -/
def prepare (request : OutboundHttpRequest) : Except McpError (WireRequest Method × ℕ) := do
  let maxResponseBytes ← effectiveMaxResponseBytes lib request
  rejectTwoBodies request
  let method ←
    (lib.fromBytes (Text.trim request.method)).mapError (McpError.invalidRequest · none)
  let wire : WireRequest Method :=
    { method
      url := request.url
      query := request.query
      headers := request.headers
      timeoutMs := request.timeoutMs
      basicAuth := request.basicAuth
      body := bodyOf request }
  return (wire, maxResponseBytes)

/-- The loop over the chunks. -/
def readBody (maxResponseBytes : ℕ) (body : List UInt8) :
    List (Except String (List UInt8)) → Except McpError (List UInt8)
  | [] => .ok body
  | .error error :: _ => .error (.internalError error none)
  | .ok chunk :: rest =>
    if lib.usizeMax < body.length + chunk.length then
      .error (.internalError "response body overflow" none)
    else if maxResponseBytes < body.length + chunk.length then
      .error (.internalError
        "outbound response body exceeds configured max_response_bytes" none)
    else readBody maxResponseBytes (body ++ chunk) rest

def send (request : OutboundHttpRequest) (world : W) : Answer × W :=
  match prepare lib request with
  | .error error => (.error error, world)
  | .ok (wire, maxResponseBytes) =>
    match lib.send wire world with
    | (.error error, world) => (.error (.internalError error none), world)
    | (.ok response, world) =>
      ((readBody lib maxResponseBytes [] response.chunks).map (⟨response.status, ·⟩), world)

end ReqwestHttpClient

/-! ## What is read -/

namespace ReqwestHttpClient
variable {Method W : Type} {lib : Reqwest Method W}

/-- Chunks that all come, and are together within the limit. -/
structure Complete (lib : Reqwest Method W) (maxResponseBytes : ℕ)
    (chunks : List (Except String (List UInt8))) (body : List UInt8) : Prop where
  arrived : ∃ parts : List (List UInt8), chunks = parts.map .ok ∧ body = parts.flatten
  limit : body.length ≤ maxResponseBytes
  usize : body.length ≤ lib.usizeMax

theorem readBody_ok {maxResponseBytes : ℕ} {body result : List UInt8}
    {chunks : List (Except String (List UInt8))} (hlimit : body.length ≤ maxResponseBytes)
    (husize : body.length ≤ lib.usizeMax) :
    readBody lib maxResponseBytes body chunks = .ok result ↔
      ∃ parts : List (List UInt8), chunks = parts.map .ok ∧ result = body ++ parts.flatten ∧
        result.length ≤ maxResponseBytes ∧ result.length ≤ lib.usizeMax := by
  induction chunks generalizing body with
  | nil =>
    rw [readBody]
    constructor
    · intro h
      cases h
      exact ⟨[], rfl, (List.append_nil _).symm, hlimit, husize⟩
    · rintro ⟨parts, hparts, rfl, -⟩
      rw [List.map_eq_nil_iff.mp hparts.symm, List.flatten_nil, List.append_nil]
  | cons chunk rest ih =>
    cases chunk with
    | error error =>
      rw [readBody]
      refine iff_of_false (fun h => by cases h) ?_
      rintro ⟨parts, hparts, -⟩
      cases parts with
      | nil => cases hparts
      | cons part parts => cases hparts
    | ok chunk =>
      have hparts : (∃ parts : List (List UInt8), .ok chunk :: rest = parts.map Except.ok ∧
          result = body ++ parts.flatten ∧ result.length ≤ maxResponseBytes ∧
          result.length ≤ lib.usizeMax) ↔
          ∃ parts : List (List UInt8), rest = parts.map Except.ok ∧
            result = (body ++ chunk) ++ parts.flatten ∧ result.length ≤ maxResponseBytes ∧
            result.length ≤ lib.usizeMax := by
        constructor
        · rintro ⟨parts, hparts, hresult⟩
          cases parts with
          | nil => cases hparts
          | cons part parts =>
            obtain ⟨hpart, hrest⟩ := List.cons.inj hparts
            cases hpart
            rw [List.flatten_cons, ← List.append_assoc] at hresult
            exact ⟨parts, hrest, hresult⟩
        · rintro ⟨parts, rfl, hresult⟩
          refine ⟨chunk :: parts, rfl, ?_⟩
          rw [List.flatten_cons, ← List.append_assoc]
          exact hresult
      have hlength : (body ++ chunk).length = body.length + chunk.length := List.length_append
      rw [readBody, hparts]
      by_cases hfits : body.length + chunk.length ≤ lib.usizeMax ∧
          body.length + chunk.length ≤ maxResponseBytes
      · rw [if_neg (by omega), if_neg (by omega)]
        exact ih (by omega) (by omega)
      · refine iff_of_false ?_ ?_
        · split
          · intro h
            cases h
          · split
            · intro h
              cases h
            · omega
        · rintro ⟨parts, -, hresult, hle, hle'⟩
          have hlonger : result.length = body.length + chunk.length + parts.flatten.length := by
            rw [hresult, List.length_append, hlength]
          omega

theorem readBody_complete {maxResponseBytes : ℕ} {chunks : List (Except String (List UInt8))}
    {body : List UInt8} : readBody lib maxResponseBytes [] chunks = .ok body ↔
      Complete lib maxResponseBytes chunks body := by
  rw [readBody_ok (Nat.zero_le _) (Nat.zero_le _)]
  constructor
  · rintro ⟨parts, hchunks, hbody, hlimit, husize⟩
    exact ⟨⟨parts, hchunks, hbody⟩, hlimit, husize⟩
  · rintro ⟨⟨parts, hchunks, hbody⟩, hlimit, husize⟩
    exact ⟨parts, hchunks, hbody, hlimit, husize⟩

/-- A response is given back if and only if the request could be sent and every byte of its body
has come within the limit; and then it has all of them, however they were cut into chunks. -/
theorem send_answers {request : OutboundHttpRequest} {world after : W}
    {response : OutboundHttpResponse} :
    send lib request world = (.ok response, after) ↔ ∃ wire maxResponseBytes chunks,
      prepare lib request = .ok (wire, maxResponseBytes) ∧
      lib.send wire world = (.ok ⟨response.status, chunks⟩, after) ∧
      Complete lib maxResponseBytes chunks response.body := by
  unfold send
  cases hprepare : prepare lib request with
  | error error =>
    refine iff_of_false (fun h => by cases h) ?_
    rintro ⟨_, _, _, heq, -⟩
    cases heq
  | ok prepared =>
    obtain ⟨wire, maxResponseBytes⟩ := prepared
    cases hsend : lib.send wire world with
    | mk sent sentWorld =>
      cases sent with
      | error error =>
        dsimp only
        rw [hsend]
        refine iff_of_false (fun h => by cases h) ?_
        rintro ⟨wire', limit', chunks, heq, hsent, -⟩
        cases heq
        rw [hsend] at hsent
        cases hsent
      | ok given =>
        dsimp only
        rw [hsend]
        constructor
        · intro h
          obtain ⟨hread, hworld⟩ := Prod.mk.inj h
          obtain ⟨body, hbody, hresponse⟩ := except_map_eq_ok hread
          cases hresponse
          subst hworld
          exact ⟨wire, maxResponseBytes, given.chunks, rfl, hsend, readBody_complete.mp hbody⟩
        · rintro ⟨wire', limit', chunks, heq, hsent, hcomplete⟩
          cases heq
          rw [hsend] at hsent
          cases hsent
          dsimp only
          rw [readBody_complete.mpr hcomplete]
          rfl

end ReqwestHttpClient

end RustMcpCore.Outbound
