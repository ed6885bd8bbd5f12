import RustMcpCore.Auth.Inbound.Token
import RustMcpCore.Http.ReqwestClient

/-! # From `oauth2` to the HTTP client

The `oauth2` crate writes its requests as bytes. The bridge reads the form back out of the body
and hands it to the HTTP client, which writes it once more. What the token endpoint reads is what
was meant for it, but for a client id that is empty.
-/
namespace RustMcpCore.Outbound
open Library

structure OauthHttpRequest where
  method : String
  uri : String
  headers : List (String × List UInt8)
  body : List UInt8

structure OauthHttpResponse where
  status : UInt16
  body : List UInt8

structure OauthRequestOptions where
  timeoutMs : Option UInt64
  maxResponseBytes : Option UInt64

/-- The text of a `ToStrError`. -/
def TO_STR_ERROR : String := "failed to convert header to a str"

def bridgeHeader (header : String × List UInt8) : Except String (String × String) :=
  match headerToStr header.2 with
  | some value => .ok (header.1, value)
  | none => .error s!"oauth2 bridge does not support non-utf8 header value: {TO_STR_ERROR}"

def isForwarded (pair : String × String) : Bool := !(pair.1 = "client_id" && pair.2.isEmpty)

/-- What a form in bytes says. -/
def formOf (body : List UInt8) : List (String × String) :=
  FormUrlencoded.parse Utf8.encoding body

def bridgeRequest (request : OauthHttpRequest) (options : OauthRequestOptions) :
    Except String OutboundHttpRequest := do
  let headers ← request.headers.mapM bridgeHeader
  return { method := request.method
           url := request.uri
           headers
           timeoutMs := options.timeoutMs
           maxResponseBytes := options.maxResponseBytes
           formBody := (formOf request.body).filter isForwarded }

/-- `StatusCode::from_u16`. -/
def statusCodeFromU16 (status : UInt16) : Except String UInt16 :=
  if 100 ≤ status ∧ status < 1000 then .ok status else .error "invalid status code"

def bridgeResponse (response : OutboundHttpResponse) : Except String OauthHttpResponse := do
  let status ← (statusCodeFromU16 response.status).mapError fun error =>
    s!"failed to map outbound status code to oauth2 response: {error}"
  return { status, body := response.body }

def sendOauthRequestWithOptions {W : Type} (client : OutboundHttpRequest → W → Answer × W)
    (request : OauthHttpRequest) (options : OauthRequestOptions) (world : W) :
    Except String OauthHttpResponse × W :=
  match bridgeRequest request options with
  | .error error => (.error error, world)
  | .ok outbound =>
    match client outbound world with
    | (.error error, world) => (.error error.message, world)
    | (.ok response, world) => (bridgeResponse response, world)

/-! ## What arrives -/

/-- The bytes of a body that is a form, or nothing. -/
def WireBody.formBytes : WireBody → Option (List UInt8)
  | .empty => some []
  | .json _ => none
  | .form bytes => some bytes

section Bridge
variable {Method W : Type} (lib : Reqwest Method W) (request : OauthHttpRequest)
  (options : OauthRequestOptions)

/-- The request of the `oauth2` crate as it should arrive. -/
structure Bridged (wire : WireRequest Method) : Prop where
  method : lib.fromBytes (Text.trim request.method) = .ok wire.method
  url : wire.url = request.uri
  query : wire.query = []
  headers : wire.headers.map (fun header => (header.1, some header.2)) =
    request.headers.map fun header => (header.1, headerToStr header.2)
  timeout : wire.timeoutMs = options.timeoutMs
  basicAuth : wire.basicAuth = none
  /-- Another reading of the body gives the same pairs, and a body that `oauth2` has written is
  written again byte by byte. -/
  body : ∃ bytes, wire.body.formBytes = some bytes ∧
    formOf bytes = (formOf request.body).filter isForwarded ∧
    ∀ form, request.body = FormUrlencoded.serialize Utf8.encoding form →
      bytes = FormUrlencoded.serialize Utf8.encoding (form.filter isForwarded)

variable {lib request options}

theorem formOf_serialize (form : List (String × String)) :
    formOf (FormUrlencoded.serialize Utf8.encoding form) = form :=
  FormUrlencoded.parse_serialize Utf8.encoding form

theorem formBytes_ofForm (form : List (String × String)) :
    (if form.isEmpty then WireBody.empty else .ofForm form).formBytes =
      some (FormUrlencoded.serialize Utf8.encoding form) := by
  cases form with
  | nil => rfl
  | cons pair rest => rfl

theorem bridgeHeaders_ok {headers : List (String × List UInt8)} {bridged : List (String × String)}
    (h : headers.mapM bridgeHeader = .ok bridged) :
    bridged.map (fun header => (header.1, some header.2)) =
      headers.map fun header => (header.1, headerToStr header.2) := by
  induction headers generalizing bridged with
  | nil =>
    cases h
    rfl
  | cons header rest ih =>
    rw [List.mapM_cons] at h
    obtain ⟨first, hfirst, h⟩ := bind_eq_ok h
    obtain ⟨others, hothers, h⟩ := bind_eq_ok h
    cases h
    unfold bridgeHeader at hfirst
    cases hvalue : headerToStr header.2 with
    | none =>
      rw [hvalue] at hfirst
      cases hfirst
    | some value =>
      rw [hvalue] at hfirst
      cases hfirst
      rw [List.map_cons, List.map_cons, ih hothers, hvalue]

theorem prepare_bridged {outbound : OutboundHttpRequest} {wire : WireRequest Method} {limit : ℕ}
    (hbridge : bridgeRequest request options = .ok outbound)
    (hprepare : ReqwestHttpClient.prepare lib outbound = .ok (wire, limit)) :
    Bridged lib request options wire ∧
      limit = (options.maxResponseBytes.map UInt64.toNat).getD DEFAULT_MAX_RESPONSE_BYTES := by
  obtain ⟨headers, hheaders, hbridge⟩ := bind_eq_ok hbridge
  cases hbridge
  obtain ⟨found, hlimit, hprepare⟩ := bind_eq_ok hprepare
  obtain ⟨_, -, hprepare⟩ := bind_eq_ok hprepare
  obtain ⟨method, hmethod, hprepare⟩ := bind_eq_ok hprepare
  cases hprepare
  refine ⟨⟨mapError_eq_ok.mp hmethod, rfl, rfl, bridgeHeaders_ok hheaders, rfl, rfl, ?_⟩, ?_⟩
  · refine ⟨_, formBytes_ofForm _, formOf_serialize _, fun form hform => ?_⟩
    rw [hform, formOf_serialize]
  · unfold ReqwestHttpClient.effectiveMaxResponseBytes at hlimit
    cases hmax : options.maxResponseBytes with
    | none =>
      simp only [hmax] at hlimit
      cases hlimit
      rfl
    | some max =>
      simp only [hmax] at hlimit
      split at hlimit
      · cases hlimit
        rfl
      · cases hlimit

theorem send_world (world : W) {outbound : OutboundHttpRequest} {wire : WireRequest Method} {limit : ℕ}
    (hprepare : ReqwestHttpClient.prepare lib outbound = .ok (wire, limit)) :
    (ReqwestHttpClient.send lib outbound world).2 = (lib.send wire world).2 := by
  rw [ReqwestHttpClient.send, hprepare]
  dsimp only
  cases lib.send wire world with
  | mk sent after =>
    cases sent with
    | error error => rfl
    | ok response => rfl

theorem bridgeResponse_ok {given : OutboundHttpResponse} {response : OauthHttpResponse}
    (h : bridgeResponse given = .ok response) :
    response.status = given.status ∧ response.body = given.body := by
  obtain ⟨status, hstatus, h⟩ := bind_eq_ok h
  cases h
  have hstatus := mapError_eq_ok.mp hstatus
  unfold statusCodeFromU16 at hstatus
  split at hstatus
  · cases hstatus
    exact ⟨rfl, rfl⟩
  · cases hstatus

/-- Either nothing is sent, or one request is sent that says what the `oauth2` crate meant, and a
response that comes back is whole and within the limit. -/
theorem oauth_exchange_bridged (world : W) :
    (∃ error, sendOauthRequestWithOptions (ReqwestHttpClient.send lib) request options world =
      (.error error, world)) ∨
    ∃ wire, Bridged lib request options wire ∧
      (sendOauthRequestWithOptions (ReqwestHttpClient.send lib) request options world).2 =
        (lib.send wire world).2 ∧
      ∀ response, (sendOauthRequestWithOptions (ReqwestHttpClient.send lib) request options world).1 =
          .ok response →
        ∃ chunks, (lib.send wire world).1 = .ok ⟨response.status, chunks⟩ ∧
          ReqwestHttpClient.Complete lib
            ((options.maxResponseBytes.map UInt64.toNat).getD DEFAULT_MAX_RESPONSE_BYTES) chunks
            response.body := by
  unfold sendOauthRequestWithOptions
  cases hbridge : bridgeRequest request options with
  | error error => exact .inl ⟨error, rfl⟩
  | ok outbound =>
    dsimp only
    cases hprepare : ReqwestHttpClient.prepare lib outbound with
    | error error =>
      left
      refine ⟨error.message, ?_⟩
      rw [ReqwestHttpClient.send, hprepare]
    | ok prepared =>
      obtain ⟨wire, limit⟩ := prepared
      obtain ⟨hbridged, rfl⟩ := prepare_bridged hbridge hprepare
      refine .inr ⟨wire, hbridged, ?_⟩
      have hworld := send_world world hprepare
      cases hsent : ReqwestHttpClient.send lib outbound world with
      | mk answer after =>
        rw [hsent] at hworld
        cases answer with
        | error error => exact ⟨hworld, fun response hresponse => by cases hresponse⟩
        | ok given =>
          refine ⟨hworld, fun response hresponse => ?_⟩
          obtain ⟨hstatus, hbody⟩ := bridgeResponse_ok hresponse
          obtain ⟨wire', limit', chunks, hprepared, hsend, hcomplete⟩ :=
            ReqwestHttpClient.send_answers.mp hsent
          rw [hprepare] at hprepared
          cases hprepared
          rw [hsend, hstatus, hbody]
          exact ⟨chunks, rfl, hcomplete⟩

end Bridge

end RustMcpCore.Outbound
