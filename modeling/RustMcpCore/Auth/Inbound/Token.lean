import RustMcpCore.Config.Auth
import RustMcpCore.Library.Text
import RustMcpCore.Json

/-! # Bearer tokens

What the server reads off a token itself, and the part of the crate
`jsonwebtoken` that it relies on for the rest. The crate is a parameter; what is
assumed of it is stated once, in `JwtLibrary.NamesAlgorithms` and
`JwtLibrary.Documented`.
-/
namespace RustMcpCore
open Library

/-! ## The request -/

/-- Header names in lower case, in the order of the map, with the raw values. -/
abbrev HeaderMap := List (String × List UInt8)

/-- `HeaderValue::to_str`: visible ASCII and tabs only. -/
def headerToStr (value : List UInt8) : Option String :=
  if value.all fun b => b = 9 || (32 ≤ b && b < 127) then
    some (.ofList (value.map fun b => .ofNat b.toNat))
  else none

def extractBearerToken (headers : HeaderMap) : Option String :=
  ((((headers.lookup "authorization").bind headerToStr).bind
    (Text.stripPrefix · "Bearer ")).map Text.trim).filter (· ≠ "")

def tokenLooksLikeJwt (token : String) : Bool := (Text.split token '.').length = 3

/-! ## The token library -/

variable {Alg Jwk Key : Type}

structure Header (Alg : Type) where
  alg : Alg
  kid : Option String

structure Validation (Alg : Type) where
  algorithms : List Alg
  leeway : UInt64
  iss : Option (List String)
  aud : Option (List String)
  validateAud : Bool

def Validation.new (alg : Alg) : Validation Alg where
  algorithms := [alg]
  leeway := 60
  iss := none
  aud := none
  validateAud := true

structure JwtLibrary (Alg Jwk Key : Type) where
  /-- The name of an algorithm in a token header. -/
  algName : Alg → String
  /-- `str::parse`. -/
  parseAlgorithm : String → Option Alg
  keyId : Jwk → Option String
  decodeHeader : String → Option (Header Alg)
  fromJwk : Jwk → Option Key
  decode : String → Key → Validation Alg → Option Value
  /-- Base64 without padding, then JSON. -/
  decodeSegment : String → Option Value

abbrev JwkSet (Jwk : Type) := List Jwk

def decodeJwtClaims (lib : JwtLibrary Alg Jwk Key) (token : String) : Option Value :=
  match Text.split token '.' with
  | [_, payload, _] => lib.decodeSegment payload
  | _ => none

def selectJwk (lib : JwtLibrary Alg Jwk Key) (jwks : JwkSet Jwk) (kid : Option String) :
    Option Jwk :=
  match kid with
  | some kid => jwks.find? fun jwk => lib.keyId jwk = some kid
  | none => jwks.head?

def parseAlgorithms (lib : JwtLibrary Alg Jwk Key) (config : AuthProviderConfig) : List Alg :=
  if config.algorithms.isEmpty then [] else config.algorithms.filterMap lib.parseAlgorithm

/-- The texts a claim names: itself, or the strings among its elements. -/
def Value.names : Value → List String
  | .string s => [s]
  | .array items => Value.strings items
  | _ => []

/-- The texts of a claim in the one shape the crate reads: a string, or an array of
strings and nothing else. -/
def Value.asTexts : Value → Option (List String)
  | .string s => some [s]
  | .array items => if items.all (·.asStr.isSome) then some (Value.strings items) else none
  | _ => none

theorem Value.names_of_asTexts {value : Value} {texts : List String}
    (h : value.asTexts = some texts) : value.names = texts := by
  cases value with
  | string s => exact Option.some.inj h
  | array items => exact Option.some.inj (Option.ite_none_right_eq_some.mp h).2
  | null | bool | number | object => cases h

/-- The rule of the crate for `iss` and for `aud` against a configured set: a claim
shares an element with it. One that is absent or that the crate cannot read passes. -/
def sharesElement (claim : Option Value) (set : List String) : Bool :=
  match claim.bind Value.asTexts with
  | none => true
  | some texts => texts.any set.contains

/-- `aud` also fails when it can be read and no set is configured. -/
def audAccepted (claim : Option Value) : Option (List String) → Bool
  | none => (claim.bind Value.asTexts).isNone
  | some set => sharesElement claim set

def issAccepted (claim : Option Value) : Option (List String) → Bool
  | none => true
  | some set => sharesElement claim set

namespace JwtLibrary
variable (lib : JwtLibrary Alg Jwk Key)

/-- How the crate treats algorithms. -/
structure NamesAlgorithms : Prop where
  /-- An algorithm parses from its name, and from nothing else. -/
  parse_iff : ∀ name alg, lib.parseAlgorithm name = some alg ↔ lib.algName alg = name
  /-- The algorithm of the header is one of the allowed ones. -/
  decode_alg : ∀ token key v claims header, lib.decode token key v = some claims →
    lib.decodeHeader token = some header → header.alg ∈ v.algorithms

/-- How the crate treats the claims of a token. -/
structure Documented : Prop where
  /-- Decoded claims are the payload of the token. -/
  decode_claims : ∀ token key v claims, lib.decode token key v = some claims →
    decodeJwtClaims lib token = some claims
  /-- The audience is a check of its own, and can be turned off. -/
  decode_aud : ∀ token key v claims, v.validateAud = true →
    (lib.decode token key v = some claims ↔
      lib.decode token key { v with validateAud := false } = some claims ∧
        audAccepted (claims.get "aud") v.aud = true)
  /-- So is the issuer. -/
  decode_iss : ∀ token key v claims, lib.decode token key v = some claims ↔
    lib.decode token key { v with iss := none } = some claims ∧
      issAccepted (claims.get "iss") v.iss = true

end JwtLibrary
end RustMcpCore
