import RustMcpCore.Auth.Inbound.Token

/-! # Claims against the configured requirements -/
namespace RustMcpCore
open Library

def claimsMatchRequired (claims : Value) (required : HashMap String String) : Bool :=
  required.entries.all fun entry =>
    match claims.get entry.1 with
    | some (.string actual) => actual = entry.2
    | _ => false

/-- Scopes come as one space-separated text or as an array. -/
def providedScopes (claims : Value) : List String :=
  match claims.get "scope" with
  | some (.string scopes) => Text.splitWhitespace scopes
  | some (.array items) => Value.strings items
  | _ => []

def scopesMatchRequired (claims : Value) (required : List String) : Bool :=
  required.all (providedScopes claims).contains

def providedAudiences (claims : Value) : List String :=
  match claims.get "aud" with
  | some (.string value) => [value]
  | some (.array items) => Value.strings items
  | _ => []

def audiencesMatchRequired (claims : Value) (required : List String) : Bool :=
  required.all (providedAudiences claims).contains

theorem claimsMatchRequired_congr {claims claims' : Value} {required : HashMap String String}
    (h : ∀ key ∈ required, claims'.get key = claims.get key) :
    claimsMatchRequired claims' required = claimsMatchRequired claims required := by
  rw [Bool.eq_iff_iff]
  simp only [claimsMatchRequired, List.all_eq_true]
  refine forall₂_congr ?_
  intro entry he
  rw [h entry.1 (List.mem_keys_of_mem he)]

theorem scopesMatchRequired_congr {claims claims' : Value} {required : List String}
    (h : claims'.get "scope" = claims.get "scope") :
    scopesMatchRequired claims' required = scopesMatchRequired claims required := by
  simp only [scopesMatchRequired, providedScopes, h]

theorem providedAudiences_eq (claims : Value) :
    providedAudiences claims = ((claims.get "aud").map Value.names).getD [] := by
  unfold providedAudiences
  rcases claims.get "aud" with _ | (_ | _ | _ | _ | _ | _) <;> rfl

end RustMcpCore
