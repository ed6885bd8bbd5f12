import RustMcpCore.Protocol

/-! # Protocol errors and tool results -/
namespace RustMcpCore

abbrev ErrorCode := Int32

namespace ErrorCode
def invalidRequest : ErrorCode := -32600
def methodNotFound : ErrorCode := -32601
def invalidParams : ErrorCode := -32602
def internalError : ErrorCode := -32603
def resourceNotFound : ErrorCode := -32002
end ErrorCode

structure McpError where
  code : ErrorCode
  message : String
  data : Option Value

namespace McpError
def invalidRequest (message : String) (data : Option Value) : McpError :=
  ⟨ErrorCode.invalidRequest, message, data⟩
/-- The message names the method. -/
def methodNotFound (method : String) : McpError := ⟨ErrorCode.methodNotFound, method, none⟩
def invalidParams (message : String) (data : Option Value) : McpError :=
  ⟨ErrorCode.invalidParams, message, data⟩
def internalError (message : String) (data : Option Value) : McpError :=
  ⟨ErrorCode.internalError, message, data⟩
def resourceNotFound (message : String) (data : Option Value) : McpError :=
  ⟨ErrorCode.resourceNotFound, message, data⟩
end McpError

structure CallToolResult where
  content : List Content
  structuredContent : Option Value
  isError : Option Bool
  metaValue : Option Map

def CallToolResult.success (content : List Content) : CallToolResult :=
  { content, structuredContent := none, isError := some false, metaValue := none }

def CallToolResult.error (content : List Content) : CallToolResult :=
  { content, structuredContent := none, isError := some true, metaValue := none }

abbrev CancellationToken := ℕ

def CANCELLED_ERROR_CODE : ErrorCode := -32000
def CANCELLED_ERROR_MESSAGE : String := "request cancelled"

def cancelledError : McpError := ⟨CANCELLED_ERROR_CODE, CANCELLED_ERROR_MESSAGE, none⟩

def cancelledToolResult : CallToolResult := .error [Content.text CANCELLED_ERROR_MESSAGE]

def toolExecutionErrorResult (message : String) : CallToolResult := .error [Content.text message]

/-- A computation that succeeds has succeeded at each `?`. -/
theorem bind_eq_ok {ε α β : Type} {x : Except ε α} {f : α → Except ε β} {b : β}
    (h : (x >>= f) = .ok b) : ∃ a, x = .ok a ∧ f a = .ok b := by
  cases x with
  | error => cases h
  | ok a => exact ⟨a, rfl, h⟩

theorem bind_eq_error {ε α β : Type} {x : Except ε α} {f : α → Except ε β} {error : ε}
    (h : (x >>= f) = .error error) : x = .error error ∨ ∃ a, x = .ok a ∧ f a = .error error := by
  cases x with
  | error =>
    cases h
    exact .inl rfl
  | ok a => exact .inr ⟨a, rfl, h⟩

theorem except_map_eq_ok {ε α β : Type} {x : Except ε α} {f : α → β} {b : β}
    (h : x.map f = .ok b) : ∃ a, x = .ok a ∧ f a = b := by
  cases x with
  | error => cases h
  | ok a => exact ⟨a, rfl, Except.ok.inj h⟩

theorem mapError_eq_ok {ε ε' α : Type} {x : Except ε α} {f : ε → ε'} {a : α} :
    x.mapError f = .ok a ↔ x = .ok a := by
  cases x with
  | error => exact iff_of_false nofun nofun
  | ok => simp only [Except.mapError, Except.ok.injEq]

theorem exists_ok_bind {ε α β : Type} {x : Except ε α} {f : α → Except ε β} :
    (∃ b, (x >>= f) = .ok b) ↔ ∃ a, x = .ok a ∧ ∃ b, f a = .ok b := by
  constructor
  · rintro ⟨b, h⟩
    obtain ⟨a, ha, hb⟩ := bind_eq_ok h
    exact ⟨a, ha, b, hb⟩
  · rintro ⟨a, rfl, b, hb⟩
    exact ⟨b, hb⟩

theorem exists_ok_map {ε α β : Type} {x : Except ε α} {f : α → β} :
    (∃ b, x.map f = .ok b) ↔ ∃ a, x = .ok a := by
  cases x with
  | error => exact iff_of_false (fun ⟨_, h⟩ => by cases h) fun ⟨_, h⟩ => by cases h
  | ok a => exact iff_of_true ⟨_, rfl⟩ ⟨a, rfl⟩

theorem exists_ok_pure {ε α : Type} {a : α} : (∃ b, (pure a : Except ε α) = .ok b) ↔ True :=
  iff_true_intro ⟨a, rfl⟩

/-- A traversal succeeds if every step does. -/
theorem exists_ok_mapM {ε α β : Type} {f : α → Except ε β} {given : List α} :
    (∃ results, given.mapM f = .ok results) ↔ ∀ x ∈ given, ∃ result, f x = .ok result := by
  induction given with
  | nil => exact iff_of_true ⟨[], rfl⟩ (List.forall_mem_nil _)
  | cons first rest ih =>
    rw [List.mapM_cons, exists_ok_bind, List.forall_mem_cons, ← ih]
    constructor
    · rintro ⟨head, hhead, results, hresults⟩
      obtain ⟨tail, htail, _⟩ := bind_eq_ok hresults
      exact ⟨⟨head, hhead⟩, tail, htail⟩
    · rintro ⟨⟨head, hhead⟩, tail, htail⟩
      exact ⟨head, hhead, head :: tail, by rw [htail]; rfl⟩

theorem mem_of_mapM {ε α β : Type} {f : α → Except ε β} {given : List α} {results : List β}
    (h : given.mapM f = .ok results) {result : β} (hresult : result ∈ results) :
    ∃ x ∈ given, f x = .ok result := by
  induction given generalizing results with
  | nil =>
    cases h
    cases hresult
  | cons first rest ih =>
    rw [List.mapM_cons] at h
    obtain ⟨head, hhead, h⟩ := bind_eq_ok h
    obtain ⟨tail, htail, h⟩ := bind_eq_ok h
    cases h
    rcases List.mem_cons.mp hresult with rfl | hresult
    · exact ⟨first, List.mem_cons_self, hhead⟩
    · obtain ⟨x, hx, hfx⟩ := ih htail hresult
      exact ⟨x, List.mem_cons_of_mem _ hx, hfx⟩

theorem exists_error_of_mapM {E A B : Type} {f : A → Except E B} {given : List A} {error : E}
    (h : given.mapM f = .error error) : ∃ a ∈ given, f a = .error error := by
  induction given with
  | nil => cases h
  | cons first rest ih =>
    rw [List.mapM_cons] at h
    rcases bind_eq_error h with hfirst | ⟨head, -, h⟩
    · exact ⟨first, List.mem_cons_self, hfirst⟩
    · rcases bind_eq_error h with hrest | ⟨tail, -, h⟩
      · obtain ⟨a, ha, hfa⟩ := ih hrest
        exact ⟨a, List.mem_cons_of_mem _ ha, hfa⟩
      · cases h

/-- A loop of checks passes if and only if every check passes. -/
theorem forM_eq_ok {ε α : Type} {f : α → Except ε Unit} {given : List α} :
    given.forM f = .ok () ↔ ∀ x ∈ given, f x = .ok () := by
  induction given with
  | nil => exact iff_of_true rfl (List.forall_mem_nil _)
  | cons first rest ih =>
    rw [List.forall_mem_cons, ← ih]
    change (f first >>= fun _ => rest.forM f) = _ ↔ _
    cases f first with
    | error error => exact iff_of_false (fun h => by cases h) fun h => by cases h.1
    | ok _ => exact ⟨fun h => ⟨rfl, h⟩, fun h => h.2⟩

end RustMcpCore
