import RustMcpCore.Config.Root
import RustMcpCore.Errors

/-! # Pages of a list -/
namespace RustMcpCore
open Library

/-- The standard alphabet of the `base64` crate, on the bytes of text. Text that decodes
to no UTF-8 decodes to nothing. -/
structure Base64 where
  encode : String → String
  decode : String → Option String

section Cursors
variable (base64 : Base64)

def encodePaginationCursor (offset : ℕ) : String := base64.encode s!"v1:{offset}"

def decodePaginationCursor (cursor : String) : Except McpError ℕ :=
  match ((base64.decode cursor).bind (Text.stripPrefix · "v1:")).bind Text.parseUsize with
  | some offset => .ok offset
  | none => .error (.invalidParams "invalid cursor" none)

/-- A cursor leads back to its offset, where that fits a machine word. -/
theorem decodePaginationCursor_encode (offset : ℕ)
    (hbase64 : ∀ text, base64.decode (base64.encode text) = some text) :
    decodePaginationCursor base64 (encodePaginationCursor base64 offset) =
      if offset < 2 ^ 64 then .ok offset else .error (.invalidParams "invalid cursor" none) := by
  have htext : s!"v1:{offset}" = "v1:" ++ toString offset := rfl
  simp only [decodePaginationCursor, encodePaginationCursor, hbase64, Option.bind_some, htext,
    Text.stripPrefix_append, Text.parseUsize_toString]
  split
  · rename_i n hn
    split at hn
    · cases hn
      rw [if_pos ‹_›]
    · cases hn
  · rename_i hnone
    split at hnone
    · cases hnone
    · rw [if_neg ‹_›]

def startOf : Option String → Except McpError ℕ
  | some cursor => decodePaginationCursor base64 cursor
  | none => .ok 0

def paginateItems {T : Type} (items : List T) (cursor : Option String) (pageSize : ℕ) :
    Except McpError (List T × Option String) := do
  let start ← startOf base64 cursor
  if items.length < start then .error (.invalidParams "invalid cursor" none)
  else
    let stop := min (start + pageSize) items.length
    let nextCursor := if stop < items.length then some (encodePaginationCursor base64 stop) else none
    return ((items.take stop).drop start, nextCursor)

/-- The page from an offset within the list on. -/
theorem paginateItems_of_start {T : Type} {items : List T} {cursor : Option String}
    {pageSize start : ℕ} (hstart : startOf base64 cursor = .ok start)
    (hwithin : start ≤ items.length) : paginateItems base64 items cursor pageSize =
      .ok ((items.take (start + pageSize)).drop start,
        if start + pageSize < items.length then
          some (encodePaginationCursor base64 (start + pageSize)) else none) := by
  rw [paginateItems, hstart]
  change (if items.length < start then _ else _) = _
  rw [if_neg (Nat.not_lt.mpr hwithin), ← List.take_eq_take_min]
  by_cases hmore : start + pageSize < items.length
  · rw [Nat.min_eq_left hmore.le]
    rfl
  · rw [Nat.min_eq_right (Nat.le_of_not_lt hmore), if_neg (lt_irrefl _), if_neg hmore]
    rfl

theorem paginateItems_eq_ok {T : Type} {items page : List T} {cursor nextCursor : Option String}
    {pageSize : ℕ} (h : paginateItems base64 items cursor pageSize = .ok (page, nextCursor)) :
    ∃ start, startOf base64 cursor = .ok start ∧ start ≤ items.length ∧
      page = (items.take (start + pageSize)).drop start ∧
      nextCursor = if start + pageSize < items.length then
        some (encodePaginationCursor base64 (start + pageSize)) else none := by
  obtain ⟨start, hstart, hpage⟩ := bind_eq_ok h
  have hwithin : start ≤ items.length := by
    by_contra hbeyond
    rw [if_pos (Nat.lt_of_not_le hbeyond)] at hpage
    cases hpage
  rw [paginateItems_of_start base64 hstart hwithin] at h
  cases h
  exact ⟨start, hstart, hwithin, rfl, rfl⟩

/-- A page, or the whole list where there are no pages. -/
def pageOf {T : Type} (items : List T) (cursor : Option String) :
    Option ℕ → Except McpError (List T × Option String)
  | some pageSize => paginateItems base64 items cursor pageSize
  | none => .ok (items, none)

/-- A page has entries of the list only. -/
theorem mem_of_pageOf {T : Type} {items page : List T} {cursor nextCursor : Option String}
    {size : Option ℕ} (h : pageOf base64 items cursor size = .ok (page, nextCursor)) {item : T}
    (hitem : item ∈ page) : item ∈ items := by
  cases size with
  | none =>
    cases h
    exact hitem
  | some pageSize =>
    obtain ⟨start, -, -, hpage, -⟩ := paginateItems_eq_ok base64 h
    rw [hpage] at hitem
    exact List.mem_of_mem_take (List.mem_of_mem_drop hitem)

end Cursors

/-- The page size of a feature, or else the global one; none for zero. -/
def pageSize (featurePagination : Option PaginationConfig) (global : McpConfig) : Option ℕ :=
  (((featurePagination.map (·.pageSize)).or (global.pagination.map (·.pageSize))).filter
    (0 < ·)).map UInt64.toNat

end RustMcpCore
