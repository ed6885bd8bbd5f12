import RustMcpCore.Engine.Pagination
import RustMcpCore.Library.Pages
import RustMcpCore.Tasks.Traversal

/-! # Following the cursors of a list

On machine words nothing overflows and no range leaves the list. A client that takes one
cursor after another has every item in the end, each once and in order.
-/
namespace RustMcpCore
open Library

/-- The items of a Rust slice, whose length a machine word holds. -/
structure Slice (T : Type) where
  items : List T
  fits : items.length < 2 ^ 64

def saturatingAdd (a b : ℕ) : ℕ := min (a + b) (2 ^ 64 - 1)

/-- The items of a range, or nothing where the code panics. -/
def rangeOf {T : Type} (items : List T) (start stop : ℕ) : Option (List T) :=
  if start ≤ stop ∧ stop ≤ items.length then some ((items.take stop).drop start) else none

/-- `paginate_items` as it runs on machine words, with nothing for a panic. -/
def paginateSlice {T : Type} (base64 : Base64) (slice : Slice T) (cursor : Option String)
    (pageSize : ℕ) : Option (Except McpError (List T × Option String)) :=
  match startOf base64 cursor with
  | .error error => some (.error error)
  | .ok start =>
    if slice.items.length < start then some (.error (.invalidParams "invalid cursor" none))
    else
      let stop := min (saturatingAdd start pageSize) slice.items.length
      let nextCursor :=
        if stop < slice.items.length then some (encodePaginationCursor base64 stop) else none
      (rangeOf slice.items start stop).map fun page => .ok (page, nextCursor)

/-- What a client collects from a cursor on, up to the page without one. -/
inductive Collects {T : Type} (base64 : Base64) (slice : Slice T) (pageSize : ℕ) :
    Option String → List (List T) → Prop
  | last {cursor : Option String} {page : List T}
      (answer : paginateSlice base64 slice cursor pageSize = some (.ok (page, none))) :
      Collects base64 slice pageSize cursor [page]
  | next {cursor : Option String} {page : List T} {nextCursor : String} {pages : List (List T)}
      (answer : paginateSlice base64 slice cursor pageSize = some (.ok (page, some nextCursor)))
      (more : Collects base64 slice pageSize (some nextCursor) pages) :
      Collects base64 slice pageSize cursor (page :: pages)

variable {T : Type} {base64 : Base64} {slice : Slice T} {cursor : Option String} {pageSize : ℕ}

/-- Nothing panics, and what saturates is cut at the end of the list anyway. -/
theorem paginateSlice_eq : paginateSlice base64 slice cursor pageSize =
    some (paginateItems base64 slice.items cursor pageSize) := by
  unfold paginateSlice paginateItems
  cases hstart : startOf base64 cursor with
  | error error => rfl
  | ok start =>
    change (if slice.items.length < start then _ else _) =
      some (if slice.items.length < start then _ else _)
    split
    · rfl
    · rename_i hwithin
      have hfits := slice.fits
      have hstop : min (saturatingAdd start pageSize) slice.items.length =
          min (start + pageSize) slice.items.length := by
        unfold saturatingAdd
        omega
      have hrange : start ≤ min (start + pageSize) slice.items.length ∧
          min (start + pageSize) slice.items.length ≤ slice.items.length := by omega
      rw [hstop]
      simp only [rangeOf, if_pos hrange, Option.map_some]
      rfl

/-- The answer is a page from its offset on, or the cursor is invalid. -/
theorem paginateItems_cases (items : List T) :
    paginateItems base64 items cursor pageSize = .error (.invalidParams "invalid cursor" none) ∨
      ∃ page nextCursor, paginateItems base64 items cursor pageSize = .ok (page, nextCursor) := by
  unfold paginateItems
  cases hstart : startOf base64 cursor with
  | error error =>
    cases cursor with
    | none => cases hstart
    | some cursor =>
      rw [startOf, decodePaginationCursor] at hstart
      split at hstart
      · cases hstart
      · cases hstart
        exact .inl rfl
  | ok start =>
    by_cases hwithin : items.length < start
    · exact .inl (if_pos hwithin)
    · exact .inr ⟨_, _, if_neg hwithin⟩

theorem page_within {items page : List T} {nextCursor : Option String}
    (h : paginateItems base64 items cursor pageSize = .ok (page, nextCursor)) :
    page <:+: items ∧ page.length ≤ pageSize := by
  obtain ⟨start, -, -, rfl, -⟩ := paginateItems_eq_ok base64 h
  constructor
  · exact (List.drop_suffix _ _).isInfix.trans (List.take_prefix _ _).isInfix
  · rw [List.length_drop, List.length_take]
    omega

/-! ## A whole list -/

section Whole
variable (hbase64 : ∀ text, base64.decode (base64.encode text) = some text) {start : ℕ}
  {pages : List (List T)}

include hbase64 in
theorem startOf_next (hmore : start + pageSize < slice.items.length) :
    startOf base64 (some (encodePaginationCursor base64 (start + pageSize))) =
      .ok (start + pageSize) := by
  rw [startOf, decodePaginationCursor_encode base64 _ hbase64,
    if_pos (hmore.trans slice.fits)]

include hbase64 in
/-- The client reads the pages of a list that stays the same. -/
theorem Collects.paging (h : Collects base64 slice pageSize cursor pages)
    (hstart : startOf base64 cursor = .ok start) :
    ∃ count, Paging pageSize start (List.replicate count slice.items) pages := by
  induction h generalizing start with
  | last answer =>
    rw [paginateSlice_eq] at answer
    obtain ⟨found, hfound, hwithin, rfl, hnext⟩ := paginateItems_eq_ok base64 (Option.some.inj answer)
    cases hstart.symm.trans hfound
    have hends : slice.items.length ≤ start + pageSize := by
      by_contra hmore
      rw [if_pos (Nat.lt_of_not_le hmore)] at hnext
      cases hnext
    rw [List.take_of_length_le hends]
    exact ⟨1, .last hwithin hends⟩
  | next answer _ ih =>
    rw [paginateSlice_eq] at answer
    obtain ⟨found, hfound, hwithin, rfl, hnext⟩ := paginateItems_eq_ok base64 (Option.some.inj answer)
    cases hstart.symm.trans hfound
    split at hnext
    · rename_i hmore
      cases hnext
      obtain ⟨count, hpaging⟩ := ih (startOf_next hbase64 hmore)
      exact ⟨count + 1, .next hmore hpaging⟩
    · cases hnext

include hbase64 in
theorem collects_of_paging {lists : List (List T)} (h : Paging pageSize start lists pages)
    (hsame : ∀ items ∈ lists, items = slice.items) (hstart : startOf base64 cursor = .ok start) :
    Collects base64 slice pageSize cursor pages := by
  induction h generalizing cursor with
  | @last start items within ends =>
    have hitems := hsame items List.mem_cons_self
    rw [hitems] at within ends ⊢
    have hpage := @paginateItems_of_start base64 T slice.items cursor pageSize start hstart within
    rw [if_neg (Nat.not_lt.mpr ends), List.take_of_length_le ends] at hpage
    exact .last (by rw [paginateSlice_eq, hpage])
  | @next start items lists pages more rest ih =>
    obtain ⟨hitems, hrest⟩ := List.forall_mem_cons.mp hsame
    rw [hitems] at more ⊢
    have hwithin : start ≤ slice.items.length := by omega
    have hpage := @paginateItems_of_start base64 T slice.items cursor pageSize start hstart hwithin
    rw [if_pos more] at hpage
    exact .next (by rw [paginateSlice_eq, hpage]) (ih hrest (startOf_next hbase64 more))

end Whole

/-- Every cursor is answered, the cursors lead through the whole list, and the offset of a
cursor is the one it was made of. -/
theorem pagination_exact {T : Type} {base64 : Base64}
    (hbase64 : ∀ text, base64.decode (base64.encode text) = some text) (slice : Slice T)
    {pageSize : ℕ} (hsize : 0 < pageSize) :
    (∀ cursor, paginateSlice base64 slice cursor pageSize =
        some (.error (.invalidParams "invalid cursor" none)) ∨
      ∃ page nextCursor,
        paginateSlice base64 slice cursor pageSize = some (.ok (page, nextCursor)) ∧
        page <:+: slice.items ∧ page.length ≤ pageSize) ∧
    (∃ pages, Collects base64 slice pageSize none pages) ∧
    (∀ pages, Collects base64 slice pageSize none pages →
      (∀ page ∈ pages.dropLast, page.length = pageSize) ∧ pages.flatten = slice.items) ∧
    ∀ offset : UInt64,
      decodePaginationCursor base64 (encodePaginationCursor base64 offset.toNat) =
        .ok offset.toNat := by
  refine ⟨fun cursor => ?_, ?_, fun pages h => ?_, fun offset => ?_⟩
  · rw [paginateSlice_eq]
    rcases paginateItems_cases slice.items with herror | ⟨page, nextCursor, hpage⟩
    · exact .inl (congrArg some herror)
    · exact .inr ⟨page, nextCursor, congrArg some hpage, page_within hpage⟩
  · obtain ⟨count, pages, hpaging⟩ := Paging.exists_of_pos hsize (Nat.zero_le slice.items.length)
    exact ⟨pages, collects_of_paging hbase64 hpaging
      (fun items hitems => List.eq_of_mem_replicate hitems) rfl⟩
  · obtain ⟨count, hpaging⟩ := h.paging hbase64 rfl
    refine ⟨fun page hpage => hpaging.length_eq_of_mem_dropLast hpage, ?_⟩
    exact hpaging.flatten_of_same fun items hitems => List.eq_of_mem_replicate hitems
  · rw [decodePaginationCursor_encode base64 _ hbase64, if_pos offset.toNat_lt]

theorem pagination_exact_two :
    ∃ pages, Collects TaskStore.sampleBase64 ⟨["a", "b"], by decide⟩ 1 none pages :=
  (pagination_exact TaskStore.sampleBase64_decode ⟨["a", "b"], by decide⟩ Nat.one_pos).2.1

end RustMcpCore
