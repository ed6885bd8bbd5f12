import Mathlib.Data.List.Nodup

/-! # Pages of lists that change

A reader takes one page after another, each from the list as it is then, and goes on at
the offset where the last page ended. What moves across that offset between two pages is
skipped, or read again.
-/
namespace RustMcpCore.Library
variable {α : Type*}

/-- The lists that are read from the offset on, and the pages that are taken from them. -/
inductive Paging (size : ℕ) : ℕ → List (List α) → List (List α) → Prop
  | last {start : ℕ} {xs : List α} (within : start ≤ xs.length) (ends : xs.length ≤ start + size) :
      Paging size start [xs] [xs.drop start]
  | next {start : ℕ} {xs : List α} {lists pages : List (List α)}
      (more : start + size < xs.length) (rest : Paging size (start + size) lists pages) :
      Paging size start (xs :: lists) ((xs.take (start + size)).drop start :: pages)

namespace Paging

section Same
variable {size start : ℕ} {xs : List α} {lists pages : List (List α)}

/-- The pages of a list that stays the same make up what is left of it. -/
theorem flatten_of_same (h : Paging size start lists pages) (hsame : ∀ ys ∈ lists, ys = xs) :
    pages.flatten = xs.drop start := by
  induction h with
  | last =>
    rw [hsame _ List.mem_cons_self, List.flatten_singleton]
  | @next start ys lists pages _ _ ih =>
    obtain ⟨rfl, hrest⟩ := List.forall_mem_cons.mp hsame
    rw [List.flatten_cons, ih hrest, ← List.drop_drop, List.drop_take, Nat.add_sub_cancel_left,
      List.take_append_drop]

theorem length_eq_of_mem_dropLast (h : Paging size start lists pages) {page : List α}
    (hpage : page ∈ pages.dropLast) : page.length = size := by
  induction h with
  | last => cases hpage
  | @next start ys lists pages more rest ih =>
    have hpages : pages ≠ [] := by
      rintro rfl
      cases rest
    rw [List.dropLast_cons_of_ne_nil hpages] at hpage
    rcases List.mem_cons.mp hpage with rfl | hpage
    · rw [List.length_drop, List.length_take, Nat.min_eq_left (Nat.le_of_lt more),
        Nat.add_sub_cancel_left]
    · exact ih hpage

/-- A list that stays the same has a last page. -/
theorem exists_of_pos (hsize : 0 < size) (hstart : start ≤ xs.length) :
    ∃ count pages, Paging size start (List.replicate count xs) pages := by
  induction hleft : xs.length - start using Nat.strongRecOn generalizing start with
  | _ left ih =>
    by_cases hmore : start + size < xs.length
    · obtain ⟨count, pages, hrest⟩ :=
        ih (xs.length - (start + size)) (by omega) (Nat.le_of_lt hmore) rfl
      exact ⟨count + 1, _, .next hmore hrest⟩
    · exact ⟨1, _, .last hstart (Nat.le_of_not_lt hmore)⟩

end Same

variable [DecidableEq α] (size : ℕ) (x : α)

/-- How often an element comes to stand before the next offset after it stood behind it. -/
def skips : ℕ → List (List α) → ℕ
  | start, xs :: ys :: rest =>
    (if x ∉ xs.take (start + size) ∧ x ∈ ys.take (start + size) then 1 else 0) +
      skips (start + size) (ys :: rest)
  | _, _ => 0

/-- The other way around. -/
def repeats : ℕ → List (List α) → ℕ
  | start, xs :: ys :: rest =>
    (if x ∈ xs.take (start + size) ∧ x ∉ ys.take (start + size) then 1 else 0) +
      repeats (start + size) (ys :: rest)
  | _, _ => 0

variable {size x} {start : ℕ} {lists pages : List (List α)}

theorem count_take_drop {xs : List α} (hnodup : xs.Nodup) (x : α) (start stop : ℕ) :
    ((xs.take stop).drop start).count x + (if x ∈ (xs.take stop).take start then 1 else 0) =
      if x ∈ xs.take stop then 1 else 0 := by
  have htake : (xs.take stop).Nodup := hnodup.sublist (List.take_sublist stop xs)
  have hcount : ∀ ys : List α, ys.Nodup → ys.count x = if x ∈ ys then 1 else 0 := by
    intro ys hys
    split
    · exact List.count_eq_one_of_mem hys ‹_›
    · exact List.count_eq_zero_of_not_mem ‹_›
  rw [← hcount _ (htake.sublist (List.take_sublist start _)), ← hcount _ htake, Nat.add_comm,
    ← List.count_append, List.take_append_drop]

/-- An element of all lists is read once, but for the times it is skipped or read again. -/
theorem count_flatten (h : Paging size start lists pages) (hnodup : ∀ xs ∈ lists, xs.Nodup)
    (hx : ∀ xs ∈ lists, x ∈ xs) {first : List α} (hfirst : lists.head? = some first) :
    pages.flatten.count x + (if x ∈ first.take start then 1 else 0) + skips size x start lists =
      1 + repeats size x start lists := by
  induction h generalizing first with
  | @last start xs within ends =>
    cases hfirst
    have hpage := count_take_drop (hnodup xs List.mem_cons_self) x start xs.length
    rw [List.take_length, if_pos (hx xs List.mem_cons_self)] at hpage
    simp only [skips, repeats, List.flatten_cons, List.flatten_nil, List.append_nil]
    omega
  | @next start xs lists pages more rest ih =>
    cases hfirst
    have hpage := count_take_drop (hnodup xs List.mem_cons_self) x start (start + size)
    have hstarts : (xs.take (start + size)).take start = xs.take start := by
      rw [List.take_take, Nat.min_eq_left (Nat.le_add_right start size)]
    rw [hstarts] at hpage
    rw [List.flatten_cons, List.count_append]
    cases hlists : lists with
    | nil =>
      rw [hlists] at rest
      cases rest
    | cons ys rest' =>
      have hrest := ih (fun zs hzs => hnodup zs (List.mem_cons_of_mem _ hzs))
        (fun zs hzs => hx zs (List.mem_cons_of_mem _ hzs))
        (show lists.head? = some ys by rw [hlists, List.head?_cons])
      rw [hlists] at hrest
      simp only [skips, repeats]
      by_cases hxs : x ∈ xs.take (start + size)
      · by_cases hys : x ∈ ys.take (start + size)
        · simp only [hxs, hys, if_true, not_true_eq_false, false_and, and_false, if_false]
            at hpage hrest ⊢
          omega
        · simp only [hxs, hys, if_true, not_true_eq_false, not_false_eq_true, false_and, and_true,
            if_false] at hpage hrest ⊢
          omega
      · by_cases hys : x ∈ ys.take (start + size)
        · simp only [hxs, hys, if_true, not_true_eq_false, not_false_eq_true, false_and, and_true,
            if_false] at hpage hrest ⊢
          omega
        · simp only [hxs, hys, not_false_eq_true, false_and, and_false, if_false] at hpage hrest ⊢
          omega

/-- From the start, an element is read once exactly if it is skipped as often as repeated. -/
theorem count_eq_one_iff (h : Paging size 0 lists pages) (hnodup : ∀ xs ∈ lists, xs.Nodup)
    (hx : ∀ xs ∈ lists, x ∈ xs) :
    pages.flatten.count x = 1 ↔ skips size x 0 lists = repeats size x 0 lists := by
  cases hlists : lists with
  | nil =>
    rw [hlists] at h
    cases h
  | cons first rest =>
    have hcount := h.count_flatten hnodup hx
      (show lists.head? = some first by rw [hlists, List.head?_cons])
    rw [List.take_zero, if_neg List.not_mem_nil, hlists] at hcount
    omega

/-- Nothing is skipped or repeated in a list that does not change. -/
theorem skips_eq_repeats {xs : List α} (hsame : ∀ ys ∈ lists, ys = xs) :
    skips size x start lists = repeats size x start lists := by
  induction lists generalizing start with
  | nil => rfl
  | cons ys rest ih =>
    cases rest with
    | nil => rfl
    | cons zs rest =>
      have hys := hsame ys List.mem_cons_self
      have hzs := hsame zs (List.mem_cons_of_mem _ List.mem_cons_self)
      have hrest := @ih (start + size) fun ws hws => hsame ws (List.mem_cons_of_mem _ hws)
      subst hys hzs
      simp only [skips, repeats, not_and_self_iff, and_not_self_iff, if_false, hrest]

end Paging
end RustMcpCore.Library
