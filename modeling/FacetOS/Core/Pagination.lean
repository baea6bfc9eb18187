import Mathlib

/-!
# Following pages

A listing that does not fit one reply is fetched page by page: each call is given a
cursor and a page size and returns some entries, the next cursor and whether the end
has been reached.  A page function enumerates a list if every page is the part of
the list behind the cursor; whoever follows the pages from the start then collects
exactly that list, whatever the page sizes are.
-/

namespace FacetOS.Pagination

variable {α ε : Type*}

/-- The entries of a page, the next cursor, and whether this was the last page. -/
structure Page (α : Type*) where
  entries : List α
  next : ℕ
  finished : Bool

/-- Follow the pages with the given sizes until the end is reported.  The flag tells
whether it has been. -/
def follow (page : ℕ → ℕ → Except ε (Page α)) : List ℕ → ℕ → Except ε (List α × Bool)
  | [], _ => .ok ([], false)
  | size :: sizes, cursor =>
    match page cursor size with
    | .error failure => .error failure
    | .ok found =>
      if found.finished then .ok (found.entries, true)
      else (follow page sizes found.next).map fun rest => (found.entries ++ rest.1, rest.2)

/-- The page at a cursor is the part of the list behind it, and the end is reported
exactly when nothing is left behind the page. -/
def Enumerates (page : ℕ → ℕ → Except ε (Page α)) (items : List α) : Prop :=
  ∀ cursor size, cursor ≤ items.length → 0 < size →
    page cursor size = .ok
      { entries := (items.drop cursor).take size
        next := min (cursor + size) items.length
        finished := decide (items.length ≤ cursor + size) }

section

variable {items : List α} {page : ℕ → ℕ → Except ε (Page α)} (hpage : Enumerates page items)
include hpage

/-- Following the pages ends, and yields what is behind the cursor. -/
theorem follow_enumerates {sizes : List ℕ} (hsizes : ∀ size ∈ sizes, 0 < size)
    {cursor : ℕ} (hcursor : cursor ≤ items.length)
    (henough : items.length - cursor < sizes.length) :
    follow page sizes cursor = .ok (items.drop cursor, true) := by
  induction sizes generalizing cursor with
  | nil => cases henough
  | cons size sizes ih =>
    have hsize := hsizes size List.mem_cons_self
    rw [List.length_cons] at henough
    rw [follow, hpage cursor size hcursor hsize]
    dsimp only
    by_cases hlast : items.length ≤ cursor + size
    · rw [if_pos (decide_eq_true hlast), List.take_of_length_le]
      rw [List.length_drop]
      omega
    · rw [if_neg (by simpa using hlast), min_eq_left (by omega),
        ih (fun other hother => hsizes other (List.mem_cons_of_mem _ hother)) (by omega)
          (by omega)]
      rw [← List.drop_drop]
      exact congrArg (fun entries => Except.ok (entries, true)) (List.take_append_drop _ _)

/-- The first page sizes of an infinite sequence. -/
theorem follow_range {sizes : ℕ → ℕ} (hsizes : ∀ index, 0 < sizes index)
    {count : ℕ} (hcount : items.length < count) :
    follow page ((List.range count).map sizes) 0 = .ok (items, true) := by
  apply follow_enumerates hpage
  · intro size hsize
    obtain ⟨index, -, rfl⟩ := List.mem_map.mp hsize
    exact hsizes index
  · exact Nat.zero_le _
  · simpa using hcount

end

/-- Two page functions that agree from a cursor on are followed alike from there, if
no page moves the cursor back. -/
theorem follow_congr {page other : ℕ → ℕ → Except ε (Page α)} {start : ℕ}
    (hsame : ∀ cursor size, start ≤ cursor → page cursor size = other cursor size)
    (hforward : ∀ cursor size found, other cursor size = .ok found → cursor ≤ found.next)
    (sizes : List ℕ) {cursor : ℕ} (hcursor : start ≤ cursor) :
    follow page sizes cursor = follow other sizes cursor := by
  induction sizes generalizing cursor with
  | nil => rfl
  | cons size sizes ih =>
    rw [follow, follow, hsame cursor size hcursor]
    cases hfound : other cursor size with
    | error failure => rfl
    | ok found =>
      dsimp only
      rw [ih (hcursor.trans (hforward cursor size found hfound))]

end FacetOS.Pagination
