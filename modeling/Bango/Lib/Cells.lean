import Mathlib.Data.List.Nodup
import Mathlib.Data.List.Perm.Basic

set_option autoImplicit false

/-! # An array of cells

An array of a fixed size, where one value marks the cells that are free. A value is put into the first
free cell, and is removed by clearing all cells that hold it. What the other cells hold is a multiset
(`filled`). -/

namespace Bango.Lib

variable {α : Type} [DecidableEq α] {blank x : α} {cells : List α}

/-- Put a value into the first free cell, if there is one. -/
def fillCell (blank x : α) : List α → List α
  | [] => []
  | cell :: cells => if cell = blank then x :: cells else cell :: fillCell blank x cells

/-- Clear all cells that hold a value. -/
def clearCells (blank x : α) (cells : List α) : List α :=
  cells.map fun cell => if cell = x then blank else cell

/-- What the cells hold that are not free. -/
def filled (blank : α) (cells : List α) : List α := cells.filter (· ≠ blank)

@[simp]
theorem length_fillCell : (fillCell blank x cells).length = cells.length := by
  induction cells with
  | nil => rfl
  | cons cell cells ih =>
      unfold fillCell
      split
      · rfl
      · rw [List.length_cons, List.length_cons, ih]

@[simp]
theorem length_clearCells : (clearCells blank x cells).length = cells.length := List.length_map _

/-- The blank itself changes nothing. -/
theorem filled_fillCell_blank : filled blank (fillCell blank blank cells) = filled blank cells := by
  induction cells with
  | nil => rfl
  | cons cell cells ih =>
      unfold fillCell
      split
      next hcell => rw [hcell]
      next hcell =>
          unfold filled at ih ⊢
          rw [List.filter_cons, List.filter_cons, ih]

/-- A value gets a free cell. -/
theorem filled_fillCell (hx : x ≠ blank) (hfree : (filled blank cells).length < cells.length) :
    (filled blank (fillCell blank x cells)).Perm (x :: filled blank cells) := by
  induction cells with
  | nil => exact absurd hfree (Nat.lt_irrefl 0)
  | cons cell cells ih =>
      unfold fillCell
      split
      next hcell =>
          unfold filled
          rw [List.filter_cons_of_pos (by simpa using hx), List.filter_cons_of_neg (by simpa using hcell)]
      next hcell =>
          unfold filled at ih hfree ⊢
          rw [List.filter_cons_of_pos (by simpa using hcell)] at hfree ⊢
          rw [List.filter_cons_of_pos (by simpa using hcell)]
          rw [List.length_cons, List.length_cons] at hfree
          exact ((ih (Nat.lt_of_succ_lt_succ hfree)).cons cell).trans (.swap x cell _)

/-- Clearing removes the value and nothing else. -/
theorem filled_clearCells : filled blank (clearCells blank x cells) = (filled blank cells).filter (· ≠ x) := by
  induction cells with
  | nil => rfl
  | cons cell cells ih =>
      unfold filled clearCells at ih ⊢
      rw [List.map_cons]
      by_cases hcell : cell = x
      · rw [if_pos hcell, List.filter_cons_of_neg (by simp), ih]
        by_cases hblank : cell = blank
        · rw [List.filter_cons_of_neg (by simpa using hblank)]
        · rw [List.filter_cons_of_pos (by simpa using hblank),
            List.filter_cons_of_neg (by simpa using hcell)]
      · rw [if_neg hcell]
        by_cases hblank : cell = blank
        · rw [List.filter_cons_of_neg (by simpa using hblank),
            List.filter_cons_of_neg (by simpa using hblank), ih]
        · rw [List.filter_cons_of_pos (by simpa using hblank),
            List.filter_cons_of_pos (by simpa using hblank),
            List.filter_cons_of_pos (by simpa using hcell), ih]

end Bango.Lib
