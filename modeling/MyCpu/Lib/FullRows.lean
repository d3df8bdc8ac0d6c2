import Mathlib.Data.Finset.Card
import Mathlib.Data.Finset.Image

/-! # Rows that are taken out

A finite set of cells in columns and rows.  When a row is taken out, the cells above it move down by
one, so that exactly its own cells are lost. -/

namespace FullRows

variable {Column : Type*} [DecidableEq Column]

/-- The cells of a row. -/
def rowCells (cells : Finset (Column × ℕ)) (row : ℕ) : Finset (Column × ℕ) :=
  cells.filter fun cell => cell.2 = row

/-- Where a cell is when a row has been taken out. -/
def lower (row : ℕ) (cell : Column × ℕ) : Column × ℕ :=
  if row < cell.2 then (cell.1, cell.2 - 1) else cell

/-- What is left when a row is taken out. -/
def takeOut (cells : Finset (Column × ℕ)) (row : ℕ) : Finset (Column × ℕ) :=
  (cells.filter fun cell => cell.2 ≠ row).image (lower row)

variable {cells : Finset (Column × ℕ)} {row : ℕ}

theorem lower_injective {cell cell' : Column × ℕ} (other : cell.2 ≠ row) (other' : cell'.2 ≠ row)
    (same : lower row cell = lower row cell') : cell = cell' := by
  obtain ⟨x, y⟩ := cell
  obtain ⟨x', y'⟩ := cell'
  simp only [lower] at other other' same
  split_ifs at same with above above' above'
  · simp only [Prod.mk.injEq] at same ⊢
    exact ⟨same.1, by omega⟩
  · simp only [Prod.mk.injEq] at same
    omega
  · simp only [Prod.mk.injEq] at same
    omega
  · exact same

theorem mem_takeOut {x : Column} {y : ℕ} :
    (x, y) ∈ takeOut cells row ↔ (x, if row ≤ y then y + 1 else y) ∈ cells := by
  simp only [takeOut, Finset.mem_image, Finset.mem_filter]
  constructor
  · rintro ⟨⟨x', y'⟩, ⟨cell, other⟩, place⟩
    rw [lower] at place
    split_ifs at place with above
    · simp only [Prod.mk.injEq] at place
      obtain ⟨rfl, rfl⟩ := place
      rwa [if_pos (by simp only at above; omega), Nat.sub_add_cancel (by simp only at above; omega)]
    · cases place
      rwa [if_neg (by simp only at above other; omega)]
  · intro cell
    refine ⟨(x, if row ≤ y then y + 1 else y), ⟨cell, ?_⟩, ?_⟩
    · simp only
      split_ifs <;> omega
    · rw [lower]
      by_cases above : row ≤ y
      · rw [if_pos above, if_pos (Nat.lt_succ_of_le above), Nat.add_sub_cancel]
      · rw [if_neg above, if_neg (by simp only; omega)]

theorem card_takeOut (cells : Finset (Column × ℕ)) (row : ℕ) :
    (takeOut cells row).card + (rowCells cells row).card = cells.card := by
  rw [takeOut, Finset.card_image_of_injOn ?_, rowCells, Nat.add_comm]
  · exact Finset.card_filter_add_card_filter_not _
  · intro cell member cell' member'
    exact lower_injective (Finset.mem_filter.mp member).2 (Finset.mem_filter.mp member').2

end FullRows
