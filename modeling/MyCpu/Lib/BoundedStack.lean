import Mathlib.Data.Nat.Notation
import Mathlib.Data.List.Range
import Mathlib.Logic.Function.Basic

/-! # Bounded stacks

A stack of bounded depth forgets its oldest entry when it overflows.  It is kept in numbered cells,
the oldest entry in cell 0, so that a full stack has to move its entries down by one cell. -/

namespace BoundedStack

variable {α : Type*}

/-- The new entry comes first; what does not fit is forgotten. -/
def push (depth : ℕ) (stack : List α) (entry : α) : List α := (entry :: stack).take depth

theorem push_room {depth : ℕ} {stack : List α} (entry : α) (room : stack.length < depth) :
    push depth stack entry = entry :: stack :=
  List.take_of_length_le room

/-! ## Cells -/

/-- The entries of the lowest `height` cells, the topmost first. -/
def topDown (cells : ℕ → α) : ℕ → List α
  | 0 => []
  | height + 1 => cells height :: topDown cells height

variable {cells : ℕ → α}

@[simp] theorem topDown_length (cells : ℕ → α) (height : ℕ) :
    (topDown cells height).length = height := by
  induction height with
  | zero => rfl
  | succ height inductionHypothesis => rw [topDown, List.length_cons, inductionHypothesis]

theorem topDown_congr {cells' : ℕ → α} {height : ℕ} (same : ∀ j < height, cells j = cells' j) :
    topDown cells height = topDown cells' height := by
  induction height with
  | zero => rfl
  | succ height inductionHypothesis =>
    rw [topDown, topDown, same height (Nat.lt_succ_self height),
      inductionHypothesis fun j inside => same j (Nat.lt_succ_of_lt inside)]

theorem topDown_pop (cells : ℕ → α) (height : ℕ) :
    (topDown cells height).tail = topDown cells (height - 1) := by
  cases height with
  | zero => rfl
  | succ height => rfl

/-- A write above the stack is a push. -/
theorem topDown_append {cells' : ℕ → α} {height : ℕ} (same : ∀ j < height, cells' j = cells j) :
    topDown cells' (height + 1) = cells' height :: topDown cells height := by
  rw [topDown, topDown_congr same]

/-- Moving all entries down by one cell drops the oldest. -/
theorem topDown_shift (cells : ℕ → α) (height : ℕ) :
    topDown (fun j => cells (j + 1)) height = (topDown cells (height + 1)).take height := by
  induction height with
  | zero => rfl
  | succ height inductionHypothesis =>
    rw [topDown, topDown, List.take_succ_cons, inductionHypothesis]

end BoundedStack
