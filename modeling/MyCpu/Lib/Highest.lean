import Mathlib.Data.Int.Notation
import Mathlib.Data.List.Range

/-! # The highest mark of a column

A column of marks over the natural numbers, and its height: the place of the highest mark, or -1
where there is none. A mark that is set raises the height; a mark that is taken away leaves it
alone, unless it is the highest. -/

/-- `height` is the place of the highest mark, or -1. -/
structure Highest (column : ℕ → Bool) (height : ℤ) : Prop where
  above : ∀ y, column y = true → (y : ℤ) ≤ height
  reached : height = -1 ∨ ∃ y : ℕ, height = y ∧ column y = true

namespace Highest

variable {column : ℕ → Bool} {height : ℤ}

theorem none : Highest (fun _ => false) (-1) where
  above _ mark := nomatch mark
  reached := .inl rfl

theorem congr {column' : ℕ → Bool} (highest : Highest column height)
    (same : ∀ y, column' y = column y) :
    Highest column' height := by
  rwa [funext same]

theorem set (highest : Highest column height) (place : ℕ) :
    Highest (fun y => column y || decide (y = place))
      (if height < place then place else height) where
  above := by
    intro y mark
    rw [Bool.or_eq_true, decide_eq_true_eq] at mark
    have below : column y = true → (y : ℤ) ≤ height := highest.above y
    split_ifs with raised
    · cases mark with
      | inl old => exact Int.le_trans (below old) (Int.le_of_lt raised)
      | inr new => omega
    · cases mark with
      | inl old => exact below old
      | inr new => omega
  reached := by
    split_ifs with raised
    · exact .inr ⟨place, rfl, by simp⟩
    · refine highest.reached.imp id fun ⟨y, at_y, mark⟩ => ⟨y, at_y, ?_⟩
      rw [mark, Bool.true_or]

theorem unset_iff (highest : Highest column height) (place : ℕ) :
    Highest (fun y => column y && !decide (y = place)) height ↔ height ≠ place := by
  constructor
  · rintro lower rfl
    cases lower.reached with
    | inl none => omega
    | inr mark =>
      obtain ⟨y, at_y, mark⟩ := mark
      have here : place = y := Int.ofNat_inj.mp at_y
      simp [here] at mark
  · intro other
    refine ⟨fun y mark => ?_, highest.reached.imp id fun ⟨y, at_y, mark⟩ => ⟨y, at_y, ?_⟩⟩
    · rw [Bool.and_eq_true] at mark
      exact highest.above y mark.1
    · have apart : y ≠ place := by
        rintro rfl
        exact other at_y
      simp [mark, apart]

/-- The search from the top. -/
theorem search (column : ℕ → Bool) (size : ℕ) (bounded : ∀ y, column y = true → y < size) :
    Highest column (((List.range size).reverse.find? column).elim (-1) fun y => (y : ℤ)) := by
  induction size generalizing column with
  | zero => exact ⟨fun y mark => absurd (bounded y mark) (Nat.not_lt_zero y), .inl rfl⟩
  | succ size inductionHypothesis =>
    rw [List.range_succ, List.reverse_append, List.reverse_singleton,
      List.singleton_append, List.find?_cons]
    cases top : column size with
    | true =>
      refine ⟨fun y mark => ?_, .inr ⟨size, rfl, top⟩⟩
      have inside := bounded y mark
      rw [Option.elim_some]
      omega
    | false =>
      refine inductionHypothesis column fun y mark => ?_
      refine Nat.lt_of_le_of_ne (Nat.le_of_lt_succ (bounded y mark)) ?_
      rintro rfl
      rw [top] at mark
      cases mark

end Highest
