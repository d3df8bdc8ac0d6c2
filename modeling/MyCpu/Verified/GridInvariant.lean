import MyCpu.Lib.Highest
import MyCpu.Verified.LineClearing

/-! # The three representations of the grid

A cell is marked in its row, coloured, and below the relief of its column.  All operations keep the
three in step but `grid_clear_cell`, which leaves the relief alone: it is right exactly if the cell
is not the highest of its column. -/

namespace MyCpu.Tetris.Grid

/-! ## The representations -/

/-- Bit `x` of row `y`. -/
def marked (g : Grid) (x y : ℕ) : Bool := (g.row y).getLsbD x

def colorAt (g : Grid) (x y : ℕ) : BitVec 8 := (g.colorsOf y)[x]?.getD COLOR_BLACK

def reliefAt (g : Grid) (x : ℕ) : ℤ := (g.relief[x]?.getD 0#8).toInt

/-- The representations agree. -/
structure Consistent (g : Grid) : Prop where
  narrow : ∀ x y, g.marked x y = true → x < GRID_WIDTH
  colored : ∀ x < GRID_WIDTH, ∀ y < GRID_HEIGHT, g.marked x y = true ↔ g.colorAt x y ≠ COLOR_BLACK
  relief : ∀ x < GRID_WIDTH, Highest (g.marked x) (g.reliefAt x)

/-- An operation of `tetris.h` on the grid; what is drawn is not black. -/
inductive Operation where
  | grid_init
  | grid_clear
  | grid_set_cell (x y : ℤ) (color : BitVec 8) (painted : color ≠ COLOR_BLACK)
  | grid_clear_cell (x y : ℤ)
  | grid_block_add (b : Block) (painted : b.color ≠ COLOR_BLACK)
  | grid_clear_lines

def apply (g : Grid) : Operation → Grid
  | .grid_init => grid_init
  | .grid_clear => g.grid_clear
  | .grid_set_cell x y color _ => g.grid_set_cell x y color
  | .grid_clear_cell x y => g.grid_clear_cell x y
  | .grid_block_add b _ => b.grid_block_add g
  | .grid_clear_lines => g.grid_clear_lines.1

/-- A cell of the grid that is as high as the relief of its column. -/
def Top (g : Grid) (x y : ℤ) : Prop :=
  (0 ≤ x ∧ x < GRID_WIDTH ∧ 0 ≤ y ∧ y < GRID_HEIGHT) ∧ g.reliefAt x.toNat = y

variable {g : Grid}

/-! ## Empty grids -/

theorem consistent_clear (g : Grid) : g.grid_clear.Consistent := by
  have unmarked : ∀ x y, g.grid_clear.marked x y = false := by
    intro x y
    rw [marked, row, grid_clear, Vector.getElem?_replicate]
    split_ifs <;> exact BitVec.getLsbD_zero
  refine ⟨fun x y mark => ?_, fun x column y inside => ?_, fun x column => ?_⟩
  · rw [unmarked] at mark
    cases mark
  · rw [unmarked, colorAt, colorsOf, grid_clear, Vector.getElem?_replicate,
      if_pos inside, Option.getD_some, Vector.getElem?_replicate, if_pos column]
    simp
  · rw [reliefAt, grid_clear, Vector.getElem?_replicate, if_pos column]
    exact Highest.none.congr (unmarked x)

theorem consistent_init : grid_init.Consistent := consistent_clear grid_init

/-! ## Single cells -/

section Cells

variable {x y : ℤ} (inside : 0 ≤ x ∧ x < GRID_WIDTH ∧ 0 ≤ y ∧ y < GRID_HEIGHT)

include inside

theorem colorsOf_set (colors : Vector (BitVec 8) GRID_WIDTH) (y' : ℕ) :
    (g.colors.setIfInBounds y.toNat colors)[y']?.getD (.replicate GRID_WIDTH COLOR_BLACK) =
      if y' = y.toNat then colors else g.colorsOf y' := by
  rw [Vector.getElem?_setIfInBounds]
  by_cases same : y.toNat = y'
  · rw [if_pos same, if_pos same.symm, if_pos (by omega)]
    rfl
  · rw [if_neg same, if_neg (Ne.symm same)]
    rfl

theorem colorAt_set {g' : Grid} {color : BitVec 8}
    (set : g'.colors = g.colors.setIfInBounds y.toNat
      ((g.colorsOf y.toNat).setIfInBounds x.toNat color)) (x' y' : ℕ) :
    g'.colorAt x' y' = if x' = x.toNat ∧ y' = y.toNat then color else g.colorAt x' y' := by
  rw [colorAt, colorsOf, set, colorsOf_set inside]
  by_cases row : y' = y.toNat
  · rw [if_pos row, Vector.getElem?_setIfInBounds]
    by_cases column : x.toNat = x'
    · rw [if_pos column, if_pos (by omega), Option.getD_some, if_pos ⟨column.symm, row⟩]
    · rw [if_neg column, if_neg fun both => column both.1.symm, row, colorAt]
  · rw [if_neg row, if_neg fun both => row both.2, colorAt]

theorem marked_set (color : BitVec 8) (x' y' : ℕ) :
    (g.grid_set_cell x y color).marked x' y' =
      (g.marked x' y' || decide (x' = x.toNat ∧ y' = y.toNat)) := by
  have narrow : x.toNat < 16 := by
    simp only [GRID_WIDTH] at inside
    omega
  rw [marked, row, grid_set_cell, if_neg (by omega)]
  simp only [row_set _ (show y.toNat < GRID_HEIGHT by omega)]
  by_cases same : y' = y.toNat
  · rw [if_pos same, bit_set _ narrow, same, marked]
    simp
  · rw [if_neg same, marked]
    simp [same]

theorem marked_clear (x' y' : ℕ) :
    (g.grid_clear_cell x y).marked x' y' =
      (g.marked x' y' && !decide (x' = x.toNat ∧ y' = y.toNat)) := by
  have narrow : x.toNat < 16 := by
    simp only [GRID_WIDTH] at inside
    omega
  rw [marked, row, grid_clear_cell, if_neg (by omega)]
  simp only [row_set _ (show y.toNat < GRID_HEIGHT by omega)]
  by_cases same : y' = y.toNat
  · have bit := bit_set 0#16 narrow x'
    rw [BitVec.zero_or, BitVec.getLsbD_zero, Bool.false_or] at bit
    rw [if_pos same, BitVec.getLsbD_and, BitVec.getLsbD_not, bit, same, marked]
    by_cases wide : x' < 16
    · simp [wide]
    · simp [BitVec.getLsbD_of_ge _ _ (Nat.le_of_not_lt wide)]
  · rw [if_neg same, marked]
    simp [same]

theorem reliefAt_set (color : BitVec 8) (x' : ℕ) :
    (g.grid_set_cell x y color).reliefAt x' =
      if x' = x.toNat ∧ g.reliefAt x' < y then y else g.reliefAt x' := by
  have stored : (BitVec.ofInt 8 y).toInt = y := by
    simp only [GRID_HEIGHT] at inside
    rw [BitVec.toInt_ofInt]
    exact Int.bmod_eq_of_le (by omega) (by omega)
  rw [reliefAt, grid_set_cell, if_neg (by omega)]
  simp only
  by_cases raised : (g.relief[x.toNat]?.getD 0#8).toInt < y
  · rw [if_pos raised, Vector.getElem?_setIfInBounds]
    by_cases column : x.toNat = x'
    · rw [if_pos column, if_pos (by omega), if_pos ⟨column.symm, column ▸ raised⟩]
      exact stored
    · rw [if_neg column, if_neg fun both => column both.1.symm]
      rfl
  · rw [if_neg raised, if_neg]
    · rfl
    · rintro ⟨rfl, lower⟩
      exact raised lower

end Cells

theorem consistent_set (consistent : g.Consistent) (x y : ℤ) {color : BitVec 8}
    (painted : color ≠ COLOR_BLACK) :
    (g.grid_set_cell x y color).Consistent := by
  by_cases inside : 0 ≤ x ∧ x < GRID_WIDTH ∧ 0 ≤ y ∧ y < GRID_HEIGHT
  · have colors : (g.grid_set_cell x y color).colors =
        g.colors.setIfInBounds y.toNat ((g.colorsOf y.toNat).setIfInBounds x.toNat color) := by
      rw [grid_set_cell, if_neg (by omega)]
    refine ⟨fun x' y' mark => ?_, fun x' column y' row => ?_, fun x' column => ?_⟩
    · rw [marked_set inside, Bool.or_eq_true, decide_eq_true_eq] at mark
      cases mark with
      | inl old => exact consistent.narrow x' y' old
      | inr here => omega
    · rw [marked_set inside, colorAt_set inside colors, Bool.or_eq_true, decide_eq_true_eq,
        consistent.colored x' column y' row]
      split_ifs with here
      · exact iff_of_true (.inr here) painted
      · exact ⟨fun mark => mark.resolve_right here, .inl⟩
    · rw [reliefAt_set inside]
      have relief := consistent.relief x' column
      by_cases same : x' = x.toNat
      · have raised := relief.set y.toNat
        rw [Int.toNat_of_nonneg inside.2.2.1] at raised
        simp only [same, true_and] at raised ⊢
        refine raised.congr fun y' => ?_
        rw [marked_set inside]
        simp
      · rw [if_neg fun both => same both.1]
        refine relief.congr fun y' => ?_
        rw [marked_set inside]
        simp [same]
  · -- outside the grid nothing is set
    rw [grid_set_cell, if_pos (by omega)]
    exact consistent

theorem relief_clear (g : Grid) (x y : ℤ) : (g.grid_clear_cell x y).reliefAt = g.reliefAt := by
  funext x'
  rw [reliefAt, grid_clear_cell, reliefAt]
  split_ifs <;> rfl

theorem marked_clear_column {x y : ℤ} (inside : 0 ≤ x ∧ x < GRID_WIDTH ∧ 0 ≤ y ∧ y < GRID_HEIGHT) :
    (g.grid_clear_cell x y).marked x.toNat = fun y' => g.marked x.toNat y' &&
      !decide (y' = y.toNat) := by
  funext y'
  rw [marked_clear inside]
  simp

/-- A cell that is cleared leaves the relief right exactly if it is not the top of its column. -/
theorem consistent_clear_cell_iff (consistent : g.Consistent) (x y : ℤ) :
    (g.grid_clear_cell x y).Consistent ↔ ¬ g.Top x y := by
  by_cases inside : 0 ≤ x ∧ x < GRID_WIDTH ∧ 0 ≤ y ∧ y < GRID_HEIGHT
  · have colors : (g.grid_clear_cell x y).colors =
        g.colors.setIfInBounds y.toNat
          ((g.colorsOf y.toNat).setIfInBounds x.toNat COLOR_BLACK) := by
      rw [grid_clear_cell, if_neg (by omega)]
    have height := (consistent.relief x.toNat (by omega)).unset_iff y.toNat
    rw [Int.toNat_of_nonneg inside.2.2.1] at height
    constructor
    · -- the relief keeps the height of a top that is gone
      intro still top
      have right := still.relief x.toNat (by omega)
      rw [relief_clear, marked_clear_column inside, height] at right
      exact right top.2
    · intro other
      refine ⟨fun x' y' mark => ?_, fun x' narrow y' low => ?_, fun x' narrow => ?_⟩
      · rw [marked_clear inside, Bool.and_eq_true] at mark
        exact consistent.narrow x' y' mark.1
      · rw [marked_clear inside, colorAt_set inside colors, Bool.and_eq_true, Bool.not_eq_true',
          decide_eq_false_iff_not, consistent.colored x' narrow y' low]
        split_ifs with here
        · exact iff_of_false (fun both => both.2 here) (fun black => black rfl)
        · exact ⟨And.left, fun old => ⟨old, here⟩⟩
      · rw [relief_clear]
        by_cases same : x' = x.toNat
        · rw [same, marked_clear_column inside, height]
          exact fun top => other ⟨inside, top⟩
        · refine (consistent.relief x' narrow).congr fun y' => ?_
          rw [marked_clear inside]
          simp [same]
  · rw [grid_clear_cell, if_pos (by omega)]
    exact iff_of_true consistent fun top => inside top.1

/-! ## Blocks and lines -/

theorem consistent_block_add (consistent : g.Consistent) {b : Block}
    (painted : b.color ≠ COLOR_BLACK) :
    (b.grid_block_add g).Consistent := by
  rw [Block.grid_block_add]
  induction b.cells generalizing g with
  | nil => exact consistent
  | cons cell cells inductionHypothesis =>
    rw [List.foldl_cons]
    split_ifs
    · exact inductionHypothesis (consistent_set consistent cell.1 cell.2 painted)
    · exact inductionHypothesis consistent

/-- Marks and colours of a row agree. -/
def Line.Sound (line : Line) : Prop :=
  (∀ x, line.1.getLsbD x = true → x < GRID_WIDTH) ∧
    ∀ x < GRID_WIDTH, line.1.getLsbD x = true ↔ line.2[x]?.getD COLOR_BLACK ≠ COLOR_BLACK

theorem Line.empty_sound : Line.empty.Sound := by
  refine ⟨fun x mark => absurd mark (by simp [Line.empty]), fun x column => ?_⟩
  rw [Line.empty, Vector.getElem?_replicate, if_pos column]
  simp

theorem lines_sound (consistent : g.Consistent) {line : Line} (member : line ∈ g.lines) :
    line.Sound := by
  obtain ⟨y, rfl⟩ := List.mem_ofFn.mp member
  exact ⟨fun x => consistent.narrow x y.val,
    fun x column => consistent.colored x column y.val y.isLt⟩

theorem lines_cleared_sound (consistent : g.Consistent) {y : ℕ} (inside : y < GRID_HEIGHT) :
    Line.Sound (g.grid_clear_lines.1.row y, g.grid_clear_lines.1.colorsOf y) := by
  have member := List.mem_of_getElem? (lines_inside (g := g.grid_clear_lines.1) inside)
  rw [cleared_lines g, List.mem_append] at member
  cases member with
  | inl kept => exact lines_sound consistent (List.mem_filter.mp kept).1
  | inr filler =>
    rw [(List.mem_replicate.mp filler).2]
    exact Line.empty_sound

theorem recalc_relief_highest (g : Grid) {x : ℕ} (column : x < GRID_WIDTH) :
    Highest (g.marked x) (g.recalc_relief.reliefAt x) := by
  have bounded : ∀ y, g.marked x y = true → y < GRID_HEIGHT := by
    intro y mark
    refine Nat.lt_of_not_le fun outside => ?_
    rw [marked, row_outside outside, BitVec.getLsbD_zero] at mark
    cases mark
  have highest := Highest.search (g.marked x) GRID_HEIGHT bounded
  have stored : g.recalc_relief.reliefAt x =
      ((List.range GRID_HEIGHT).reverse.find? (g.marked x)).elim (-1) fun y => (y : ℤ) := by
    rw [reliefAt, recalc_relief, Vector.getElem?_ofFn, dif_pos column, Option.getD_some]
    simp only
    have place : ∀ y ∈ (List.range GRID_HEIGHT).reverse.find? (g.marked x), y < 18 := by
      intro y found
      exact List.mem_range.mp (List.mem_reverse.mp (List.mem_of_find?_eq_some found))
    have searched : (fun y => (g.row y).getLsbD x) = g.marked x := rfl
    cases found : (List.range GRID_HEIGHT).reverse.find? (g.marked x) with
    | none =>
      rw [searched, found]
      rfl
    | some y =>
      have small := place y found
      have all : ∀ y < 18, (BitVec.ofNat 8 y).toInt = y := by decide
      rw [searched, found]
      exact all y small
  rw [stored]
  exact highest

theorem consistent_clear_lines (consistent : g.Consistent) : g.grid_clear_lines.1.Consistent := by
  cases Nat.eq_zero_or_pos g.fullRows with
  | inl none => rwa [grid_clear_lines_none none]
  | inr some =>
    have line := fun y => lines_cleared_sound (y := y) consistent
    have relief : ∀ x < GRID_WIDTH,
        Highest (g.grid_clear_lines.1.marked x) (g.grid_clear_lines.1.reliefAt x) := by
      intro x column
      rw [grid_clear_lines_some some]
      exact recalc_relief_highest _ column
    refine ⟨fun x y mark => ?_, fun x column y inside => (line y inside).2 x column, relief⟩
    by_cases inside : y < GRID_HEIGHT
    · exact (line y inside).1 x mark
    · rw [marked, row_outside (Nat.le_of_not_lt inside), BitVec.getLsbD_zero] at mark
      cases mark

/-! ## Runs of operations -/

/-- The operation does not clear the top of a column. -/
def Operation.SparesTop (g : Grid) : Operation → Prop
  | .grid_clear_cell x y => ¬ g.Top x y
  | _ => True

theorem consistent_apply_iff (consistent : g.Consistent) (operation : Operation) :
    (g.apply operation).Consistent ↔ operation.SparesTop g := by
  cases operation with
  | grid_init => exact iff_of_true consistent_init trivial
  | grid_clear => exact iff_of_true (consistent_clear g) trivial
  | grid_set_cell x y color painted =>
    exact iff_of_true (consistent_set consistent x y painted) trivial
  | grid_clear_cell x y => exact consistent_clear_cell_iff consistent x y
  | grid_block_add b painted => exact iff_of_true (consistent_block_add consistent painted) trivial
  | grid_clear_lines => exact iff_of_true (consistent_clear_lines consistent) trivial

/-- The grid after a sequence of operations. -/
def after (g : Grid) (operations : List Operation) : Grid := operations.foldl apply g

theorem after_take_succ {operations : List Operation} {n : ℕ} {operation : Operation}
    (next : operations[n]? = some operation) :
    g.after (operations.take (n + 1)) = (g.after (operations.take n)).apply operation := by
  rw [List.take_add_one, next, after, List.foldl_append]
  rfl

/-- From any grid that has been cleared the representations agree all the time, exactly if no
    operation clears the top of a column. -/
theorem consistent_iff (g : Grid) (operations : List Operation) :
    (∀ n, (g.grid_clear.after (operations.take n)).Consistent) ↔
      ∀ (n : ℕ) (operation : Operation), operations[n]? = some operation →
        operation.SparesTop (g.grid_clear.after (operations.take n)) := by
  constructor
  · intro consistent n operation next
    rw [← consistent_apply_iff (consistent n), ← after_take_succ next]
    exact consistent (n + 1)
  · intro spares n
    induction n with
    | zero => exact consistent_clear g
    | succ n inductionHypothesis =>
      cases next : operations[n]? with
      | none => rwa [List.take_add_one, next, Option.toList_none, List.append_nil]
      | some operation =>
        rw [after_take_succ next]
        exact (consistent_apply_iff inductionHypothesis operation).mpr (spares n operation next)

/-- A cell is set and cleared again: the column is empty, and its relief is still 0. -/
theorem cleared_cell_relief :
    ¬ (grid_init.after [.grid_set_cell 0 0 1#8 (by decide), .grid_clear_cell 0 0]).Consistent := by
  intro consistent
  have relief := consistent.relief 0 (by decide)
  have empty : (grid_init.after [.grid_set_cell 0 0 1#8 (by decide),
      .grid_clear_cell 0 0]).marked 0 0 = false := by
    decide +kernel
  have height : (grid_init.after
      [.grid_set_cell 0 0 1#8 (by decide), .grid_clear_cell 0 0]).reliefAt 0 = 0 := by
    decide +kernel
  rw [height] at relief
  cases relief.reached with
  | inl none => exact absurd none (by decide)
  | inr mark =>
    obtain ⟨y, at_y, mark⟩ := mark
    have bottom : y = 0 := by omega
    rw [bottom, empty] at mark
    cases mark

end MyCpu.Tetris.Grid
