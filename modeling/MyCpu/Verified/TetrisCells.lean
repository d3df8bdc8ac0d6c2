import Mathlib.Data.Finset.Prod
import Mathlib.Tactic.Ring
import MyCpu.Lib.FullRows
import MyCpu.Verified.TetrisPlay

/-! # The cells of the grid

A block that is locked adds its four cells to the grid, except for those above the top row, and a
row that is removed takes ten of them away.  Nothing else changes their number. -/

namespace MyCpu.Tetris

/-! ## The grid as a set of cells -/

namespace Grid

/-- The occupied cells. -/
def occupied (g : Grid) : Finset (ℕ × ℕ) :=
  (Finset.range GRID_WIDTH ×ˢ Finset.range GRID_HEIGHT).filter
    fun cell => (g.row cell.2).getLsbD cell.1

variable {g : Grid}

theorem mem_occupied {x y : ℕ} :
    (x, y) ∈ g.occupied ↔ (x < GRID_WIDTH ∧ y < GRID_HEIGHT) ∧ (g.row y).getLsbD x = true := by
  rw [occupied, Finset.mem_filter, Finset.mem_product, Finset.mem_range, Finset.mem_range]

theorem occupied_iff {cell : ℤ × ℤ} (right : 0 ≤ cell.1) (up : 0 ≤ cell.2) :
    (cell.1.toNat, cell.2.toNat) ∈ g.occupied ↔ g.Occupied cell := by
  rw [mem_occupied, Occupied]
  constructor
  · rintro ⟨place, bit⟩
    exact ⟨by omega, bit⟩
  · rintro ⟨place, bit⟩
    exact ⟨by omega, bit⟩

theorem row_set (value : BitVec 16) {place : ℕ} (inside : place < GRID_HEIGHT) (y : ℕ) :
    (g.rows.setIfInBounds place value)[y]?.getD 0#16 = if y = place then value else g.row y := by
  rw [Vector.getElem?_setIfInBounds]
  by_cases same : place = y
  · rw [if_pos same, if_pos same.symm, if_pos (same ▸ inside)]
    rfl
  · rw [if_neg same, if_neg (Ne.symm same)]
    rfl

theorem bit_set (value : BitVec 16) {place : ℕ} (inside : place < 16) (x : ℕ) :
    (value ||| 1#16 <<< place).getLsbD x = (value.getLsbD x || decide (x = place)) := by
  rw [BitVec.getLsbD_or, BitVec.getLsbD_shiftLeft, BitVec.getLsbD_one]
  congr 1
  by_cases same : x = place
  · subst same
    simp [inside]
  · have apart : x < place ∨ ¬ x - place = 0 := by omega
    cases apart with
    | inl before => simp [before, same]
    | inr behind => simp [behind, same]

theorem grid_set_cell_occupied {cell : ℤ × ℤ} (color : BitVec 8)
    (place : 0 ≤ cell.1 ∧ cell.1 < GRID_WIDTH ∧ 0 ≤ cell.2 ∧ cell.2 < GRID_HEIGHT) :
    (g.grid_set_cell cell.1 cell.2 color).occupied =
      insert (cell.1.toNat, cell.2.toNat) g.occupied := by
  obtain ⟨left, right, low, high⟩ := place
  have rows : ∀ y, (g.grid_set_cell cell.1 cell.2 color).row y =
      if y = cell.2.toNat then g.row cell.2.toNat ||| 1#16 <<< cell.1.toNat else g.row y := by
    intro y
    rw [grid_set_cell, if_neg (by omega)]
    exact row_set _ (by omega) y
  have narrow : cell.1.toNat < 16 := by
    simp only [GRID_WIDTH] at right
    omega
  ext ⟨x, y⟩
  rw [Finset.mem_insert, mem_occupied, mem_occupied, rows, Prod.mk.injEq]
  by_cases same : y = cell.2.toNat
  · rw [if_pos same, bit_set _ narrow, Bool.or_eq_true, decide_eq_true_eq, same]
    constructor
    · rintro ⟨inside, old | here⟩
      · exact .inr ⟨inside, old⟩
      · exact .inl ⟨here, rfl⟩
    · rintro (⟨here, _⟩ | ⟨inside, old⟩)
      · exact ⟨by omega, .inr here⟩
      · exact ⟨inside, .inl old⟩
  · rw [if_neg same]
    simp only [same, and_false, false_or]

/-! ## Removed rows -/

theorem remove_row_row (row y : ℕ) (inside : y < GRID_HEIGHT) :
    (g.remove_row row).row y =
      if y = GRID_HEIGHT - 1 then 0#16 else if row ≤ y then g.row (y + 1) else g.row y := by
  rw [Grid.row, remove_row, Vector.getElem?_ofFn, dif_pos inside]
  rfl

theorem remove_row_occupied {row : ℕ} (inside : row < GRID_HEIGHT) :
    (g.remove_row row).occupied = FullRows.takeOut g.occupied row := by
  ext ⟨x, y⟩
  rw [FullRows.mem_takeOut, mem_occupied, mem_occupied]
  by_cases below : y < GRID_HEIGHT
  · rw [remove_row_row row y below]
    by_cases top : y = GRID_HEIGHT - 1
    · have moved : row ≤ y := by omega
      rw [if_pos top, if_pos moved]
      simp
      omega
    · rw [if_neg top]
      split_ifs with moved
      · have next : y + 1 < GRID_HEIGHT := by omega
        simp [below, next]
      · rfl
  · have outside : ¬ (if row ≤ y then y + 1 else y) < GRID_HEIGHT := by
      split_ifs <;> omega
    simp [below, outside]

theorem grid_row_full_bits {y : ℕ} (full : g.grid_row_full y = true) :
    y < GRID_HEIGHT ∧ ∀ x < GRID_WIDTH, (g.row y).getLsbD x = true := by
  rw [grid_row_full, Bool.and_eq_true, decide_eq_true_eq, decide_eq_true_eq] at full
  refine ⟨full.1, fun x inside => ?_⟩
  have mask : full_mask.getLsbD x = true := by
    revert x
    decide
  have bit := congrArg (fun value => value.getLsbD x) full.2
  simp only [BitVec.getLsbD_and, mask, Bool.and_true] at bit
  exact bit

theorem grid_row_full_card {y : ℕ} (full : g.grid_row_full y = true) :
    (FullRows.rowCells g.occupied y).card = GRID_WIDTH := by
  obtain ⟨inside, bits⟩ := grid_row_full_bits full
  have cells : FullRows.rowCells g.occupied y = Finset.range GRID_WIDTH ×ˢ {y} := by
    ext ⟨x, y'⟩
    rw [FullRows.rowCells, Finset.mem_filter, mem_occupied, Finset.mem_product,
      Finset.mem_range, Finset.mem_singleton]
    constructor
    · rintro ⟨⟨⟨column, _⟩, _⟩, same⟩
      exact ⟨column, same⟩
    · rintro ⟨column, same⟩
      simp only at column same
      subst same
      exact ⟨⟨⟨column, inside⟩, bits x column⟩, rfl⟩
  rw [cells, Finset.card_product, Finset.card_range, Finset.card_singleton, Nat.mul_one]

theorem clear_lines_loop_card (steps : ℕ) (g : Grid) (y cleared : ℕ) :
    (clear_lines_loop steps g y cleared).1.occupied.card + GRID_WIDTH *
      (clear_lines_loop steps g y cleared).2 =
      g.occupied.card + GRID_WIDTH * cleared := by
  induction steps generalizing g y cleared with
  | zero => rfl
  | succ steps inductionHypothesis =>
    rw [clear_lines_loop]
    by_cases more : y < GRID_HEIGHT
    · rw [if_pos more]
      by_cases full : g.grid_row_full y = true
      · have lost := FullRows.card_takeOut g.occupied y
        rw [grid_row_full_card full] at lost
        rw [if_pos full, inductionHypothesis, remove_row_occupied more, ← lost]
        ring
      · rw [if_neg full, inductionHypothesis]
    · rw [if_neg more]

/-- The rows below `y` are not full, and as many rows as have been removed are empty at the top. -/
structure Clearing (g : Grid) (y cleared : ℕ) : Prop where
  passed : ∀ y' < y, g.grid_row_full y' = false
  empty : ∀ y', GRID_HEIGHT ≤ y' + cleared → g.row y' = 0#16
  bounded : y ≤ GRID_HEIGHT ∧ cleared ≤ GRID_HEIGHT

theorem row_outside {y : ℕ} (outside : GRID_HEIGHT ≤ y) : g.row y = 0#16 := by
  rw [Grid.row, Vector.getElem?_eq_none outside]
  rfl

theorem grid_row_full_congr {g' : Grid} {y : ℕ} (same : g'.row y = g.row y) :
    g'.grid_row_full y = g.grid_row_full y := by
  rw [grid_row_full, grid_row_full, same]

theorem clearing_remove {y cleared : ℕ} (clearing : Clearing g y cleared)
    (full : g.grid_row_full y = true) :
    Clearing (g.remove_row y) y (cleared + 1) := by
  obtain ⟨passed, empty, low, few⟩ := clearing
  have inside := (grid_row_full_bits full).1
  have room : y + cleared < GRID_HEIGHT := by
    refine Nat.lt_of_not_le fun top => ?_
    have bit := (grid_row_full_bits full).2 0 (by decide)
    rw [empty y top] at bit
    cases bit
  refine ⟨fun y' below => ?_, fun y' top => ?_, low, by omega⟩
  · rw [← passed y' below]
    refine grid_row_full_congr ?_
    rw [remove_row_row y y' (by omega), if_neg (by omega), if_neg (by omega)]
  · by_cases outside : GRID_HEIGHT ≤ y'
    · exact row_outside outside
    · rw [remove_row_row y y' (by omega)]
      split_ifs with last moved
      · rfl
      · exact empty (y' + 1) (by omega)
      · omega

theorem clear_lines_loop_complete {steps y cleared : ℕ} (clearing : Clearing g y cleared)
    (enough : 2 * GRID_HEIGHT ≤ steps + y + cleared) (y' : ℕ) :
    (clear_lines_loop steps g y cleared).1.grid_row_full y' = false := by
  induction steps generalizing g y cleared with
  | zero =>
    -- all steps have been taken, so all rows have been passed
    have bounded := clearing.bounded
    by_cases inside : y' < GRID_HEIGHT
    · exact clearing.passed y' (by omega)
    · rw [clear_lines_loop, grid_row_full, decide_eq_false inside, Bool.false_and]
  | succ steps inductionHypothesis =>
    rw [clear_lines_loop]
    by_cases more : y < GRID_HEIGHT
    · rw [if_pos more]
      cases full : g.grid_row_full y with
      | true =>
        rw [if_pos rfl]
        exact inductionHypothesis (clearing_remove clearing full) (by omega)
      | false =>
        rw [if_neg Bool.false_ne_true]
        obtain ⟨passed, empty, low, few⟩ := clearing
        refine inductionHypothesis ⟨fun earlier below => ?_, empty, more, few⟩ (by omega)
        cases Nat.lt_succ_iff_lt_or_eq.mp below with
        | inl before => exact passed earlier before
        | inr same =>
          rw [same]
          exact full
    · rw [if_neg more]
      by_cases inside : y' < GRID_HEIGHT
      · exact clearing.passed y' (by omega)
      · rw [grid_row_full, decide_eq_false inside, Bool.false_and]

/-- No full row is left. -/
theorem clear_lines_complete (g : Grid) (y : ℕ) : g.clear_lines.1.grid_row_full y = false :=
  clear_lines_loop_complete ⟨fun _ none => absurd none (Nat.not_lt_zero _),
    fun _ outside => row_outside outside, Nat.zero_le _, Nat.zero_le _⟩ (Nat.le_refl _) y

theorem grid_clear_lines_rows (g : Grid) : g.grid_clear_lines.1.rows = g.clear_lines.1.rows := by
  rw [grid_clear_lines]
  simp only
  split_ifs <;> rfl

theorem occupied_congr {g' : Grid} (same : g'.rows = g.rows) : g'.occupied = g.occupied := by
  ext ⟨x, y⟩
  rw [mem_occupied, mem_occupied, Grid.row, Grid.row, same]

theorem grid_clear_lines_card (g : Grid) :
    g.grid_clear_lines.1.occupied.card + GRID_WIDTH * g.clear_lines.2 = g.occupied.card := by
  rw [occupied_congr (grid_clear_lines_rows g)]
  exact clear_lines_loop_card _ g 0 0

end Grid

/-! ## Locked blocks -/

namespace Block

/-- The number of cells above the top row; `grid_block_add` leaves them out. -/
def above (b : Block) : ℕ :=
  (b.cells.filter fun (cell : ℤ × ℤ) => (GRID_HEIGHT : ℤ) ≤ cell.2).length

/-- The cells that `grid_block_add` writes. -/
def written (b : Block) : List (ℤ × ℤ) :=
  b.cells.filter fun (cell : ℤ × ℤ) => ¬ (GRID_HEIGHT : ℤ) ≤ cell.2

variable {b : Block} {g : Grid}

theorem cells_length (b : Block) : b.cells.length = 4 := by
  rw [cells, List.length_map]
  exact offsets_all (P := fun offsets => offsets.length = 4) (by decide) b

theorem cells_nodup (b : Block) : b.cells.Nodup := by
  refine List.Nodup.map (fun offset offset' same => ?_)
    (offsets_all (P := List.Nodup) (by decide) b)
  simp only [Prod.mk.injEq, Int.add_right_inj] at same
  exact Prod.ext same.1 same.2

theorem written_length (b : Block) : b.written.length + b.above = 4 := by
  have parts :=
    List.length_eq_length_filter_add (l := b.cells) fun cell => decide ((GRID_HEIGHT : ℤ) ≤ cell.2)
  simp only [← decide_not] at parts
  rw [written, above, Nat.add_comm, ← parts, cells_length b]

theorem add_cells_occupied (color : BitVec 8) {cells : List (ℤ × ℤ)}
    (inside : ∀ cell ∈ cells, 0 ≤ cell.1 ∧ cell.1 < GRID_WIDTH ∧ 0 ≤ cell.2) (g : Grid) :
    (cells.foldl (fun (g : Grid) (cell : ℤ × ℤ) =>
      if 0 ≤ cell.1 ∧ cell.1 < GRID_WIDTH ∧ 0 ≤ cell.2 ∧ cell.2 < GRID_HEIGHT then
        g.grid_set_cell cell.1 cell.2 color
      else g) g).occupied =
      g.occupied ∪
        ((cells.filter fun (cell : ℤ × ℤ) => ¬ (GRID_HEIGHT : ℤ) ≤ cell.2).map fun cell =>
          (cell.1.toNat, cell.2.toNat)).toFinset := by
  induction cells generalizing g with
  | nil => simp
  | cons cell cells inductionHypothesis =>
    obtain ⟨left, right, low⟩ := inside cell List.mem_cons_self
    rw [List.foldl_cons, inductionHypothesis
      fun other member => inside other (List.mem_cons_of_mem _ member)]
    by_cases high : (GRID_HEIGHT : ℤ) ≤ cell.2
    · rw [if_neg (by omega), List.filter_cons_of_neg (by simpa using high)]
    · rw [if_pos (by omega), List.filter_cons_of_pos (by simpa using high),
        Grid.grid_set_cell_occupied color (by omega), List.map_cons,
        List.toFinset_cons, Finset.insert_union, Finset.union_insert]

/-- A block that is inside and clear of the grid adds all its cells that are not above it. -/
theorem grid_block_add_card (fits : b.Fits g) :
    (b.grid_block_add g).occupied.card + b.above = g.occupied.card + 4 := by
  have members : ∀ {cell}, cell ∈ b.written → cell ∈ b.cells :=
    fun member => (List.mem_filter.mp member).1
  have apart : Disjoint g.occupied
      (b.written.map fun cell => (cell.1.toNat, cell.2.toNat)).toFinset := by
    rw [Finset.disjoint_right]
    intro place member
    rw [List.mem_toFinset, List.mem_map] at member
    obtain ⟨cell, member, rfl⟩ := member
    have inside := fits.inside cell (members member)
    rw [Grid.occupied_iff inside.1 inside.2.2]
    exact fits.free cell (members member)
  have distinct : (b.written.map fun cell => (cell.1.toNat, cell.2.toNat)).Nodup := by
    refine List.Nodup.map_on (fun cell member cell' member' same => ?_) (b.cells_nodup.filter _)
    have inside := fits.inside cell (members member)
    have inside' := fits.inside cell' (members member')
    simp only [Prod.mk.injEq] at same
    exact Prod.ext (by omega) (by omega)
  have added := add_cells_occupied b.color fits.inside g
  rw [grid_block_add, added, ← written, Finset.card_union_of_disjoint apart,
    List.toFinset_card_of_nodup distinct, List.length_map, Nat.add_assoc, written_length]

end Block

/-! ## The run -/

namespace Game

/-- The block that `grid_block_add` adds in this step. -/
def lockedNow (game : Game) : List Block :=
  match game.point with
  | .lock _ .add => [game.current_block]
  | _ => []

/-- The rows that `grid_clear_lines` removes in this step. -/
def removedNow (game : Game) : List ℕ :=
  match game.point with
  | .lock _ .clear => [game.grid.clear_lines.2]
  | _ => []

variable (seed : BitVec 32) (inputs : ℕ → Input)

/-- The blocks locked so far. -/
def locked (n : ℕ) : List Block :=
  Clocked.logAt step (fun game _ => game.lockedNow) (start seed) inputs n

/-- The number of rows removed so far. -/
def removed (n : ℕ) : ℕ :=
  (Clocked.logAt step (fun game _ => game.removedNow) (start seed) inputs n).sum

/-- The number of cells above the top row that blocks had when they were locked. -/
def cutOff (n : ℕ) : ℕ := ((locked seed inputs n).map Block.above).sum

theorem handle_rows (game : Game) (input : Input) :
    (game.handle input).grid.rows = game.grid.rows := by
  cases input <;> rfl

theorem fall_rows (game : Game) : game.fall.grid.rows = game.grid.rows := by
  rw [fall]
  simp only
  split_ifs <;> rfl

/-- Only `grid_block_add` and `grid_clear_lines` change cells. -/
theorem step_rows {game : Game} (input : Input) (noAdd : ∀ path, game.point ≠ .lock path .add)
    (noClear : ∀ path, game.point ≠ .lock path .clear) :
    (game.step input).grid.rows = game.grid.rows := by
  unfold step
  cases place : game.point with
  | poll => exact handle_rows game input
  | lock path stage =>
    cases stage with
    | add => exact absurd place (noAdd path)
    | clear => exact absurd place (noClear path)
    | spawn | spawnNext | test => rfl
  | paused => cases input <;> rfl
  | handled =>
    simp only
    split_ifs
    · rfl
    · exact fall_rows game
  | softDropped | fallen | checked | halted => rfl

/-- One statement: cells come with a locked block, and go with removed rows. -/
theorem step_card {game : Game} (inv : game.Inv) (input : Input) :
    (game.step input).grid.occupied.card + GRID_WIDTH * game.removedNow.sum +
      (game.lockedNow.map Block.above).sum =
      game.grid.occupied.card + 4 * game.lockedNow.length := by
  have other : ∀ {point}, game.point = point → (∀ path, point ≠ .lock path .add) →
      (∀ path, point ≠ .lock path .clear) →
      (game.step input).grid.occupied.card = game.grid.occupied.card := fun place noAdd noClear =>
    congrArg Finset.card (Grid.occupied_congr (step_rows input (place ▸ noAdd) (place ▸ noClear)))
  rw [lockedNow, removedNow]
  cases place : game.point with
  | lock path stage =>
    cases stage with
    | add =>
      rw [Inv, place] at inv
      have added := Block.grid_block_add_card inv.2
      rw [step_lock place]
      simpa [lockStep] using added
    | clear =>
      have cleared := Grid.grid_clear_lines_card game.grid
      rw [step_lock place]
      simpa [lockStep] using cleared
    | spawn | spawnNext | test => exact other place (by simp) (by simp)
  | poll | softDropped | paused | handled | fallen | checked | halted =>
    exact other place (by simp) (by simp)

theorem cells_always (n : ℕ) :
    (stateAt seed inputs n).grid.occupied.card + GRID_WIDTH * removed seed inputs n +
      cutOff seed inputs n =
      4 * (locked seed inputs n).length := by
  induction n with
  | zero =>
    have empty : Grid.grid_init.occupied.card = 0 := by decide +kernel
    simpa [stateAt, start, removed, cutOff, locked] using empty
  | succ n inductionHypothesis =>
    have step := step_card (inv_always seed inputs n) (inputs n)
    rw [removed, cutOff, locked, Clocked.logAt_succ, Clocked.logAt_succ,
      List.sum_append, List.map_append, List.sum_append, List.length_append,
      ← removed, ← locked, ← cutOff]
    have next : stateAt seed inputs (n + 1) = (stateAt seed inputs n).step (inputs n) := rfl
    rw [next, Nat.mul_add, Nat.mul_add, ← inductionHypothesis]
    simp only [stateAt] at step ⊢
    omega

/-- Four cells for each locked block, less ten for each removed row, less those that were above the
    top row. -/
theorem cells_conserved (seed : BitVec 32) (inputs : ℕ → Input) (n : ℕ) :
    (stateAt seed inputs n).grid.occupied.card + 10 * removed seed inputs n + cutOff seed inputs n =
      4 * (locked seed inputs n).length := cells_always seed inputs n

/-- Nine hard drops, and a block that is turned above the stack: it is locked with a cell in row
    18. -/
theorem turned_above :
    let inputs := fun n => if n < 72 then Input.INPUT_HARD_DROP else Input.INPUT_ROTATE
    (stateAt 1#32 inputs 76).point = .lock .gravity .spawn ∧
      (stateAt 1#32 inputs 76).grid.occupied.card + 10 * removed 1#32 inputs 76 ≠
        4 * (locked 1#32 inputs 76).length := by
  decide +kernel

end Game

end MyCpu.Tetris
