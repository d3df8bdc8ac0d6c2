import MyCpu.Verified.LineClearing

/-! # The level

The level follows the number of cleared lines.  It is stored in eight bits before it is bounded by
20, so that it falls back to 0 when 2550 lines have been cleared. -/

namespace MyCpu.Tetris.Grid

/-! ## Locked blocks -/

/-- A block is locked and the full rows are cleared. -/
def lockAndClear (g : Grid) (b : Block) : Grid := (b.grid_block_add g).grid_clear_lines.1

/-- The grid after a sequence of blocks. -/
def afterLocks (g : Grid) (blocks : List Block) : Grid := blocks.foldl lockAndClear g

/-- The number of rows that have been full, as an unbounded number. -/
def clearedBy : Grid → List Block → ℕ
  | _, [] => 0
  | g, b :: blocks => (b.grid_block_add g).fullRows + clearedBy (g.lockAndClear b) blocks

/-- One level for each ten lines, and 20 at most. -/
def LevelLaw (g : Grid) : Prop := g.level.toNat = min 20 (1 + g.lines_cleared.toNat / 10)

instance (g : Grid) : Decidable g.LevelLaw := inferInstanceAs (Decidable (_ = _))

variable {g : Grid}

theorem grid_set_cell_counters (g : Grid) (x y : ℤ) (color : BitVec 8) :
    (g.grid_set_cell x y color).lines_cleared = g.lines_cleared ∧
      (g.grid_set_cell x y color).level = g.level := by
  rw [grid_set_cell]
  split_ifs <;> exact ⟨rfl, rfl⟩

theorem grid_block_add_counters (b : Block) (g : Grid) :
    (b.grid_block_add g).lines_cleared = g.lines_cleared ∧
      (b.grid_block_add g).level = g.level := by
  rw [Block.grid_block_add]
  induction b.cells generalizing g with
  | nil => exact ⟨rfl, rfl⟩
  | cons cell cells inductionHypothesis =>
    rw [List.foldl_cons]
    split_ifs
    · have set := grid_set_cell_counters g cell.1 cell.2 b.color
      have rest := inductionHypothesis (g.grid_set_cell cell.1 cell.2 b.color)
      exact ⟨rest.1.trans set.1, rest.2.trans set.2⟩
    · exact inductionHypothesis g

/-! ## The stored level -/

/-- What `grid_clear_lines` makes of the number of lines. -/
def levelOf (lines_cleared : BitVec 16) : BitVec 8 :=
  let level := BitVec.ofNat 8 (1 + lines_cleared.toNat / 10)
  if 20#8 < level then 20#8 else level

theorem levelOf_toNat (lines_cleared : BitVec 16) :
    (levelOf lines_cleared).toNat = min 20 ((1 + lines_cleared.toNat / 10) % 256) := by
  have bound := Nat.mod_lt (1 + lines_cleared.toNat / 10) (show 0 < 256 by decide)
  rw [levelOf]
  simp only [BitVec.lt_def, BitVec.toNat_ofNat]
  split_ifs with high
  · simp only [BitVec.toNat_ofNat] at high ⊢
    omega
  · simp only [BitVec.toNat_ofNat] at high ⊢
    omega

theorem grid_clear_lines_level (follows : g.level = levelOf g.lines_cleared) :
    g.grid_clear_lines.1.level = levelOf g.grid_clear_lines.1.lines_cleared := by
  cases Nat.eq_zero_or_pos g.fullRows with
  | inl none => rwa [grid_clear_lines_none none]
  | inr some =>
    rw [grid_clear_lines_some some]
    rfl

theorem lockAndClear_level (follows : g.level = levelOf g.lines_cleared) (b : Block) :
    (g.lockAndClear b).level = levelOf (g.lockAndClear b).lines_cleared := by
  have kept := grid_block_add_counters b g
  refine grid_clear_lines_level ?_
  rw [kept.1, kept.2]
  exact follows

theorem afterLocks_level (follows : g.level = levelOf g.lines_cleared) (blocks : List Block) :
    (g.afterLocks blocks).level = levelOf (g.afterLocks blocks).lines_cleared := by
  induction blocks generalizing g with
  | nil => exact follows
  | cons b blocks inductionHypothesis => exact inductionHypothesis (lockAndClear_level follows b)

/-! ## The number of lines -/

theorem fullRows_le (g : Grid) : g.fullRows ≤ GRID_HEIGHT :=
  List.countP_le_length.trans_eq lines_length

theorem afterLocks_lines (g : Grid) (blocks : List Block) :
    (g.afterLocks blocks).lines_cleared =
      g.lines_cleared + BitVec.ofNat 16 (g.clearedBy blocks) := by
  induction blocks generalizing g with
  | nil => exact (BitVec.add_zero _).symm
  | cons b blocks inductionHypothesis =>
    have cleared := cleared_count (b.grid_block_add g)
    have step : (g.lockAndClear b).lines_cleared =
        g.lines_cleared + BitVec.ofNat 16 (b.grid_block_add g).fullRows := by
      rw [lockAndClear, cleared, (grid_block_add_counters b g).1]
    rw [afterLocks, List.foldl_cons, ← afterLocks, inductionHypothesis, step,
      clearedBy, BitVec.ofNat_add, BitVec.add_assoc]

theorem clearedBy_append (g : Grid) (blocks more : List Block) :
    g.clearedBy (blocks ++ more) = g.clearedBy blocks + (g.afterLocks blocks).clearedBy more := by
  induction blocks generalizing g with
  | nil => exact (Nat.zero_add _).symm
  | cons b blocks inductionHypothesis =>
    rw [List.cons_append, clearedBy, clearedBy, inductionHypothesis, Nat.add_assoc]
    rfl

theorem clearedBy_take_mono (g : Grid) (blocks : List Block) {m n : ℕ} (before : m ≤ n) :
    g.clearedBy (blocks.take m) ≤ g.clearedBy (blocks.take n) := by
  obtain ⟨more, rfl⟩ := Nat.exists_eq_add_of_le before
  rw [List.take_add, clearedBy_append]
  exact Nat.le_add_right _ _

theorem clearedBy_take_le (g : Grid) (blocks : List Block) (n : ℕ) :
    g.clearedBy (blocks.take n) ≤ g.clearedBy blocks := by
  conv_rhs => rw [← List.take_append_drop n blocks, clearedBy_append]
  exact Nat.le_add_right _ _

/-- A single block fills at most all rows. -/
theorem clearedBy_take_succ (g : Grid) (blocks : List Block) (n : ℕ) :
    g.clearedBy (blocks.take (n + 1)) ≤ g.clearedBy (blocks.take n) + GRID_HEIGHT := by
  rw [List.take_add, clearedBy_append]
  refine Nat.add_le_add_left ?_ _
  cases blocks.drop n with
  | nil => exact Nat.zero_le _
  | cons b more => exact fullRows_le _

/-! ## Whole games -/

theorem initial_level : grid_init.level = levelOf grid_init.lines_cleared := by
  decide

/-- The level in numbers, as long as the counter of the lines has not wrapped. -/
theorem afterLocks_level_toNat (blocks : List Block) (range : grid_init.clearedBy blocks < 2 ^ 16) :
    (grid_init.afterLocks blocks).lines_cleared.toNat = grid_init.clearedBy blocks ∧
      (grid_init.afterLocks blocks).level.toNat =
        min 20 ((1 + grid_init.clearedBy blocks / 10) % 256) := by
  have lines : (grid_init.afterLocks blocks).lines_cleared.toNat = grid_init.clearedBy blocks := by
    rw [afterLocks_lines]
    simp only [grid_init, BitVec.zero_add, BitVec.toNat_ofNat]
    exact Nat.mod_eq_of_lt range
  exact ⟨lines, by rw [afterLocks_level initial_level, levelOf_toNat, lines]⟩

theorem levelLaw_below {blocks : List Block} (below : grid_init.clearedBy blocks < 2550) :
    (grid_init.afterLocks blocks).LevelLaw := by
  obtain ⟨lines, level⟩ := afterLocks_level_toNat blocks (by omega)
  rw [LevelLaw, lines, level]
  omega

/-- The level is then 0 or 1 again. -/
theorem levelLaw_fails {blocks : List Block} (reached : 2550 ≤ grid_init.clearedBy blocks)
    (near : grid_init.clearedBy blocks < 2570) : ¬ (grid_init.afterLocks blocks).LevelLaw := by
  obtain ⟨lines, level⟩ := afterLocks_level_toNat blocks (by omega)
  rw [LevelLaw, lines, level]
  omega

/-- No lock takes more rows than the grid has, so a game cannot jump over the numbers where the
    level is wrong. -/
theorem passes_limit {blocks : List Block} (reached : 2550 ≤ grid_init.clearedBy blocks) :
    ∃ n, 2550 ≤ grid_init.clearedBy (blocks.take n) ∧
      grid_init.clearedBy (blocks.take n) < 2570 := by
  have some : ∃ n, 2550 ≤ grid_init.clearedBy (blocks.take n) :=
    ⟨blocks.length, by rwa [List.take_length]⟩
  classical
  refine ⟨Nat.find some, Nat.find_spec some, ?_⟩
  cases first : Nat.find some with
  | zero =>
    have none : grid_init.clearedBy (blocks.take 0) = 0 := rfl
    omega
  | succ n =>
    have before : ¬ 2550 ≤ grid_init.clearedBy (blocks.take n) :=
      Nat.find_min some (first.symm ▸ Nat.lt_succ_self n)
    have step := clearedBy_take_succ grid_init blocks n
    simp only [GRID_HEIGHT] at step
    omega

/-- The level is right in the whole game exactly if the game clears fewer than 2550 lines; then it
    never falls and stays between 1 and 20. -/
theorem levelLaw_iff (blocks : List Block) :
    ((∀ n, grid_init.clearedBy (blocks.take n) < 2 ^ 16 →
      (grid_init.afterLocks (blocks.take n)).LevelLaw) ↔
        grid_init.clearedBy blocks < 2550) ∧
      (grid_init.clearedBy blocks < 2550 → ∀ m n, m ≤ n →
        (grid_init.afterLocks (blocks.take m)).level ≤
          (grid_init.afterLocks (blocks.take n)).level ∧
          1#8 ≤ (grid_init.afterLocks (blocks.take n)).level ∧
          (grid_init.afterLocks (blocks.take n)).level ≤ 20#8) := by
  refine ⟨⟨fun law => Nat.lt_of_not_le fun reached => ?_, fun below n _ => ?_⟩,
    fun below m n before => ?_⟩
  · obtain ⟨n, passed, near⟩ := passes_limit reached
    exact levelLaw_fails passed near (law n (by omega))
  · exact levelLaw_below (Nat.lt_of_le_of_lt (clearedBy_take_le grid_init blocks n) below)
  · have bound := clearedBy_take_le grid_init blocks n
    have mono := clearedBy_take_mono grid_init blocks before
    obtain ⟨_, level⟩ := afterLocks_level_toNat (blocks.take m) (by omega)
    obtain ⟨_, level'⟩ := afterLocks_level_toNat (blocks.take n) (by omega)
    simp only [BitVec.le_def, level, level', BitVec.toNat_ofNat]
    omega

/-! ## A long game -/

section SameLines

variable {g' : Grid}

theorem grid_set_cell_lines (same : g.lines = g'.lines) (x y : ℤ) (color : BitVec 8) :
    (g.grid_set_cell x y color).lines = (g'.grid_set_cell x y color).lines := by
  obtain ⟨rows, colors⟩ := lines_injective same
  rw [grid_set_cell, grid_set_cell]
  split_ifs
  · exact same
  all_goals exact lines_congr (by simp only [row, rows]) (by simp only [colorsOf, colors])

theorem grid_block_add_lines (same : g.lines = g'.lines) (b : Block) :
    (b.grid_block_add g).lines = (b.grid_block_add g').lines := by
  rw [Block.grid_block_add, Block.grid_block_add]
  induction b.cells generalizing g g' with
  | nil => exact same
  | cons cell cells inductionHypothesis =>
    rw [List.foldl_cons, List.foldl_cons]
    split_ifs
    · exact inductionHypothesis (grid_set_cell_lines same _ _ _)
    · exact inductionHypothesis same

/-- Where a game goes depends on rows and colours only. -/
theorem clearedBy_congr (same : g.lines = g'.lines) (blocks : List Block) :
    g.clearedBy blocks = g'.clearedBy blocks ∧ (g.afterLocks blocks).lines =
      (g'.afterLocks blocks).lines := by
  induction blocks generalizing g g' with
  | nil => exact ⟨rfl, same⟩
  | cons b blocks inductionHypothesis =>
    have added := grid_block_add_lines same b
    have full : (b.grid_block_add g).fullRows = (b.grid_block_add g').fullRows :=
      congrArg (List.countP Line.full) added
    have cleared : (g.lockAndClear b).lines = (g'.lockAndClear b).lines := by
      rw [lockAndClear, lockAndClear, cleared_lines, cleared_lines, added, full]
    obtain ⟨count, rest⟩ := inductionHypothesis cleared
    exact ⟨by rw [clearedBy, clearedBy, full, count], rest⟩

end SameLines

/-- Five squares side by side on the floor. -/
def squares : List Block := [0#8, 2#8, 4#8, 6#8, 8#8].map fun x => ⟨x, 0#8, 0#8, 0#8, 2#8⟩

theorem squares_clear :
    grid_init.clearedBy squares = 2 ∧ (grid_init.afterLocks squares).lines = grid_init.lines := by
  decide +kernel

/-- Each round of squares clears the two rows that it fills. -/
theorem squares_rounds (rounds : ℕ) (bare : g.lines = grid_init.lines) :
    g.clearedBy (List.replicate rounds squares).flatten = 2 * rounds := by
  induction rounds generalizing g with
  | zero => rfl
  | succ rounds inductionHypothesis =>
    obtain ⟨count, lines⟩ := clearedBy_congr bare squares
    rw [List.replicate_succ, List.flatten_cons, clearedBy_append, count, squares_clear.1,
      inductionHypothesis (lines.trans squares_clear.2)]
    omega

def longGame : List Block := (List.replicate 1275 squares).flatten

/-- 2550 lines are cleared, and the level is 0 and not 20. -/
theorem longGame_level :
    grid_init.clearedBy longGame = 2550 ∧ (grid_init.afterLocks longGame).level = 0#8 ∧
      ¬ (grid_init.afterLocks longGame).LevelLaw := by
  have rounds : grid_init.clearedBy longGame = 2550 := squares_rounds 1275 rfl
  obtain ⟨_, level⟩ := afterLocks_level_toNat longGame (rounds.trans_lt (by decide))
  refine ⟨rounds, BitVec.eq_of_toNat_eq ?_, levelLaw_fails (Nat.le_of_eq rounds.symm)
    (rounds.trans_lt (by decide))⟩
  rw [level, rounds]
  rfl

end MyCpu.Tetris.Grid
