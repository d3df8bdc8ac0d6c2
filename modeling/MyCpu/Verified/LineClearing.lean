import MyCpu.Lib.Compaction
import MyCpu.Verified.TetrisCells

/-! # Cleared lines

`grid_clear_lines` compacts the rows in place: it keeps the rows that are not full, in their order,
and fills up with empty ones.  The counters take the number of full rows. -/

namespace MyCpu.Tetris

namespace Grid

/-- A row with its colours. -/
abbrev Line := BitVec 16 × Vector (BitVec 8) GRID_WIDTH

namespace Line

/-- The test of `grid_row_full`. -/
def full (line : Line) : Bool := line.1 &&& full_mask = full_mask

/-- A row without occupied cells. -/
def empty : Line := (0#16, .replicate GRID_WIDTH COLOR_BLACK)

theorem empty_not_full : empty.full = false := by
  decide

end Line

/-- The rows from the bottom to the top. -/
def lines (g : Grid) : List Line :=
  List.ofFn fun y : Fin GRID_HEIGHT => (g.row y.val, g.colorsOf y.val)

/-- The number of full rows. -/
def fullRows (g : Grid) : ℕ := g.lines.countP Line.full

variable {g : Grid}

theorem lines_length : g.lines.length = GRID_HEIGHT := List.length_ofFn

theorem lines_inside {y : ℕ} (inside : y < GRID_HEIGHT) :
    g.lines[y]? = some (g.row y, g.colorsOf y) := by
  rw [lines, List.getElem?_ofFn, dif_pos inside]

theorem lines_outside {y : ℕ} (outside : GRID_HEIGHT ≤ y) : g.lines[y]? = none :=
  List.getElem?_eq_none (lines_length.trans_le outside)

theorem line_full {y : ℕ} (inside : y < GRID_HEIGHT) :
    Line.full (g.row y, g.colorsOf y) = g.grid_row_full y := by
  rw [grid_row_full, decide_eq_true inside, Bool.true_and]
  rfl

/-! ## The loop -/

theorem remove_row_colors (row y : ℕ) (inside : y < GRID_HEIGHT) :
    (g.remove_row row).colorsOf y =
      if y = GRID_HEIGHT - 1 then .replicate GRID_WIDTH COLOR_BLACK
      else if row ≤ y then g.colorsOf (y + 1) else g.colorsOf y := by
  rw [colorsOf, remove_row, Vector.getElem?_ofFn, dif_pos inside]
  rfl

/-- Below the removed row nothing moves, above it every row goes down by one. -/
theorem remove_row_lines {row : ℕ} (inside : row < GRID_HEIGHT) :
    (g.remove_row row).lines = Compaction.takeOut Line.empty g.lines row := by
  refine List.ext_getElem? fun y => ?_
  have length : (g.lines.eraseIdx row).length = GRID_HEIGHT - 1 := by
    rw [List.length_eraseIdx_of_lt (lines_length.symm ▸ inside), lines_length]
  rw [Compaction.takeOut]
  by_cases below : y < GRID_HEIGHT
  · rw [lines_inside below, remove_row_row row y below, remove_row_colors row y below]
    by_cases top : y = GRID_HEIGHT - 1
    · rw [if_pos top, if_pos top, List.getElem?_append_right (by omega), length, top, Nat.sub_self]
      rfl
    · rw [if_neg top, if_neg top, List.getElem?_append_left (by omega), List.getElem?_eraseIdx]
      by_cases moved : row ≤ y
      · rw [if_pos moved, if_pos moved, if_neg (Nat.not_lt.mpr moved), lines_inside (by omega)]
      · rw [if_neg moved, if_neg moved, if_pos (Nat.lt_of_not_le moved), lines_inside below]
  · rw [lines_outside (Nat.le_of_not_lt below), List.getElem?_eq_none]
    rw [List.length_append, length, List.length_singleton]
    omega

/-- The loop is the scan of the compaction. -/
theorem clear_lines_loop_scan (steps : ℕ) (g : Grid) (y cleared : ℕ) :
    ((clear_lines_loop steps g y cleared).1.lines, (clear_lines_loop steps g y cleared).2) =
      Compaction.scan Line.full Line.empty steps g.lines y cleared := by
  induction steps generalizing g y cleared with
  | zero => rfl
  | succ steps inductionHypothesis =>
    rw [clear_lines_loop, Compaction.scan]
    by_cases more : y < GRID_HEIGHT
    · rw [if_pos more, lines_inside more]
      simp only [line_full more]
      by_cases full : g.grid_row_full y = true
      · rw [if_pos full, if_pos full, ← remove_row_lines more]
        exact inductionHypothesis _ _ _
      · rw [if_neg full, if_neg full]
        exact inductionHypothesis _ _ _
    · rw [if_neg more, lines_outside (Nat.le_of_not_lt more)]

theorem clear_lines_loop_lines (g : Grid) {steps : ℕ} (enough : 2 * GRID_HEIGHT ≤ steps) :
    (clear_lines_loop steps g 0 0).1.lines =
        g.lines.filter (fun line => !line.full) ++ List.replicate g.fullRows Line.empty ∧
      (clear_lines_loop steps g 0 0).2 = g.fullRows := by
  have scanned := clear_lines_loop_scan steps g 0 0
  rw [Compaction.scan_filters Line.empty_not_full g.lines (lines_length.symm ▸ enough)] at scanned
  exact ⟨congrArg Prod.fst scanned, congrArg Prod.snd scanned⟩

theorem clear_lines_loop_none (none : ∀ y, g.grid_row_full y = false) (steps y cleared : ℕ) :
    clear_lines_loop steps g y cleared = (g, cleared) := by
  induction steps generalizing y with
  | zero => rfl
  | succ steps inductionHypothesis =>
    rw [clear_lines_loop, none y]
    simp only [Bool.false_eq_true, if_false, inductionHypothesis, ite_self]

/-- The loop changes rows and colours only. -/
theorem clear_lines_loop_frame (steps : ℕ) (g : Grid) (y cleared : ℕ) :
    clear_lines_loop steps g y cleared =
      ({ g with
          rows := (clear_lines_loop steps g y cleared).1.rows
          colors := (clear_lines_loop steps g y cleared).1.colors },
            (clear_lines_loop steps g y cleared).2) := by
  induction steps generalizing g y cleared with
  | zero => rfl
  | succ steps inductionHypothesis =>
    rw [clear_lines_loop]
    split_ifs
    · have frame := inductionHypothesis (g.remove_row y) y (cleared + 1)
      generalize clear_lines_loop steps (g.remove_row y) y (cleared + 1) = last at frame ⊢
      simp only [remove_row] at frame
      exact frame
    · exact inductionHypothesis _ _ _
    · rfl

theorem lines_injective {g g' : Grid} (same : g.lines = g'.lines) :
    g.rows = g'.rows ∧ g.colors = g'.colors := by
  have each : ∀ y : ℕ, ∀ inside : y < GRID_HEIGHT, g.rows[y] = g'.rows[y] ∧
      g.colors[y] = g'.colors[y] := by
    intro y inside
    have line := congrArg (fun lines => lines[y]?) same
    simp only [lines_inside inside, Option.some.injEq, Prod.mk.injEq, row, colorsOf,
      Vector.getElem?_eq_getElem inside, Option.getD_some] at line
    exact line
  exact ⟨Vector.ext fun y inside => (each y inside).1, Vector.ext fun y inside => (each y inside).2⟩

/-- The loop ends within two steps for each row: more steps leave the same. -/
theorem clear_lines_loop_ends (g : Grid) {steps : ℕ} (enough : 2 * GRID_HEIGHT ≤ steps) :
    clear_lines_loop steps g 0 0 = g.clear_lines := by
  have ended := clear_lines_loop_lines g enough
  have cleared := clear_lines_loop_lines g (Nat.le_refl _)
  have same := lines_injective (ended.1.trans cleared.1.symm)
  rw [clear_lines, clear_lines_loop_frame steps, clear_lines_loop_frame (2 * GRID_HEIGHT),
    same.1, same.2, ended.2, cleared.2]

/-! ## The counters -/

theorem clear_lines_cleared (g : Grid) : g.clear_lines.2 = g.fullRows :=
  (clear_lines_loop_lines g (Nat.le_refl _)).2

theorem row_full_line {y : ℕ} (full : g.grid_row_full y = true) : 0 < g.fullRows := by
  have inside := (grid_row_full_bits full).1
  exact List.countP_pos_iff.mpr
    ⟨_, List.mem_of_getElem? (lines_inside inside), (line_full inside).trans full⟩

/-- Without a full row there is nothing to do. -/
theorem grid_clear_lines_none (none : g.fullRows = 0) : g.grid_clear_lines = (g, 0) := by
  have notFull : ∀ y, g.grid_row_full y = false := by
    intro y
    rw [← Bool.not_eq_true]
    exact fun full => absurd none (Nat.ne_of_gt (row_full_line full))
  have unchanged : g.clear_lines = (g, 0) := clear_lines_loop_none notFull _ _ _
  rw [grid_clear_lines, unchanged]
  exact if_neg (Nat.lt_irrefl 0)

/-- The grid behind the loop. -/
def counted (g : Grid) : Grid :=
  let lines_cleared := g.lines_cleared + .ofNat 16 g.fullRows
  let level := BitVec.ofNat 8 (1 + lines_cleared.toNat / 10)
  { g with
    lines_cleared
    score := g.score + SCORE_TABLE.getD (min g.fullRows 4) 0#32 * g.level.zeroExtend 32
    level := if 20#8 < level then 20#8 else level }

theorem grid_clear_lines_some (some : 0 < g.fullRows) :
    g.grid_clear_lines =
      (recalc_relief { g.counted with rows := g.clear_lines.1.rows, colors := g.clear_lines.1.colors },
        min g.fullRows 4) := by
  have capped : (if 4 < g.fullRows then 4 else g.fullRows) = min g.fullRows 4 := by
    split_ifs <;> omega
  have loop : g.clear_lines =
      ({ g with rows := g.clear_lines.1.rows, colors := g.clear_lines.1.colors }, g.fullRows) :=
    (clear_lines_loop_frame _ _ _ _).trans (congrArg _ (clear_lines_cleared g))
  rw [grid_clear_lines]
  generalize g.clear_lines = cleared at loop ⊢
  rw [loop]
  simp only [if_pos some, capped]
  rfl

theorem lines_congr {g' : Grid} (rows : g'.rows = g.rows) (colors : g'.colors = g.colors) :
    g'.lines = g.lines := by
  simp only [lines, row, colorsOf, rows, colors]

theorem cleared_lines (g : Grid) :
    g.grid_clear_lines.1.lines =
      g.lines.filter (fun line => !line.full) ++ List.replicate g.fullRows Line.empty := by
  cases Nat.eq_zero_or_pos g.fullRows with
  | inl none =>
    have stay : ∀ line ∈ g.lines, (!line.full) = true := fun line member => by
      simpa using List.countP_eq_zero.mp none line member
    rw [grid_clear_lines_none none, none, List.filter_eq_self.mpr stay,
      List.replicate_zero, List.append_nil]
  | inr some =>
    rw [grid_clear_lines_some some, ← (clear_lines_loop_lines g (Nat.le_refl _)).1]
    exact lines_congr rfl rfl

theorem cleared_count (g : Grid) :
    g.grid_clear_lines.1.lines_cleared = g.lines_cleared + .ofNat 16 g.fullRows := by
  cases Nat.eq_zero_or_pos g.fullRows with
  | inl none =>
    rw [grid_clear_lines_none none, none]
    exact (BitVec.add_zero _).symm
  | inr some =>
    rw [grid_clear_lines_some some]
    rfl

/-- The rows that are not full stay in their order, below empty ones, and the counters take the full
    ones. -/
theorem grid_clear_lines_filters (g : Grid) :
    (∀ steps, 2 * GRID_HEIGHT ≤ steps → clear_lines_loop steps g 0 0 = g.clear_lines) ∧
      g.grid_clear_lines.1.lines =
        g.lines.filter (fun line => !line.full) ++ List.replicate g.fullRows Line.empty ∧
      g.grid_clear_lines.1.lines_cleared = g.lines_cleared + .ofNat 16 g.fullRows ∧
      g.grid_clear_lines.1.score =
        g.score + SCORE_TABLE.getD (min g.fullRows 4) 0#32 * g.level.zeroExtend 32 ∧
      ((∀ y, g.grid_row_full y = false) → g.grid_clear_lines.1 = g) := by
  refine ⟨fun steps enough => clear_lines_loop_ends g enough, ?_⟩
  cases Nat.eq_zero_or_pos g.fullRows with
  | inl none =>
    have stay : ∀ line ∈ g.lines, (!line.full) = true := by
      intro line member
      simpa using List.countP_eq_zero.mp none line member
    rw [grid_clear_lines_none none, none, List.filter_eq_self.mpr stay]
    simp [SCORE_TABLE]
  | inr some =>
    rw [grid_clear_lines_some some]
    refine ⟨?_, rfl, rfl, fun none => ?_⟩
    · rw [← (clear_lines_loop_lines g (Nat.le_refl _)).1]
      exact lines_congr rfl rfl
    · obtain ⟨line, member, full⟩ := List.countP_pos_iff.mp some
      obtain ⟨y, rfl⟩ := List.mem_ofFn.mp member
      rw [line_full y.isLt, none] at full
      cases full

end Grid

end MyCpu.Tetris
