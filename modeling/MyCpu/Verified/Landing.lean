import MyCpu.Verified.TetrisPlay

/-! # Landing

`grid_block_drop`, repeated moves down and `draw_ghost` look for the same place: the block goes down
row by row as long as it is clear.  It stops on the floor at the latest, so the three loops end. -/

namespace MyCpu.Tetris.Block

open Loop (run whileRound)

/-- One row lower. -/
def lower (b : Block) : Block := { b with y := b.y - 1#8 }

/-- The block falls by so many rows to its landing place: it is clear all the way, and not one row
    below. -/
inductive Lands (g : Grid) : Block → ℕ → Block → Prop
  | here {b : Block} (clear : b.grid_block_collides g = false)
      (rests : b.lower.grid_block_collides g = true) :
    Lands g b 0 b
  | further {b landed : Block} {distance : ℕ} (clear : b.grid_block_collides g = false)
    (falls : Lands g b.lower distance landed) : Lands g b (distance + 1) landed

variable {g : Grid} {b landed : Block} {distance : ℕ}

theorem lower_back (b : Block) : { b.lower with y := b.lower.y + 1#8 } = b := by
  have back := lowered_back b.y
  simp only [lower, back]

/-! ## The landing place -/

theorem clear_above_floor (clear : b.grid_block_collides g = false) : b.y.toNat < 128 := by
  have high : ¬ b.y.toInt < 0 := fun low => by
    rw [below_floor low] at clear
    cases clear
  rw [BitVec.toInt_eq_toNat_cond] at high
  omega

/-- Every block that is clear lands, within its height. -/
theorem lands_of_clear (clear : b.grid_block_collides g = false) :
    ∃ distance landed, Lands g b distance landed ∧ distance ≤ b.y.toNat := by
  generalize height : b.y.toNat = rows
  induction rows generalizing b with
  | zero =>
    have floor : b.lower.y.toInt < 0 := by
      have zero : b.y = 0#8 := BitVec.eq_of_toNat_eq height
      rw [lower, zero]
      exact (by decide : (0#8 - 1#8).toInt < 0)
    exact ⟨0, b, .here clear (below_floor floor), Nat.le_refl 0⟩
  | succ rows inductionHypothesis =>
    cases rests : b.lower.grid_block_collides g with
    | true => exact ⟨0, b, .here clear rests, Nat.zero_le _⟩
    | false =>
      have next : b.lower.y.toNat = rows := by
        rw [lower]
        bv_omega
      obtain ⟨distance, landed, falls, near⟩ := inductionHypothesis rests next
      exact ⟨distance + 1, landed, .further clear falls, Nat.succ_le_succ near⟩

theorem Lands.clear (lands : Lands g b distance landed) : b.grid_block_collides g = false := by
  cases lands with
  | here clear rests => exact clear
  | further clear falls => exact clear

theorem Lands.landed_clear (lands : Lands g b distance landed) :
    landed.grid_block_collides g = false := by
  induction lands with
  | here clear rests => exact clear
  | further clear falls inductionHypothesis => exact inductionHypothesis

theorem Lands.landed_rests (lands : Lands g b distance landed) :
    landed.lower.grid_block_collides g = true := by
  induction lands with
  | here clear rests => exact rests
  | further clear falls inductionHypothesis => exact inductionHypothesis

theorem Lands.place (lands : Lands g b distance landed) : landed =
    { b with y := b.y - BitVec.ofNat 8 distance } := by
  induction lands with
  | here clear rests => simp
  | @further b landed distance clear falls inductionHypothesis =>
    have sum : b.y - 1#8 - BitVec.ofNat 8 distance = b.y - BitVec.ofNat 8 (distance + 1) := by
      rw [BitVec.ofNat_add]
      bv_omega
    rw [inductionHypothesis, lower]
    simp only [sum]

/-! ## The three loops -/

theorem Lands.drop (lands : Lands g b distance landed) {steps amount : ℕ}
    (enough : distance < steps) :
    drop_loop g steps b amount = (amount + distance, landed) := by
  induction lands generalizing steps amount with
  | here clear rests =>
    obtain ⟨steps, rfl⟩ := Nat.exists_eq_succ_of_ne_zero (Nat.ne_of_gt enough)
    rw [drop_loop]
    exact (if_pos rests).trans (congrArg _ (lower_back _))
  | @further b landed distance clear falls inductionHypothesis =>
    obtain ⟨steps, rfl⟩ := Nat.exists_eq_succ_of_ne_zero (show steps ≠ 0 by omega)
    rw [drop_loop]
    refine (if_neg (Bool.eq_false_iff.mp falls.clear)).trans ?_
    rw [← lower, inductionHypothesis (Nat.lt_of_succ_lt_succ enough)]
    congr 1
    omega

/-- Moves down until one fails, with the number of those that did not. -/
def moveDownRound (g : Grid) (state : Block × ℕ) : Option (Loop.Outcome (Block × ℕ) (ℕ × Block)) :=
  let (moved, block) := state.1.grid_block_move g .DIR_DOWN
  some (if moved then .again (block, state.2 + 1) else .stop (state.2, block))

theorem moveDown_clear {count : ℕ} (clear : b.lower.grid_block_collides g = false) :
    moveDownRound g (b, count) = some (.again (b.lower, count + 1)) := by
  have moved : b.grid_block_move g .DIR_DOWN = (true, b.lower) :=
    if_neg (Bool.eq_false_iff.mp clear)
  rw [moveDownRound, moved]
  rfl

theorem moveDown_rests {count : ℕ} (rests : b.lower.grid_block_collides g = true) :
    moveDownRound g (b, count) = some (.stop (count, b)) := by
  have stays : b.grid_block_move g .DIR_DOWN = (false, b) := if_pos rests
  rw [moveDownRound, stays]
  rfl

theorem Lands.moves (lands : Lands g b distance landed) {rounds count : ℕ}
    (enough : distance < rounds) :
    run (moveDownRound g) rounds (b, count) = some (count + distance, landed) := by
  induction lands generalizing rounds count with
  | here clear rests =>
    obtain ⟨rounds, rfl⟩ := Nat.exists_eq_succ_of_ne_zero (Nat.ne_of_gt enough)
    exact Loop.run_stop (moveDown_rests rests)
  | @further b landed distance clear falls inductionHypothesis =>
    obtain ⟨rounds, rfl⟩ := Nat.exists_eq_succ_of_ne_zero (show rounds ≠ 0 by omega)
    rw [Loop.run_again (moveDown_clear falls.clear), inductionHypothesis
      (Nat.lt_of_succ_lt_succ enough)]
    congr 2
    omega

theorem Lands.ghost (lands : Lands g b distance landed) {rounds : ℕ}
    (enough : distance + 1 < rounds) :
    run (whileRound (fun ghost : Block => !ghost.grid_block_collides g) lower) rounds b =
      some landed.lower := by
  induction lands generalizing rounds with
  | here clear rests =>
    obtain ⟨rounds, rfl⟩ := Nat.exists_eq_add_of_le (show 2 ≤ rounds from enough)
    rw [Nat.add_comm 2, Loop.run_again (Loop.whileRound_again (by rw [clear]; rfl)),
      Loop.run_stop (Loop.whileRound_stop (by rw [rests]; rfl))]
  | further clear falls inductionHypothesis =>
    obtain ⟨rounds, rfl⟩ := Nat.exists_eq_succ_of_ne_zero (show rounds ≠ 0 by omega)
    rw [Loop.run_again (Loop.whileRound_again (by rw [clear]; rfl)),
      inductionHypothesis (Nat.lt_of_succ_lt_succ enough)]

/-- The three computations end, at the same place: there the block is clear, and one row lower it is
    not. -/
theorem landings_agree (clear : b.grid_block_collides g = false) :
    ∃ distance, ∃ landed : Block, landed = { b with y := b.y - BitVec.ofNat 8 distance } ∧
      b.grid_block_drop g = (distance, landed) ∧
      (∀ steps, 256 ≤ steps → drop_loop g steps b 0 = (distance, landed)) ∧
      (∀ rounds, 256 ≤ rounds → run (moveDownRound g) rounds (b, 0) = some (distance, landed)) ∧
      b.draw_ghost g = some landed ∧
      landed.grid_block_collides g = false ∧
      { landed with y := landed.y - 1#8 }.grid_block_collides g = true := by
  obtain ⟨distance, landed, lands, near⟩ := lands_of_clear clear
  have low := clear_above_floor clear
  have dropped : ∀ steps, 256 ≤ steps → drop_loop g steps b 0 = (distance, landed) := by
    intro steps enough
    rw [lands.drop (by omega), Nat.zero_add]
  have moved : ∀ rounds, 256 ≤ rounds → run (moveDownRound g) rounds (b, 0) =
      some (distance, landed) := by
    intro rounds enough
    rw [lands.moves (by omega), Nat.zero_add]
  have ghost : b.draw_ghost g = some landed := by
    have below := lands.ghost (show distance + 1 < 256 by omega)
    rw [draw_ghost]
    exact (congrArg _ below).trans (congrArg some (lower_back landed))
  exact ⟨distance, landed, lands.place, dropped 256 (Nat.le_refl _), dropped, moved,
    ghost, lands.landed_clear, lands.landed_rests⟩

/-- A square falls from the top of the empty grid. -/
theorem square_lands :
    ∃ landed : Block, (grid_block_spawn 0#8).grid_block_drop Grid.grid_init = (16, landed) ∧
      (grid_block_spawn 0#8).draw_ghost Grid.grid_init = some landed ∧
      landed.grid_block_collides Grid.grid_init = false := by
  obtain ⟨distance, landed, _, dropped, _, _, ghost, clear, _⟩ :=
    @landings_agree Grid.grid_init (grid_block_spawn 0#8) (by decide +kernel)
  have rows : ((grid_block_spawn 0#8).grid_block_drop Grid.grid_init).1 = 16 := by decide +kernel
  rw [dropped] at rows
  exact ⟨landed, by rw [dropped, ← rows], ghost, clear⟩

end MyCpu.Tetris.Block
