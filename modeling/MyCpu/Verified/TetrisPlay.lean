import MyCpu.Lib.Clocked
import MyCpu.Software.Tetris

/-! # The block in play

Whatever is typed, the current block stays between the walls and above the floor, and clear of the
occupied cells. Only between `grid_block_add` and the test that follows it can it be in the way:
there its cells have just become part of the grid, or the next block has just been spawned. -/

namespace MyCpu.Tetris

/-! ## Collisions -/

/-- An occupied cell of the grid. -/
def Grid.Occupied (g : Grid) (cell : ℤ × ℤ) : Prop :=
  (0 ≤ cell.1 ∧ cell.1 < GRID_WIDTH ∧ 0 ≤ cell.2 ∧ cell.2 < GRID_HEIGHT) ∧
    (g.row cell.2.toNat).getLsbD cell.1.toNat = true

instance (g : Grid) (cell : ℤ × ℤ) : Decidable (g.Occupied cell) := instDecidableAnd

namespace Block

/-- Between the walls and above the floor. -/
def Inside (b : Block) : Prop := ∀ cell ∈ b.cells, 0 ≤ cell.1 ∧ cell.1 < GRID_WIDTH ∧ 0 ≤ cell.2

/-- Clear of the occupied cells. -/
def Free (b : Block) (g : Grid) : Prop := ∀ cell ∈ b.cells, ¬ g.Occupied cell

instance (b : Block) : Decidable b.Inside := List.decidableBAll _ _

instance (b : Block) (g : Grid) : Decidable (b.Free g) := List.decidableBAll _ _

/-- Where a block may be. -/
structure Fits (b : Block) (g : Grid) : Prop where
  inside : b.Inside
  free : b.Free g

variable {b : Block} {g : Grid}

/-- The score is not in the way. -/
theorem Fits.scored (fits : b.Fits g) (score : BitVec 32) : b.Fits { g with score } :=
  ⟨fits.inside, fits.free⟩

theorem check_cell_collision_iff (cell : ℤ × ℤ) :
    check_cell_collision g cell.1 cell.2 = false ↔
      (0 ≤ cell.1 ∧ cell.1 < GRID_WIDTH ∧ 0 ≤ cell.2) ∧ ¬ g.Occupied cell := by
  rw [check_cell_collision, Grid.Occupied]
  split_ifs with wall above
  · simp only [false_iff, not_and]
    omega
  · simp only [true_iff, not_and]
    omega
  · rw [Bool.eq_false_iff]
    constructor
    · intro empty
      exact ⟨by omega, fun occupied => empty occupied.2⟩
    · intro place occupied
      exact place.2 ⟨by omega, occupied⟩

theorem collides_iff : b.grid_block_collides g = false ↔ b.Fits g := by
  rw [grid_block_collides, List.any_eq_false]
  constructor
  · intro clear
    have each := fun cell member => (check_cell_collision_iff cell).mp
      (Bool.eq_false_iff.mpr (clear cell member))
    exact ⟨fun cell member => (each cell member).1, fun cell member => (each cell member).2⟩
  · intro fits cell member
    rw [Bool.not_eq_true, check_cell_collision_iff]
    exact ⟨fits.inside cell member, fits.free cell member⟩

/-- Every rotation of every shape. -/
theorem offsets_all {P : List (ℤ × ℤ) → Prop}
    (all : ∀ shape < 7, ∀ rot < 4, P ((SHAPES.getD shape []).getD rot []))
    (b : Block) : P b.offsets := by
  refine all _ ?_ _ ?_
  · by_cases unknown : NUM_SHAPES ≤ b.shape.toNat
    · rw [if_pos unknown]
      decide
    · rw [if_neg unknown]
      exact Nat.lt_of_not_le unknown
  · rw [BitVec.toNat_and]
    exact Nat.lt_succ_of_le Nat.and_le_right

/-! ## Moves -/

theorem moved_back (b : Block) (dir : Direction) : { b.moved dir with x := b.x, y := b.y } = b := by
  cases dir <;> rfl

theorem grid_block_move_false {dir : Direction} (stays : (b.grid_block_move g dir).1 = false) :
    (b.grid_block_move g dir).2 = b := by
  rw [grid_block_move] at stays ⊢
  split_ifs at stays with hit
  rw [if_pos hit]
  exact b.moved_back dir

theorem grid_block_move_fits (fits : b.Fits g) (dir : Direction) :
    (b.grid_block_move g dir).2.Fits g := by
  rw [grid_block_move]
  by_cases hit : (b.moved dir).grid_block_collides g = true
  · rw [if_pos hit, b.moved_back dir]
    exact fits
  · rw [if_neg hit]
    exact collides_iff.mp (Bool.eq_false_iff.mpr hit)

/-- The two wall kicks go one to the left, two to the right, and one to the left again. -/
theorem kicked_back (x : BitVec 8) : x - 1#8 + 2#8 - 1#8 = x := by
  bv_omega

theorem grid_block_rotate_false {amount : BitVec 32}
    (stays : (b.grid_block_rotate g amount).1 = false) :
    (b.grid_block_rotate g amount).2 = b := by
  rw [grid_block_rotate] at stays ⊢
  simp only at stays ⊢
  split_ifs at stays ⊢
  rw [kicked_back]

theorem grid_block_rotate_fits (fits : b.Fits g) (amount : BitVec 32) :
    (b.grid_block_rotate g amount).2.Fits g := by
  rw [grid_block_rotate]
  simp only
  split_ifs with hit hitLeft hitRight
  · exact collides_iff.mp (by simpa using hitLeft)
  · exact collides_iff.mp (by simpa using hitRight)
  · rw [kicked_back]
    exact fits
  · exact collides_iff.mp (Bool.eq_false_iff.mpr hit)

theorem grid_block_move_shape (b : Block) (g : Grid) (dir : Direction) :
    (b.grid_block_move g dir).2.shape = b.shape := by
  rw [grid_block_move]
  cases dir <;> split_ifs <;> rfl

theorem grid_block_rotate_shape (b : Block) (g : Grid) (amount : BitVec 32) :
    (b.grid_block_rotate g amount).2.shape = b.shape := by
  rw [grid_block_rotate]
  simp only
  split_ifs <;> rfl

/-! ## Drops -/

theorem lowered_back (y : BitVec 8) : y - 1#8 + 1#8 = y := by
  bv_omega

theorem drop_loop_fits (steps : ℕ) {amount : ℕ} (fits : b.Fits g) :
    (drop_loop g steps b amount).2.Fits g := by
  induction steps generalizing b amount with
  | zero => exact fits
  | succ steps inductionHypothesis =>
    rw [drop_loop]
    simp only
    split_ifs with hit
    · rw [lowered_back]
      exact fits
    · exact inductionHypothesis (collides_iff.mp (Bool.eq_false_iff.mpr hit))

theorem drop_loop_shape (g : Grid) (steps : ℕ) (b : Block) (amount : ℕ) :
    (drop_loop g steps b amount).2.shape = b.shape := by
  induction steps generalizing b amount with
  | zero => rfl
  | succ steps inductionHypothesis =>
    rw [drop_loop]
    simp only
    split_ifs
    · rfl
    · exact inductionHypothesis _ _

theorem grid_block_drop_shape (b : Block) (g : Grid) : (b.grid_block_drop g).2.shape = b.shape :=
  drop_loop_shape g _ b 0

theorem grid_block_drop_fits (fits : b.Fits g) : (b.grid_block_drop g).2.Fits g :=
  drop_loop_fits _ fits

/-- Every shape has a cell in its lowest row. -/
theorem below_floor (low : b.y.toInt < 0) : b.grid_block_collides g = true := by
  have bottom := offsets_all (P := fun offsets => ∃ offset ∈ offsets, offset.2 = 0) (by decide) b
  obtain ⟨offset, member, zero⟩ := bottom
  rw [← Bool.not_eq_false, collides_iff]
  intro fits
  have place := fits.inside _ (List.mem_map_of_mem member)
  simp only [zero] at place
  omega

theorem drop_loop_stops {steps : ℕ} {amount : ℕ} (enough : b.y.toNat < steps) :
    { (drop_loop g steps b amount).2 with y := (drop_loop g steps b amount).2.y -
      1#8 }.grid_block_collides g = true := by
  induction steps generalizing b amount with
  | zero => exact absurd enough (Nat.not_lt_zero _)
  | succ steps inductionHypothesis =>
    rw [drop_loop]
    simp only
    split_ifs with hit
    · simp only [lowered_back]
      exact hit
    · refine inductionHypothesis ?_
      -- a block that is still falling is above the floor
      have above : ¬ (b.y - 1#8).toInt < 0 := fun low => hit (below_floor low)
      simp only
      rw [BitVec.toInt_eq_toNat_cond] at above
      bv_omega

/-- After a drop the block lies on the floor or on occupied cells. -/
theorem grid_block_drop_stops (b : Block) (g : Grid) :
    { (b.grid_block_drop g).2 with y := (b.grid_block_drop g).2.y - 1#8 }.grid_block_collides g =
      true :=
  drop_loop_stops b.y.isLt

theorem spawn_inside (shape : BitVec 8) : (grid_block_spawn shape).Inside := by
  revert shape
  decide +kernel

end Block

/-! ## The bag -/

namespace Bag

/-- All entries are shapes, so that `SHAPE_COLORS` is only read inside its bounds. -/
def Known (bag : Bag) : Prop := ∀ i, (bag.get i).toNat < NUM_SHAPES

variable {bag : Bag}

theorem known_set {entries : Vector (BitVec 8) NUM_SHAPES} {shape : BitVec 8} {place : ℕ}
    (known : ∀ i : ℕ, (entries[i]?.getD 0#8).toNat < NUM_SHAPES)
    (shape_known : shape.toNat < NUM_SHAPES) (i : ℕ) :
    ((entries.setIfInBounds place shape)[i]?.getD 0#8).toNat < NUM_SHAPES := by
  rw [Vector.getElem?_setIfInBounds]
  split_ifs
  · exact shape_known
  · exact Nat.succ_pos _
  · exact known i

theorem known_exchange (known : bag.Known) (last : ℕ) : (bag.exchange last).Known := by
  intro i
  rw [exchange, get]
  simp only
  split_ifs
  · exact known_set (known_set known (known _)) (known _) i
  · exact known i

theorem known_shuffle (bag : Bag) : bag.shuffle_bag.Known := by
  have exchanged : ∀ (lasts : List ℕ) {bag : Bag}, bag.Known →
      (lasts.foldl exchange bag).Known := by
    intro lasts
    induction lasts with
    | nil => exact id
    | cons last lasts inductionHypothesis =>
      exact fun known => inductionHypothesis (known_exchange known last)
  refine exchanged _ fun i => ?_
  rw [get, Vector.getElem?_ofFn]
  split_ifs with inside
  · rw [Option.getD_some, BitVec.toNat_ofNat]
    exact Nat.lt_of_le_of_lt (Nat.mod_le _ _) inside
  · exact Nat.succ_pos _

theorem known_random (known : bag.Known) :
    bag.shape_random.1.toNat < NUM_SHAPES ∧ bag.shape_random.2.Known := by
  rw [shape_random]
  split_ifs
  · exact ⟨known_shuffle bag _, known_shuffle bag⟩
  · exact ⟨known _, known⟩

end Bag

/-! ## The run -/

namespace Point

/-- Between `grid_block_add` and the test of the block that is spawned after it. -/
def locking : Point → Bool
  | .lock _ .add => false
  | .lock _ _ => true
  | _ => false

end Point

namespace Game

/-- The game with the inputs read so far. -/
def stateAt (seed : BitVec 32) (inputs : ℕ → Input) (n : ℕ) : Game :=
  Clocked.stateAt step (start seed) inputs n

/-- What holds while the game goes on. -/
structure Playable (game : Game) : Prop where
  inside : game.game_state = .GAME_PLAYING → game.current_block.Inside
  free : game.game_state = .GAME_PLAYING → game.point.locking = false →
    game.current_block.Free game.grid
  /-- `grid_block_add` writes only cells that were empty. -/
  adds : ∀ path, game.point = .lock path .add → game.current_block.Free game.grid

/-- The game at each point of the loop. -/
def Inv (game : Game) : Prop :=
  match game.point with
  | .poll | .paused | .lock _ .add =>
    game.game_state = .GAME_PLAYING ∧ game.current_block.Fits game.grid
  | .lock _ _ => game.game_state = .GAME_PLAYING ∧ game.current_block.Inside
  | .softDropped | .handled | .fallen | .checked =>
    game.game_state = .GAME_OVER ∨ game.game_state = .GAME_PLAYING ∧
      game.current_block.Fits game.grid
  | .halted => game.game_state = .GAME_OVER

theorem Inv.playable {game : Game} (inv : game.Inv) : game.Playable := by
  rw [Inv] at inv
  cases place : game.point with
  | poll | paused =>
    rw [place] at inv
    exact ⟨fun _ => inv.2.inside, fun _ _ => inv.2.free,
      fun path adds => by rw [place] at adds; cases adds⟩
  | lock path stage =>
    rw [place] at inv
    cases stage with
    | add => exact ⟨fun _ => inv.2.inside, fun _ _ => inv.2.free, fun _ _ => inv.2.free⟩
    | clear | spawn | spawnNext | test =>
      refine ⟨fun _ => inv.2, fun _ other => ?_, fun path adds => by rw [place] at adds; cases adds⟩
      rw [place] at other
      cases other
  | softDropped | handled | fallen | checked =>
    rw [place] at inv
    refine ⟨fun playing => ?_, fun playing _ => ?_,
      fun path adds => by rw [place] at adds; cases adds⟩
    · cases inv with
      | inl ended => rw [ended] at playing; cases playing
      | inr goesOn => exact goesOn.2.inside
    · cases inv with
      | inl ended => rw [ended] at playing; cases playing
      | inr goesOn => exact goesOn.2.free
  | halted =>
    rw [place] at inv
    have ended : game.game_state ≠ .GAME_PLAYING := by
      rw [inv]
      decide
    exact ⟨fun playing => absurd playing ended, fun playing => absurd playing ended,
      fun path adds => by rw [place] at adds; cases adds⟩

section Steps

variable {game : Game}

theorem inv_handle (playing : game.game_state = .GAME_PLAYING)
    (fits : game.current_block.Fits game.grid)
    (input : Input) : (game.handle input).Inv := by
  cases input with
  | INPUT_NONE => exact .inr ⟨playing, fits⟩
  | INPUT_LEFT => exact .inr ⟨playing, Block.grid_block_move_fits fits _⟩
  | INPUT_RIGHT => exact .inr ⟨playing, Block.grid_block_move_fits fits _⟩
  | INPUT_ROTATE => exact .inr ⟨playing, Block.grid_block_rotate_fits fits _⟩
  | INPUT_SOFT_DROP =>
    have moved := Block.grid_block_move_fits fits .DIR_DOWN
    cases down : (game.current_block.grid_block_move game.grid .DIR_DOWN).1 with
    | true =>
      rw [handle, Inv]
      simp only [down, if_true]
      exact .inr ⟨playing, moved⟩
    | false =>
      rw [handle, Inv]
      simp only [down, Bool.false_eq_true, if_false]
      exact ⟨playing, moved⟩
  | INPUT_HARD_DROP => exact ⟨playing, (Block.grid_block_drop_fits fits).scored _⟩
  | INPUT_PAUSE => exact ⟨playing, fits⟩
  | INPUT_QUIT => exact .inl rfl

theorem inv_lockStep (path : LockPath) (stage : LockStage)
    (playing : game.game_state = .GAME_PLAYING)
    (inside : game.current_block.Inside) : (game.lockStep path stage).Inv := by
  cases stage with
  | add | clear | spawnNext => exact ⟨playing, inside⟩
  | spawn => exact ⟨playing, Block.spawn_inside _⟩
  | test =>
    have tested : (game.lockStep path .test).game_state = .GAME_OVER ∨
        (game.lockStep path .test).game_state = .GAME_PLAYING ∧
          (game.lockStep path .test).current_block.Fits (game.lockStep path .test).grid := by
      cases hit : game.current_block.grid_block_collides game.grid with
      | true => exact .inl (if_pos hit)
      | false =>
        exact .inr ⟨(if_neg (Bool.eq_false_iff.mp hit)).trans playing, Block.collides_iff.mp hit⟩
    cases path with
    | softDrop => exact tested
    | hardDrop => exact tested
    | gravity => exact tested

theorem inv_fall (playing : game.game_state = .GAME_PLAYING)
    (fits : game.current_block.Fits game.grid) :
    game.fall.Inv := by
  rw [fall]
  by_cases due : game.drop_interval ≤ game.soft_tick + 1#32 - game.last_drop_time
  · have moved := Block.grid_block_move_fits fits .DIR_DOWN
    simp only
    rw [if_pos due]
    cases down : (game.current_block.grid_block_move game.grid .DIR_DOWN).1 with
    | true => exact .inr ⟨playing, moved⟩
    | false => exact ⟨playing, moved⟩
  · simp only
    rw [if_neg due]
    exact .inr ⟨playing, fits⟩

theorem step_lock {path : LockPath} {stage : LockStage}
    (place : game.point = .lock path stage) (input : Input) :
    game.step input = game.lockStep path stage := by
  unfold step
  rw [place]

theorem inv_step (inv : game.Inv) (input : Input) : (game.step input).Inv := by
  rw [Inv] at inv
  unfold step
  cases place : game.point with
  | poll =>
    rw [place] at inv
    exact inv_handle inv.1 inv.2 input
  | lock path stage =>
    rw [place] at inv
    -- the block fits the grid until it is added, and stays inside it
    refine inv_lockStep path stage ?_ ?_
    · cases stage <;> exact inv.1
    · cases stage with
      | add => exact inv.2.inside
      | clear | spawn | spawnNext | test => exact inv.2
  | softDropped =>
    rw [place] at inv
    exact inv.imp id fun goesOn => ⟨goesOn.1, goesOn.2.scored _⟩
  | fallen =>
    rw [place] at inv
    exact inv
  | paused =>
    rw [place] at inv
    cases input with
    | INPUT_PAUSE =>
      simp only
      exact .inr inv
    | INPUT_QUIT =>
      simp only
      exact .inl rfl
    | INPUT_NONE | INPUT_LEFT | INPUT_RIGHT | INPUT_ROTATE | INPUT_SOFT_DROP | INPUT_HARD_DROP =>
      simp only
      rw [Inv, place]
      exact inv
  | handled =>
    rw [place] at inv
    simp only
    split_ifs with ended
    · exact ended
    · cases inv with
      | inl gameOver => exact absurd gameOver ended
      | inr goesOn => exact inv_fall goesOn.1 goesOn.2
  | checked =>
    rw [place] at inv
    simp only
    split_ifs with ended
    · exact ended
    · cases inv with
      | inl gameOver => exact absurd gameOver ended
      | inr goesOn => exact goesOn
  | halted =>
    rw [place] at inv
    rw [Inv]
    simp only [place]
    exact inv

end Steps

theorem fits_empty {block : Block} (inside : block.Inside) : block.Fits Grid.grid_init := by
  refine ⟨inside, fun cell _ occupied => ?_⟩
  have empty : ∀ y, Grid.grid_init.row y = 0#16 := by
    intro y
    rw [Grid.row, Grid.grid_init, Vector.getElem?_replicate]
    split_ifs <;> rfl
  have bit := occupied.2
  simp [empty] at bit

theorem inv_start (seed : BitVec 32) : (start seed).Inv := ⟨rfl, fits_empty (Block.spawn_inside _)⟩

theorem inv_always (seed : BitVec 32) (inputs : ℕ → Input) (n : ℕ) : (stateAt seed inputs n).Inv :=
  Clocked.invariant_always (inv_start seed) (fun _ input inv => inv_step inv input) n

/-- The two blocks have shapes from the bag. -/
structure Shaped (game : Game) : Prop where
  bag : game.bag.Known
  next : game.next_block.shape.toNat < NUM_SHAPES
  current : game.current_block.shape.toNat < NUM_SHAPES

theorem shaped_step {game : Game} (shaped : game.Shaped) (input : Input) :
    (game.step input).Shaped := by
  have same : ∀ {game' : Game}, game'.bag = game.bag → game'.next_block = game.next_block →
      game'.current_block.shape = game.current_block.shape → game'.Shaped := by
    intro game' bag next current
    exact ⟨bag ▸ shaped.bag, next ▸ shaped.next, current ▸ shaped.current⟩
  unfold step
  cases place : game.point with
  | poll =>
    cases input with
    | INPUT_LEFT | INPUT_RIGHT | INPUT_SOFT_DROP =>
      exact same rfl rfl (Block.grid_block_move_shape _ _ _)
    | INPUT_ROTATE => exact same rfl rfl (Block.grid_block_rotate_shape _ _ _)
    | INPUT_HARD_DROP => exact same rfl rfl (Block.grid_block_drop_shape _ _)
    | INPUT_NONE | INPUT_PAUSE | INPUT_QUIT => exact same rfl rfl rfl
  | lock path stage =>
    cases stage with
    | spawn => exact ⟨shaped.bag, shaped.next, shaped.next⟩
    | spawnNext =>
      have drawn := Bag.known_random shaped.bag
      exact ⟨drawn.2, drawn.1, shaped.current⟩
    | add | clear | test => exact same rfl rfl rfl
  | paused => cases input <;> exact same rfl rfl rfl
  | handled =>
    simp only
    split_ifs
    · exact same rfl rfl rfl
    · rw [fall]
      simp only
      by_cases due : game.drop_interval ≤ game.soft_tick + 1#32 - game.last_drop_time
      · rw [if_pos due]
        exact same rfl rfl (Block.grid_block_move_shape _ _ _)
      · rw [if_neg due]
        exact same rfl rfl rfl
  | softDropped | fallen | checked | halted => exact same rfl rfl rfl

theorem shaped_always (seed : BitVec 32) (inputs : ℕ → Input) (n : ℕ) :
    (stateAt seed inputs n).Shaped := by
  have filled := Bag.known_shuffle (Bag.my_srand ⟨12345#32, .replicate NUM_SHAPES 0#8, 0#8⟩ seed)
  have first := Bag.known_random filled
  have second := Bag.known_random first.2
  have started : (start seed).Shaped := ⟨second.2, second.1, first.1⟩
  exact @Clocked.invariant_always _ _ step Shaped _ inputs started
    (fun _ input shaped => shaped_step shaped input) n

/-- The block in play stays inside, and clear of the grid but for a block that is being locked. -/
theorem play_invariant (seed : BitVec 32) (inputs : ℕ → Input) :
    (∀ n, (stateAt seed inputs n).Playable) ∧
      (∀ (b : Block) (g : Grid) (dir : Direction),
        (b.grid_block_move g dir).1 = false → (b.grid_block_move g dir).2 = b) ∧
      ∀ (b : Block) (g : Grid) (amount : BitVec 32),
        (b.grid_block_rotate g amount).1 = false → (b.grid_block_rotate g amount).2 = b :=
  ⟨fun n => (inv_always seed inputs n).playable, fun _ _ _ => Block.grid_block_move_false,
    fun _ _ _ => Block.grid_block_rotate_false⟩

/-- A hard drop in the first round: when its cells have been added to the grid, the game still goes
    on. -/
theorem locked_in_the_way :
    (stateAt 1#32 (fun _ => .INPUT_HARD_DROP) 2).game_state = .GAME_PLAYING ∧
      ¬ (stateAt 1#32 (fun _ => .INPUT_HARD_DROP) 2).current_block.Free
        (stateAt 1#32 (fun _ => .INPUT_HARD_DROP) 2).grid := by
  decide +kernel

end Game

end MyCpu.Tetris
