import Mathlib.Data.Nat.Notation
import Mathlib.Data.Int.Notation
import MyCpu.Lib.Loop

/-! # Tetris

The grid, the blocks and the bag of shapes, and the loop of `main` as a machine: its states stand
between the statements of the loop, and one step is one of them.  What only draws or prints is left
out. -/

namespace MyCpu.Tetris

def GRID_WIDTH : ℕ := 10

def GRID_HEIGHT : ℕ := 18

def NUM_SHAPES : ℕ := 7

/-! ## Shapes -/

/-- The cells of a shape in each rotation, as columns and rows. -/
def SHAPES : List (List (List (ℤ × ℤ))) :=
  [ [ [(0, 0), (1, 0), (0, 1), (1, 1)],
      [(0, 0), (1, 0), (0, 1), (1, 1)],
      [(0, 0), (1, 0), (0, 1), (1, 1)],
      [(0, 0), (1, 0), (0, 1), (1, 1)]],
    [ [(0, 1), (1, 1), (2, 1), (1, 0)],
      [(1, 0), (1, 1), (1, 2), (0, 1)],
      [(0, 0), (1, 0), (2, 0), (1, 1)],
      [(0, 0), (0, 1), (0, 2), (1, 1)]],
    [ [(0, 0), (1, 0), (2, 0), (3, 0)],
      [(0, 0), (0, 1), (0, 2), (0, 3)],
      [(0, 0), (1, 0), (2, 0), (3, 0)],
      [(0, 0), (0, 1), (0, 2), (0, 3)]],
    [ [(0, 0), (0, 1), (1, 0), (2, 0)],
      [(0, 0), (1, 0), (1, 1), (1, 2)],
      [(0, 1), (1, 1), (2, 1), (2, 0)],
      [(0, 0), (0, 1), (0, 2), (1, 2)]],
    [ [(0, 0), (1, 0), (2, 0), (2, 1)],
      [(0, 2), (1, 0), (1, 1), (1, 2)],
      [(0, 0), (0, 1), (1, 1), (2, 1)],
      [(0, 0), (0, 1), (0, 2), (1, 0)]],
    [ [(0, 0), (1, 0), (1, 1), (2, 1)],
      [(0, 1), (0, 2), (1, 0), (1, 1)],
      [(0, 0), (1, 0), (1, 1), (2, 1)],
      [(0, 1), (0, 2), (1, 0), (1, 1)]],
    [ [(0, 1), (1, 1), (1, 0), (2, 0)],
      [(0, 0), (0, 1), (1, 1), (1, 2)],
      [(0, 1), (1, 1), (1, 0), (2, 0)],
      [(0, 0), (0, 1), (1, 1), (1, 2)]]]

def SHAPE_NUM_ROTATIONS : List (BitVec 8) := [1#8, 4#8, 2#8, 4#8, 4#8, 2#8, 2#8]

/-- The width and the height of a shape in each rotation. -/
def SHAPE_DIMENSIONS : List (List (BitVec 8 × BitVec 8)) :=
  [ [(2#8, 2#8), (2#8, 2#8), (2#8, 2#8), (2#8, 2#8)],
    [(3#8, 2#8), (2#8, 3#8), (3#8, 2#8), (2#8, 3#8)],
    [(4#8, 1#8), (1#8, 4#8), (4#8, 1#8), (1#8, 4#8)],
    [(3#8, 2#8), (2#8, 3#8), (3#8, 2#8), (2#8, 3#8)],
    [(3#8, 2#8), (2#8, 3#8), (3#8, 2#8), (2#8, 3#8)],
    [(3#8, 2#8), (2#8, 3#8), (3#8, 2#8), (2#8, 3#8)],
    [(3#8, 2#8), (2#8, 3#8), (3#8, 2#8), (2#8, 3#8)]]

/-- Yellow, purple, cyan, blue, orange, green and red. -/
def SHAPE_COLORS : List (BitVec 8) := [2#8, 3#8, 1#8, 6#8, 7#8, 4#8, 5#8]

def shape_dimensions (shape rot : BitVec 8) : BitVec 8 × BitVec 8 :=
  if NUM_SHAPES ≤ shape.toNat then (2#8, 2#8)
  else (SHAPE_DIMENSIONS.getD shape.toNat []).getD (rot &&& 3#8).toNat (0#8, 0#8)

def shape_get_width (shape rot : BitVec 8) : BitVec 8 := (shape_dimensions shape rot).1

def shape_get_height (shape rot : BitVec 8) : BitVec 8 := (shape_dimensions shape rot).2

def shape_num_rotations (shape : BitVec 8) : BitVec 8 :=
  if NUM_SHAPES ≤ shape.toNat then 1#8 else SHAPE_NUM_ROTATIONS.getD shape.toNat 0#8

/-! ## The bag -/

/-- The static variables of `tetris_shape.c`. -/
structure Bag where
  rand_state : BitVec 32
  bag : Vector (BitVec 8) NUM_SHAPES
  bag_pos : BitVec 8
deriving DecidableEq, Repr

namespace Bag

def get (bag : Bag) (i : ℕ) : BitVec 8 := bag.bag[i]?.getD 0#8

/-- The new `rand_state`, which is also returned. -/
def my_rand (rand_state : BitVec 32) : BitVec 32 :=
  let first := rand_state ^^^ rand_state <<< 13
  let second := first ^^^ first >>> 17
  second ^^^ second <<< 5

def my_srand (bag : Bag) (seed : BitVec 32) : Bag :=
  { bag with rand_state := if seed ≠ 0#32 then seed else 12345#32 }

/-- One of the exchanges of `shuffle_bag`: entry `last` and a random one up to it. -/
def exchange (bag : Bag) (last : ℕ) : Bag :=
  let rnd := my_rand bag.rand_state
  let j := rnd.toNat % (last + 1)
  { bag with
    rand_state := rnd
    bag :=
      if j ≠ last then (bag.bag.setIfInBounds last (bag.get j)).setIfInBounds j
        (bag.get last) else bag.bag }

def shuffle_bag (bag : Bag) : Bag :=
  let ordered := { bag with bag := Vector.ofFn fun i => BitVec.ofNat 8 i }
  { [6, 5, 4, 3, 2, 1].foldl exchange ordered with bag_pos := 0#8 }

def shape_init (bag : Bag) : Bag := bag.shuffle_bag

def shape_random (bag : Bag) : BitVec 8 × Bag :=
  let bag := if NUM_SHAPES ≤ bag.bag_pos.toNat then bag.shuffle_bag else bag
  (bag.get bag.bag_pos.toNat, { bag with bag_pos := bag.bag_pos + 1#8 })

end Bag

/-! ## The grid -/

structure Grid where
  rows : Vector (BitVec 16) GRID_HEIGHT
  colors : Vector (Vector (BitVec 8) GRID_WIDTH) GRID_HEIGHT
  relief : Vector (BitVec 8) GRID_WIDTH
  lines_cleared : BitVec 16
  score : BitVec 32
  level : BitVec 8
deriving DecidableEq, Repr

namespace Grid

def COLOR_BLACK : BitVec 8 := 0#8

variable (g : Grid)

def row (y : ℕ) : BitVec 16 := g.rows[y]?.getD 0#16

def colorsOf (y : ℕ) : Vector (BitVec 8) GRID_WIDTH :=
  g.colors[y]?.getD (.replicate GRID_WIDTH COLOR_BLACK)

/-- `grid_init`, `grid_clear` included. -/
def grid_init : Grid where
  rows := .replicate GRID_HEIGHT 0#16
  colors := .replicate GRID_HEIGHT (.replicate GRID_WIDTH COLOR_BLACK)
  relief := .replicate GRID_WIDTH (-1#8)
  lines_cleared := 0#16
  score := 0#32
  level := 1#8

def grid_clear : Grid :=
  { g with
    rows := .replicate GRID_HEIGHT 0#16
    colors := .replicate GRID_HEIGHT (.replicate GRID_WIDTH COLOR_BLACK)
    relief := .replicate GRID_WIDTH (-1#8) }

def grid_set_cell (x y : ℤ) (color : BitVec 8) : Grid :=
  if x < 0 ∨ GRID_WIDTH ≤ x ∨ y < 0 ∨ GRID_HEIGHT ≤ y then g
  else
    { g with
      rows := g.rows.setIfInBounds y.toNat (g.row y.toNat ||| 1#16 <<< x.toNat)
      colors := g.colors.setIfInBounds y.toNat ((g.colorsOf y.toNat).setIfInBounds x.toNat color)
      relief :=
        if (g.relief[x.toNat]?.getD 0#8).toInt < y then g.relief.setIfInBounds x.toNat
          (.ofInt 8 y) else g.relief }

/-- `relief` stays as it is. -/
def grid_clear_cell (x y : ℤ) : Grid :=
  if x < 0 ∨ GRID_WIDTH ≤ x ∨ y < 0 ∨ GRID_HEIGHT ≤ y then g
  else
    { g with
      rows := g.rows.setIfInBounds y.toNat (g.row y.toNat &&& ~~~(1#16 <<< x.toNat))
      colors := g.colors.setIfInBounds y.toNat
        ((g.colorsOf y.toNat).setIfInBounds x.toNat COLOR_BLACK) }

def full_mask : BitVec 16 := 1#16 <<< GRID_WIDTH - 1#16

def grid_row_full (y : ℕ) : Bool := y < GRID_HEIGHT && g.row y &&& full_mask = full_mask

/-- The rows above `row` move down by one. -/
def remove_row (row : ℕ) : Grid :=
  { g with
    rows := .ofFn fun y => if y.val = GRID_HEIGHT - 1 then 0#16 else if row ≤ y.val then
      g.row (y.val + 1) else g.row y.val
    colors := .ofFn fun y =>
      if y.val = GRID_HEIGHT - 1 then .replicate GRID_WIDTH COLOR_BLACK
      else if row ≤ y.val then g.colorsOf (y.val + 1) else g.colorsOf y.val }

def recalc_relief : Grid :=
  { g with
    relief := .ofFn fun x =>
      match (List.range GRID_HEIGHT).reverse.find? fun y => (g.row y).getLsbD x.val with
      | some y => .ofNat 8 y
      | none => -1#8 }

/-- The loop of `grid_clear_lines`, with `cleared`. -/
def clear_lines_loop : ℕ → Grid → ℕ → ℕ → Grid × ℕ
  | 0, g, _, cleared => (g, cleared)
  | steps + 1, g, y, cleared =>
    if y < GRID_HEIGHT then
      if g.grid_row_full y then clear_lines_loop steps (g.remove_row y) y (cleared + 1)
      else clear_lines_loop steps g (y + 1) cleared
    else (g, cleared)

/-- After the loop; it takes at most two steps for each row. -/
def clear_lines : Grid × ℕ := clear_lines_loop (2 * GRID_HEIGHT) g 0 0

def SCORE_TABLE : List (BitVec 32) := [0#32, 40#32, 100#32, 300#32, 1200#32]

def grid_clear_lines : Grid × ℕ :=
  let (g, cleared) := g.clear_lines
  if 0 < cleared then
    let lines_cleared := g.lines_cleared + .ofNat 16 cleared
    let cleared := if 4 < cleared then 4 else cleared
    let level := BitVec.ofNat 8 (1 + lines_cleared.toNat / 10)
    (recalc_relief
      { g with
        lines_cleared
        score := g.score + SCORE_TABLE.getD cleared 0#32 * g.level.zeroExtend 32
        level := if 20#8 < level then 20#8 else level }, cleared)
  else (g, cleared)

end Grid

/-! ## Blocks -/

structure Block where
  x : BitVec 8
  y : BitVec 8
  shape : BitVec 8
  rot : BitVec 8
  color : BitVec 8
deriving DecidableEq, Repr

inductive Direction where
  | DIR_DOWN
  | DIR_LEFT
  | DIR_UP
  | DIR_RIGHT
deriving DecidableEq, Repr

namespace Block

variable (b : Block) (g : Grid)

/-- The four cells relative to the position. -/
def offsets : List (ℤ × ℤ) :=
  (SHAPES.getD (if NUM_SHAPES ≤ b.shape.toNat then 0 else b.shape.toNat) []).getD
    (b.rot &&& 3#8).toNat []

/-- `(gx0, gy0)` to `(gx3, gy3)`. -/
def cells : List (ℤ × ℤ) := b.offsets.map fun offset => (b.x.toInt + offset.1, b.y.toInt + offset.2)

def check_cell_collision (gx gy : ℤ) : Bool :=
  if gx < 0 ∨ GRID_WIDTH ≤ gx ∨ gy < 0 then true
  else if GRID_HEIGHT ≤ gy then false
  else (g.row gy.toNat).getLsbD gx.toNat

def grid_block_collides : Bool := b.cells.any fun cell => check_cell_collision g cell.1 cell.2

def grid_block_add : Grid :=
  b.cells.foldl (fun (g : Grid) (cell : ℤ × ℤ) =>
    if 0 ≤ cell.1 ∧ cell.1 < GRID_WIDTH ∧ 0 ≤ cell.2 ∧ cell.2 < GRID_HEIGHT then
      g.grid_set_cell cell.1 cell.2 b.color
    else g) g

/-- The loop of `grid_block_drop`, with `drop_amount`. -/
def drop_loop : ℕ → Block → ℕ → ℕ × Block
  | 0, b, drop_amount => (drop_amount, b)
  | steps + 1, b, drop_amount =>
    let lower := { b with y := b.y - 1#8 }
    if lower.grid_block_collides g then (drop_amount, { lower with y := lower.y + 1#8 })
    else drop_loop steps lower (drop_amount + 1)

/-- No block falls through more rows than there are values of `y`. -/
def grid_block_drop : ℕ × Block := drop_loop g 256 b 0

def moved (dir : Direction) : Block :=
  match dir with
  | .DIR_LEFT => { b with x := b.x - 1#8 }
  | .DIR_RIGHT => { b with x := b.x + 1#8 }
  | .DIR_DOWN => { b with y := b.y - 1#8 }
  | .DIR_UP => { b with y := b.y + 1#8 }

def grid_block_move (dir : Direction) : Bool × Block :=
  if (b.moved dir).grid_block_collides g then (false, { b.moved dir with x := b.x, y := b.y })
  else (true, b.moved dir)

/-- The landing place that `draw_ghost` looks for; it is outlined unless it is the place of the
    block. -/
def draw_ghost : Option Block :=
  (Loop.run (Loop.whileRound (fun ghost : Block => !ghost.grid_block_collides g) fun ghost =>
    { ghost with y := ghost.y - 1#8 }) 256 b).map fun ghost => { ghost with y := ghost.y + 1#8 }

def grid_block_rotate (amount : BitVec 32) : Bool × Block :=
  let num_rots := (shape_num_rotations b.shape).zeroExtend 32
  let rotated := { b with rot := ((b.rot.zeroExtend 32 + amount + num_rots) % num_rots).truncate 8 }
  if rotated.grid_block_collides g then
    let left := { rotated with x := rotated.x - 1#8 }
    if !left.grid_block_collides g then (true, left)
    else
      let right := { left with x := left.x + 2#8 }
      if !right.grid_block_collides g then (true, right)
      else (false, { right with x := right.x - 1#8, rot := b.rot })
  else (true, rotated)

/-- `grid_block_spawn`, which sets all members of the block. -/
def grid_block_spawn (shape : BitVec 8) : Block where
  shape
  rot := 0#8
  color := SHAPE_COLORS.getD shape.toNat 0#8
  x := .ofInt 8 ((GRID_WIDTH - (shape_get_width shape 0#8).toNat : ℤ) / 2)
  y := .ofInt 8 (GRID_HEIGHT - (shape_get_height shape 0#8).toNat)

end Block

/-! ## The loop -/

inductive GameState where
  | GAME_PLAYING
  | GAME_PAUSED
  | GAME_OVER
deriving DecidableEq, Repr

/-- What `input_poll` returns. -/
inductive Input where
  | INPUT_NONE
  | INPUT_LEFT
  | INPUT_RIGHT
  | INPUT_ROTATE
  | INPUT_SOFT_DROP
  | INPUT_HARD_DROP
  | INPUT_PAUSE
  | INPUT_QUIT
deriving DecidableEq, Repr

/-- The three places of the loop where a block is locked. -/
inductive LockPath where
  | softDrop
  | hardDrop
  | gravity
deriving DecidableEq, Repr

/-- The statement of such a place that comes next: `grid_block_add`, `grid_clear_lines`, the two
    calls of `grid_block_spawn` or the last `grid_block_collides`. -/
inductive LockStage where
  | add
  | clear
  | spawn
  | spawnNext
  | test
deriving DecidableEq, Repr

/-- A point of the loop. -/
inductive Point where
  /-- Before `input_poll`. -/
  | poll
  | lock (path : LockPath) (stage : LockStage)
  /-- Behind the soft drop, before its bonus. -/
  | softDropped
  /-- In the loop that waits for `p` or `q`. -/
  | paused
  /-- The first check for the end of the game. -/
  | handled
  /-- Behind the fall by one row, before `last_drop_time` is set. -/
  | fallen
  /-- The second check. -/
  | checked
  /-- Behind the loop. -/
  | halted
deriving DecidableEq, Repr

/-- The static variables of `tetris.c` and `tetris_shape.c`. -/
structure Game where
  grid : Grid
  current_block : Block
  next_block : Block
  bag : Bag
  game_state : GameState
  soft_tick : BitVec 32
  last_drop_time : BitVec 32
  drop_interval : BitVec 32
  point : Point
deriving DecidableEq, Repr

namespace Game

open Block (grid_block_spawn)

variable (game : Game)

/-- One statement of a place where the block is locked; the three places differ in when
    `last_drop_time` is set and in what follows. -/
def lockStep (path : LockPath) : LockStage → Game
  | .add => { game with grid := game.current_block.grid_block_add game.grid, point := .lock path .clear }
  | .clear => { game with grid := game.grid.grid_clear_lines.1, point := .lock path .spawn }
  | .spawn => { game with current_block := grid_block_spawn game.next_block.shape, point := .lock path .spawnNext }
  | .spawnNext =>
    { game with
      next_block := grid_block_spawn game.bag.shape_random.1
      bag := game.bag.shape_random.2
      last_drop_time := if path = .hardDrop then game.soft_tick else game.last_drop_time
      point := .lock path .test }
  | .test =>
    { game with
      game_state := if game.current_block.grid_block_collides game.grid then
        .GAME_OVER else game.game_state
      point :=
        match path with
        | .softDrop => .softDropped
        | .hardDrop => .handled
        | .gravity => .fallen }

/-- What is done with an input. -/
def handle : Input → Game
  | .INPUT_LEFT => { game with current_block := (game.current_block.grid_block_move game.grid .DIR_LEFT).2, point := .handled }
  | .INPUT_RIGHT =>
    { game with current_block := (game.current_block.grid_block_move game.grid .DIR_RIGHT).2, point := .handled }
  | .INPUT_ROTATE =>
    { game with current_block := (game.current_block.grid_block_rotate game.grid 1#32).2, point := .handled }
  | .INPUT_SOFT_DROP =>
    let (down, block) := game.current_block.grid_block_move game.grid .DIR_DOWN
    { game with current_block := block, point := if down then .softDropped
      else .lock .softDrop .add }
  | .INPUT_HARD_DROP =>
    let (drop_dist, block) := game.current_block.grid_block_drop game.grid
    { game with
      current_block := block
      grid := { game.grid with score := game.grid.score + .ofNat 32 (drop_dist * 2) }
      point := .lock .hardDrop .add }
  | .INPUT_PAUSE => { game with point := .paused }
  | .INPUT_QUIT => { game with game_state := .GAME_OVER, point := .handled }
  | .INPUT_NONE => { game with point := .handled }

/-- The fall by one row when its time has come. -/
def fall : Game :=
  let soft_tick := game.soft_tick + 1#32
  if game.drop_interval ≤ soft_tick - game.last_drop_time then
    let (down, block) := game.current_block.grid_block_move game.grid .DIR_DOWN
    { game with soft_tick, current_block := block, point := if down then .fallen
      else .lock .gravity .add }
  else { game with soft_tick, point := .checked }

/-- One statement of the loop; only the two calls of `input_poll` use the input. -/
def step (input : Input) : Game :=
  match game.point with
  | .poll => game.handle input
  | .lock path stage => game.lockStep path stage
  | .softDropped =>
    { game with
      grid := { game.grid with score := game.grid.score + 1#32 }, last_drop_time :=
        game.soft_tick, point := .handled }
  | .paused =>
    match input with
    | .INPUT_PAUSE => { game with last_drop_time := game.soft_tick, point := .handled }
    | .INPUT_QUIT => { game with game_state := .GAME_OVER, point := .handled }
    | _ => game
  | .handled => if game.game_state = .GAME_OVER then { game with point := .halted } else game.fall
  | .fallen => { game with last_drop_time := game.soft_tick, point := .checked }
  | .checked => { game with point := if game.game_state = .GAME_OVER then .halted else .poll }
  | .halted => game

/-- `main` up to its loop, with the seed that it has made of the first key. -/
def start (seed : BitVec 32) : Game :=
  let bag := (Bag.my_srand ⟨12345#32, .replicate NUM_SHAPES 0#8, 0#8⟩ seed).shape_init
  let (shape, bag) := bag.shape_random
  let (next_shape, bag) := bag.shape_random
  { grid := Grid.grid_init
    current_block := grid_block_spawn shape
    next_block := grid_block_spawn next_shape
    bag
    game_state := .GAME_PLAYING
    soft_tick := 0#32
    last_drop_time := 0#32
    drop_interval := 2#32
    point := .poll }

end Game

end MyCpu.Tetris
