import MyCpu.Lib.Painting
import MyCpu.Software.VgaUpload

/-! # The T-Rex game

`draw.c` and `play.c`: the pictures, the physics and the loop of `run_trex`, with the registers and
the framebuffer of the VGA.  `Scored` adds the score and the texts for the UART, which nothing else
depends on. -/

namespace MyCpu.TRex

open VgaUpload (RegisterWrite streamWrites streamFrom)

/-! ## Pictures -/

/-- The two pictures of the running dinosaur, each row from the left. -/
def dino_shape : List (List Byte) :=
  [ [0b00011100#8, 0b00011111#8, 0b00011000#8, 0b10011110#8, 0b11111100#8, 0b01111100#8,
  0b00100000#8, 0b00110000#8],
    [0b00011100#8, 0b00011111#8, 0b00011000#8, 0b10011110#8, 0b11111100#8, 0b01111100#8,
    0b00001000#8, 0b00001100#8]]

def die_shape : List Byte :=
  [0b00111100#8, 0b01111110#8, 0b11011011#8, 0b11011011#8, 0b11111111#8, 0b00111100#8,
  0b00100100#8, 0b00111100#8]

def dino_shape_setdown : List (List Byte) :=
  [ [0b00000000#8, 0b00000000#8, 0b00000000#8, 0b00000000#8, 0b10001110#8, 0b11111111#8,
  0b11111000#8, 0b01000000#8],
    [0b00000000#8, 0b00000000#8, 0b00000000#8, 0b00000000#8, 0b10001110#8, 0b11111111#8,
    0b11111000#8, 0b00010000#8]]

def cactus_shape_mini : List Byte := [0b01100000#8, 0b11110000#8, 0b01100000#8, 0b01100000#8]

/-- `vga_framebuffer` -/
abbrev Canvas := ℕ → Byte

/-- Bit `7 - col` of a row of the picture. -/
def shown (shape : List Byte) (row col : ℕ) : Bool := (shape.getD row 0#8).getLsbD (7 - col)

/-- A cell `(row, col)` of the picture is drawn: it is shown and lies on the canvas. -/
def drawn (shape : List Byte) (x y : ℤ) (cell : ℕ × ℕ) : Bool :=
  let px := x + cell.2
  let py := y + cell.1
  shown shape cell.1 cell.2 && 0 ≤ px && px < 64 && 0 ≤ py && py < 64

/-- `py * 64 + px` -/
def address (x y : ℤ) (cell : ℕ × ℕ) : ℕ := ((y + cell.1) * 64 + (x + cell.2)).toNat

/-- The loops of the `place_` functions, over the rows and columns of a square picture. -/
def place (shape : List Byte) (size : ℕ) (x y : ℤ) (color : Byte) : Canvas → Canvas :=
  Painting.paint (drawn shape x y) (address x y) color ((List.range size).product (List.range size))

def place_cactus (x y : ℤ) (color : Byte) : Canvas → Canvas := place cactus_shape_mini 4 x y color

def place_dino (x y : ℤ) (color : Byte) (body_picture : ℕ) : Canvas → Canvas :=
  place (dino_shape.getD body_picture []) 8 x y color

def place_dino_setdown (x y : ℤ) (color : Byte) (body_picture : ℕ) : Canvas → Canvas :=
  place (dino_shape_setdown.getD body_picture []) 8 x y color

def place_die : Canvas → Canvas := place die_shape 8 28 50 3#8

def draw_horizon (color : Byte) (y_position : ℤ) (vga_framebuffer : Canvas) : Canvas :=
  Painting.paint (fun _ => true)
    (fun x : ℕ => ((y_position + 1) * 64 + 4 * x).toNat) 2#8 (List.range 16)
    (Painting.paint (fun _ => decide (0 ≤ y_position ∧ y_position < 64))
      (fun x : ℕ => (y_position * 64 + x).toNat)
      color (List.range 64) vga_framebuffer)

def draw_cleanup_buffers (vga_framebuffer : Canvas) : Canvas :=
  fun i => if 28 * 64 ≤ i ∧ i < 58 * 64 then 0#8 else vga_framebuffer i

/-! ## The game -/

/-- The variables of `run_trex`, the framebuffer in memory, and the VGA. `body_picture` counts
    without a bound. -/
structure Game where
  vga_framebuffer : Canvas
  vga : VgaStore
  dino_y : ℤ
  y_velocity : ℤ
  body_picture : ℕ
  setdown_times : ℤ
  cactus_x : ℤ

def GROUND_Y : ℤ := 50

def JUMP_IMPULSE : ℤ := -6

def GRAVITY : ℤ := 1

def dino_x : ℤ := 5

def cactus_y : ℤ := 54

namespace Game

variable (game : Game)

def send (writes : List RegisterWrite) : Game :=
  { game with vga := writes.foldl VgaStore.write game.vga }

/-- All bytes are cleared first; the upload starts where `UPLOAD_ADDR` points to. -/
def draw_init_buffers : Game :=
  let vga_framebuffer :=
    draw_horizon 2#8 58 fun i => if i < 4096 then 0#8 else game.vga_framebuffer i
  { game with vga_framebuffer }.send (streamWrites vga_framebuffer 512)

def draw_swap_buffers : Game :=
  game.send ((VgaReg.UPLOAD_ADDR, 0#32) :: streamWrites game.vga_framebuffer 512 ++
    [(VgaReg.CTRL, 0x01#32)])

/-- The picture; what follows waits for a key, which is not read. -/
def draw_die : Game :=
  { game with vga_framebuffer := place_die (draw_cleanup_buffers game.vga_framebuffer) }.draw_swap_buffers

/-- The first test of `handle_input`. -/
def jump_input (key : Byte) : Game :=
  if (key = 0x77#8 ∨ key = 0x20#8) ∧ game.dino_y = GROUND_Y then
    { game with y_velocity := JUMP_IMPULSE, setdown_times := 0 }
  else game

/-- The second test: a fast fall in the air, and ducking on the ground. -/
def duck_input (key : Byte) : Game :=
  if key = 0x73#8 then
    if game.dino_y < GROUND_Y then { game with y_velocity := 4 }
      else { game with setdown_times := 2 }
  else game

/-- `handle_input` with the byte that the UART holds, if it holds one. -/
def handle_input (key : Option Byte) : Game :=
  match key with
  | none => game
  | some key => (game.jump_input key).duck_input key

def update_physics : Game :=
  let dino_y := game.dino_y + game.y_velocity
  if dino_y < GROUND_Y then { game with dino_y, y_velocity := game.y_velocity + GRAVITY }
  else { game with dino_y := GROUND_Y, y_velocity := 0 }

/-- The dinosaur runs into the cactus. -/
def collide : Game :=
  if game.cactus_x > 5 ∧ 13 > game.cactus_x + 4 ∧ game.dino_y + 8 > cactus_y then
    { game with cactus_x := 64 }.draw_die
  else game

def moveCactus : Game :=
  let cactus_x := game.cactus_x - 1
  { game with cactus_x := if cactus_x < -8 then 64 else cactus_x }

/-- An iteration up to the drawing. -/
def move (key : Option Byte) : Game := (game.handle_input key).update_physics.collide.moveCactus

def draw : Game :=
  let cleared := place_cactus game.cactus_x cactus_y 1#8 (draw_cleanup_buffers game.vga_framebuffer)
  if game.setdown_times > 0 then
    { game with
      vga_framebuffer := place_dino_setdown dino_x game.dino_y 1#8 (game.body_picture % 2) cleared
      setdown_times := game.setdown_times - 1 }
  else { game with vga_framebuffer := place_dino dino_x game.dino_y 1#8 (game.body_picture % 2) cleared }

/-- The words 224 to 463 of frame 0. -/
def upload : Game :=
  game.send ((VgaReg.UPLOAD_ADDR, 0#32 <<< 16 ||| 1792#32) ::
    streamFrom game.vga_framebuffer 224 240)

/-- An iteration of the loop. -/
def step (key : Option Byte) : Game :=
  let uploaded := (game.move key).draw.upload
  { uploaded.send [(VgaReg.CTRL, 0#32 <<< 4 ||| 0x01#32)] with
    body_picture := uploaded.body_picture + 1 }

/-- `run_trex` up to its loop, with what is in memory and in the VGA before. -/
def start (vga_framebuffer : Canvas) (vga : VgaStore) : Game :=
  draw_init_buffers
    { vga_framebuffer
      vga
      dino_y := 50
      y_velocity := 0
      body_picture := 0
      setdown_times := 0
      cactus_x := 64 }

end Game

/-! ## The score -/

/-- `run_trex` with its variable `score`, which counts without a bound, and the bytes that it has
    sent. -/
structure Scored where
  game : Game
  score : ℤ
  sent : List Byte

def text (s : String) : List Byte := s.toList.map fun c => BitVec.ofNat 8 c.toNat

/-- The score is sent as one character. -/
def print_score (s : ℤ) : List Byte := text "score:" ++ [BitVec.ofInt 8 (s + 0x30), 0x0d#8, 0x0a#8]

/-- The texts of `draw_die`. -/
def die_texts : List Byte := text "you die!\r\n" ++ text "Press any key to continue the game\r\n"

namespace Scored

variable (scored : Scored)

def collide : Scored :=
  let game := scored.game
  if game.cactus_x > 5 ∧ 13 > game.cactus_x + 4 ∧ game.dino_y + 8 > cactus_y then
    { game := { game with cactus_x := 64 }.draw_die, score := 0, sent := scored.sent ++ die_texts }
  else scored

def moveCactus : Scored :=
  let cactus_x := scored.game.cactus_x - 1
  if cactus_x < -8 then
    { game := { scored.game with cactus_x := 64 }
      score := scored.score + 1
      sent := scored.sent ++ print_score (scored.score + 1) }
  else { scored with game := { scored.game with cactus_x } }

/-- An iteration of the loop with all that it does. -/
def step (key : Option Byte) : Scored :=
  let moved :=
    { scored with game := (scored.game.handle_input key).update_physics }.collide.moveCactus
  let uploaded := moved.game.draw.upload
  { moved with
    game := { uploaded.send [(VgaReg.CTRL, 0#32 <<< 4 ||| 0x01#32)] with
      body_picture := uploaded.body_picture + 1 } }

def start (vga_framebuffer : Canvas) (vga : VgaStore) : Scored :=
  ⟨Game.start vga_framebuffer vga, 0, []⟩

end Scored

end MyCpu.TRex
