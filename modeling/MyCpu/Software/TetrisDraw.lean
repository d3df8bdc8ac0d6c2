import MyCpu.Lib.Painting
import MyCpu.Software.Tetris
import MyCpu.Software.VgaUpload

/-! # The screen of Tetris

`tetris_draw.c` as far as the loop of `main` uses it, and the loop with the framebuffer and the VGA.
The backspaces of `cpu_sync` and the text for the UART are left out; they do not reach the
screen. -/

namespace MyCpu.Tetris

open Grid (COLOR_BLACK)
open VgaUpload (RegisterWrite streamWrites paletteWrites)

def BLOCK_SIZE : ℕ := 3

def GRID_OFFSET_X : ℕ := 2

def GRID_OFFSET_Y : ℕ := 5

def PREVIEW_X : ℕ := 38

def PREVIEW_Y : ℕ := 8

def COLOR_RED : Byte := 5#8

/-! ## Painting -/

/-- `framebuffer` -/
abbrev Canvas := ℕ → Byte

def fb_clear (framebuffer : Canvas) : Canvas :=
  fun i => if i < 4096 then COLOR_BLACK else framebuffer i

/-- The test of `fb_pixel`. -/
def onCanvas (place : ℤ × ℤ) : Bool := 0 ≤ place.1 && place.1 < 64 && 0 ≤ place.2 && place.2 < 64

/-- `fb_pixel` for a column and a line after the other. -/
def fb_pixels (places : List (ℤ × ℤ)) (color : Byte) : Canvas → Canvas :=
  Painting.paint onCanvas (fun place => (place.2 * 64 + place.1).toNat) color places

def fb_rect (x y : ℤ) (w h : ℕ) (color : Byte) : Canvas → Canvas :=
  fb_pixels (((List.range h).product (List.range w)).map fun (dy, dx) => (x + dx, y + dy)) color

def fb_rect_outline (x y : ℤ) (w h : ℕ) (color : Byte) : Canvas → Canvas :=
  fb_pixels (((List.range w).flatMap fun (dx : ℕ) => [(x + dx, y), (x + dx, y + h - 1)]) ++
    (List.range h).flatMap fun (dy : ℕ) => [(x, y + dy), (x + w - 1, y + dy)]) color

def draw_border : Canvas → Canvas :=
  fb_rect_outline (GRID_OFFSET_X - 1) (GRID_OFFSET_Y - 1) (GRID_WIDTH * BLOCK_SIZE + 2)
    (GRID_HEIGHT * BLOCK_SIZE + 2)
    COLOR_RED

/-- The square of a cell; row 0 is the lowest. -/
def draw_cell (cell : ℤ × ℤ) (color : Byte) : Canvas → Canvas :=
  fb_rect (GRID_OFFSET_X + cell.1 * BLOCK_SIZE)
    (GRID_OFFSET_Y + (GRID_HEIGHT - 1 - cell.2) * BLOCK_SIZE) BLOCK_SIZE
    BLOCK_SIZE color

def draw_grid (g : Grid) (framebuffer : Canvas) : Canvas :=
  ((List.range GRID_HEIGHT).product (List.range GRID_WIDTH)).foldl (fun framebuffer (y, x) =>
    if (g.row y).getLsbD x then draw_cell (x, y)
      ((g.colorsOf y)[x]?.getD COLOR_BLACK) framebuffer else framebuffer)
    framebuffer

def draw_block (b : Block) (framebuffer : Canvas) : Canvas :=
  b.cells.foldl (fun framebuffer (cell : ℤ × ℤ) =>
    if 0 ≤ cell.1 ∧ cell.1 < GRID_WIDTH ∧ 0 ≤ cell.2 ∧ cell.2 < GRID_HEIGHT then
      draw_cell cell b.color framebuffer
    else framebuffer) framebuffer

/-- The nine squares that `draw_preview` clears first. -/
def preview_blocks : List (ℤ × ℤ) :=
  [(0, 0), (4, 0), (8, 0), (0, 4), (4, 4), (8, 4), (0, 8), (4, 8), (8, 8)]

def draw_preview (shape : Byte) (framebuffer : Canvas) : Canvas :=
  let shape := if NUM_SHAPES ≤ shape.toNat then 0 else shape.toNat
  let color := SHAPE_COLORS.getD shape 0#8
  let cleared := preview_blocks.foldl (fun framebuffer (block : ℤ × ℤ) =>
    fb_rect (PREVIEW_X + block.1) (PREVIEW_Y + block.2) 4 4 COLOR_BLACK framebuffer) framebuffer
  ((SHAPES.getD shape []).getD 0 []).foldl (fun framebuffer (offset : ℤ × ℤ) =>
    fb_rect (PREVIEW_X + 3 * offset.1)
      (PREVIEW_Y + 3 * (3 - offset.2)) 2 2 color framebuffer) cleared

/-- What the loop draws before it reads an input. -/
def Game.draw (game : Game) (framebuffer : Canvas) : Canvas :=
  draw_preview game.next_block.shape
    (draw_block game.current_block (draw_grid game.grid (draw_border (fb_clear framebuffer))))

/-! ## Uploads -/

/-- The colours that `draw_init` gives to `COLOR_BLACK` and so on. -/
def PALETTE (color : BitVec 4) : Colour :=
  [0x00#6, 0x2f#6, 0x3c#6, 0x23#6, 0x0c#6, 0x30#6, 0x03#6, 0x34#6, 0x15#6,
  0x3f#6].getD color.toNat 0#6

/-- The writes of `draw_swap_buffers`, behind its wait for the vertical blank. -/
def draw_swap_buffers (framebuffer : Canvas) : List RegisterWrite :=
  (VgaReg.UPLOAD_ADDR, 0#32) :: streamWrites framebuffer 512 ++ [(VgaReg.CTRL, 0x01#32)]

/-! ## The loop -/

/-- The game, the framebuffer in memory, and the VGA. -/
structure Play where
  game : Game
  framebuffer : Canvas
  vga : VgaStore

namespace Play

variable (play : Play)

def send (writes : List RegisterWrite) : Play :=
  { play with vga := writes.foldl VgaStore.write play.vga }

/-- It ends like `draw_swap_buffers`, but does not wait. -/
def draw_init : Play :=
  let framebuffer := fb_clear play.framebuffer
  ({ play with framebuffer }.send (paletteWrites PALETTE 10)).send (draw_swap_buffers framebuffer)

/-- What reaches the screen at a point of the loop: the picture is drawn only before the
    `input_poll` of the loop, and it is uploaded there, during a pause, and at the end. -/
def render : Play :=
  match play.game.point with
  | .poll =>
    let framebuffer := play.game.draw play.framebuffer
    { play with framebuffer }.send (draw_swap_buffers framebuffer)
  | .paused | .halted => play.send (draw_swap_buffers play.framebuffer)
  | _ => play

def step (input : Input) : Play := { play.render with game := play.game.step input }

/-- `main` up to its loop, with the seed, and with what is in memory and in the VGA before. -/
def start (seed : BitVec 32) (framebuffer : Canvas) (vga : VgaStore) : Play :=
  draw_init ⟨Game.start seed, framebuffer, vga⟩

end Play

end MyCpu.Tetris
