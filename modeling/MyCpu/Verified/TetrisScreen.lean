import MyCpu.Software.TetrisDraw
import MyCpu.Verified.GridInvariant
import MyCpu.Verified.VgaDisplay

/-! # What the screen of Tetris shows

`image` says what is to be seen of a game: the cells of the grid and of the block, the frame around
them, and the block that comes next. -/

namespace MyCpu.Tetris

open Block (grid_block_spawn)
open Grid (COLOR_BLACK)
open VgaConstants VgaUpload

/-! ## What is to be seen -/

/-- The pixels of the grid. -/
def Window (x y : ℕ) : Prop := (2 ≤ x ∧ x < 32) ∧ 5 ≤ y ∧ y < 59

/-- The frame around the grid, one pixel wide. -/
def Frame (x y : ℕ) : Prop := ¬ Window x y ∧ (1 ≤ x ∧ x ≤ 32) ∧ 4 ≤ y ∧ y ≤ 59

/-- The pixels of the preview, where a cell is a square of two pixels with a gap of one. -/
def Preview (x y : ℕ) : Prop :=
  ((38 ≤ x ∧ x < 50) ∧ 8 ≤ y ∧ y < 20) ∧ (x - 38) % 3 < 2 ∧ (y - 8) % 3 < 2

instance (x y : ℕ) : Decidable (Window x y) := inferInstanceAs (Decidable (_ ∧ _))

instance (x y : ℕ) : Decidable (Frame x y) := inferInstanceAs (Decidable (_ ∧ _))

instance (x y : ℕ) : Decidable (Preview x y) := inferInstanceAs (Decidable (_ ∧ _))

/-- The cell of the grid to which a pixel belongs. -/
def cellAt (x y : ℕ) : ℤ × ℤ := (((x : ℤ) - 2) / 3, 17 - ((y : ℤ) - 5) / 3)

/-- The cell of the preview. -/
def previewAt (x y : ℕ) : ℤ × ℤ := (((x : ℤ) - 38) / 3, 3 - ((y : ℤ) - 8) / 3)

namespace Game

variable (game : Game)

def cellColor (cell : ℤ × ℤ) : Byte :=
  if cell ∈ game.current_block.cells then game.current_block.color
  else if game.grid.Occupied cell then game.grid.colorAt cell.1.toNat cell.2.toNat
  else COLOR_BLACK

def image (x y : ℕ) : Byte :=
  if Window x y then game.cellColor (cellAt x y)
  else if Frame x y then COLOR_RED
  else if Preview x y ∧ previewAt x y ∈ game.next_block.offsets then game.next_block.color
  else COLOR_BLACK

end Game

/-! ## The canvas -/

section Canvas

variable {x y : ℕ} {framebuffer : Canvas} {color : Byte} (column : x < 64) (line : y < 64)

include column line

theorem fb_clear_at : fb_clear framebuffer (64 * y + x) = COLOR_BLACK := if_pos (by omega)

theorem fb_pixels_at (places : List (ℤ × ℤ)) :
    fb_pixels places color framebuffer (64 * y + x) =
      if ((x : ℤ), (y : ℤ)) ∈ places then color else framebuffer (64 * y + x) := by
  have covered : Painting.Covered onCanvas
      (fun place => (place.2 * 64 + place.1).toNat) places (64 * y + x) ↔
      ((x : ℤ), (y : ℤ)) ∈ places := by
    simp only [Painting.Covered, onCanvas, Bool.and_eq_true, decide_eq_true_eq]
    constructor
    · rintro ⟨⟨px, py⟩, member, inside, here⟩
      -- a pixel of the canvas has one address
      have same : px = x ∧ py = y := by
        simp only at inside here
        omega
      rwa [← same.1, ← same.2]
    · intro member
      refine ⟨_, member, ?_, ?_⟩
      · simp only
        omega
      · simp only
        omega
  rw [fb_pixels]
  split_ifs with member
  · exact Painting.paint_covered (covered.mpr member)
  · exact Painting.paint_uncovered (mt covered.mp member)

theorem fb_rect_at (left top : ℤ) (w h : ℕ) :
    fb_rect left top w h color framebuffer (64 * y + x) =
      if (left ≤ x ∧ (x : ℤ) < left + w) ∧ top ≤ y ∧ (y : ℤ) < top + h then color
      else framebuffer (64 * y + x) := by
  rw [fb_rect, fb_pixels_at column line]
  refine if_congr ?_ rfl rfl
  rw [List.mem_map]
  constructor
  · rintro ⟨⟨dy, dx⟩, member, here⟩
    obtain ⟨inside, inside'⟩ := List.pair_mem_product.mp member
    rw [List.mem_range] at inside inside'
    simp only [Prod.mk.injEq] at here
    omega
  · rintro ⟨across, down⟩
    refine ⟨((y - top).toNat, (x - left).toNat), List.pair_mem_product.mpr ⟨?_, ?_⟩, ?_⟩
    · exact List.mem_range.mpr (by omega)
    · exact List.mem_range.mpr (by omega)
    · simp only [Prod.mk.injEq]
      omega

theorem draw_border_at : draw_border framebuffer (64 * y + x) =
    if Frame x y then COLOR_RED else framebuffer (64 * y + x) := by
  rw [draw_border, fb_rect_outline, fb_pixels_at column line]
  refine if_congr ?_ rfl rfl
  simp only [Frame, Window, List.mem_append, List.mem_flatMap, List.mem_range,
    List.mem_cons, List.not_mem_nil, or_false, Prod.mk.injEq, GRID_OFFSET_X, GRID_OFFSET_Y,
    GRID_WIDTH, GRID_HEIGHT, BLOCK_SIZE]
  constructor
  · rintro (⟨dx, inside, upper | lower⟩ | ⟨dy, inside, left | right⟩) <;> omega
  · intro frame
    by_cases side : x = 1 ∨ x = 32
    · exact .inr ⟨y - 4, by omega, by omega⟩
    · exact .inl ⟨x - 1, by omega, by omega⟩

theorem draw_cell_at (cell : ℤ × ℤ)
    (inside : 0 ≤ cell.1 ∧ cell.1 < GRID_WIDTH ∧ 0 ≤ cell.2 ∧ cell.2 < GRID_HEIGHT) :
    draw_cell cell color framebuffer (64 * y + x) =
      if Window x y ∧ cellAt x y = cell then color else framebuffer (64 * y + x) := by
  obtain ⟨right, up⟩ := cell
  rw [draw_cell, fb_rect_at column line]
  refine if_congr ?_ rfl rfl
  simp only [Window, cellAt, Prod.mk.injEq, GRID_OFFSET_X, GRID_OFFSET_Y, GRID_WIDTH, GRID_HEIGHT,
    BLOCK_SIZE] at inside ⊢
  omega

theorem draw_grid_at (g : Grid) :
    draw_grid g framebuffer (64 * y + x) =
      if Window x y ∧ g.Occupied (cellAt x y) then
        g.colorAt (cellAt x y).1.toNat (cellAt x y).2.toNat
      else framebuffer (64 * y + x) := by
  have each : ∀ (canvas : Canvas),
      ∀ tile ∈ (List.range GRID_HEIGHT).product (List.range GRID_WIDTH),
      (if (g.row tile.1).getLsbD tile.2 then
        draw_cell (tile.2, tile.1) ((g.colorsOf tile.1)[tile.2]?.getD COLOR_BLACK) canvas
          else canvas) (64 * y + x) =
      if Window x y ∧ cellAt x y = ((tile.2 : ℤ), (tile.1 : ℤ)) ∧
        (g.row tile.1).getLsbD tile.2 = true then
        g.colorAt tile.2 tile.1 else canvas (64 * y + x) := by
    intro canvas tile member
    obtain ⟨low, left⟩ := List.pair_mem_product.mp member
    rw [List.mem_range] at low left
    by_cases bit : (g.row tile.1).getLsbD tile.2 = true
    · rw [if_pos bit, draw_cell_at column line _ (by simp only; omega)]
      simp only [bit, and_true]
      rfl
    · rw [if_neg bit, if_neg fun covered => bit covered.2.2]
  rw [draw_grid]
  split_ifs with shown
  · obtain ⟨window, inside, bit⟩ := shown
    refine Painting.tiles_covered each (fun tile _ covered => ?_)
      ⟨((cellAt x y).2.toNat, (cellAt x y).1.toNat), ?_, ?_⟩
    · rw [covered.2.1]
      rfl
    · rw [List.pair_mem_product, List.mem_range, List.mem_range]
      omega
    · refine ⟨window, Prod.ext ?_ ?_, bit⟩ <;> simp only <;> omega
  · refine Painting.tiles_uncovered each fun tile member covered => shown ⟨covered.1, ?_, ?_⟩
    · obtain ⟨low, left⟩ := List.pair_mem_product.mp member
      rw [List.mem_range] at low left
      rw [covered.2.1]
      simp only
      omega
    · rw [covered.2.1]
      exact covered.2.2

theorem draw_block_at (b : Block) :
    draw_block b framebuffer (64 * y + x) =
      if Window x y ∧ cellAt x y ∈ b.cells then b.color else framebuffer (64 * y + x) := by
  have each : ∀ (canvas : Canvas), ∀ cell ∈ b.cells,
      (if 0 ≤ cell.1 ∧ cell.1 < GRID_WIDTH ∧ 0 ≤ cell.2 ∧ cell.2 < GRID_HEIGHT then
        draw_cell cell b.color canvas
        else canvas) (64 * y + x) =
      if Window x y ∧ cellAt x y = cell then b.color else canvas (64 * y + x) := by
    intro canvas cell _
    by_cases inside : 0 ≤ cell.1 ∧ cell.1 < GRID_WIDTH ∧ 0 ≤ cell.2 ∧ cell.2 < GRID_HEIGHT
    · rw [if_pos inside, draw_cell_at column line cell inside]
    · rw [if_neg inside, if_neg]
      rintro ⟨window, rfl⟩
      simp only [Window, cellAt, GRID_WIDTH, GRID_HEIGHT] at window inside
      omega
  rw [draw_block]
  split_ifs with shown
  · exact Painting.tiles_covered each (fun _ _ _ => rfl) ⟨cellAt x y, shown.2, shown.1, rfl⟩
  · exact Painting.tiles_uncovered each
      fun cell member covered => shown ⟨covered.1, covered.2 ▸ member⟩

/-- The twelve by twelve pixels that `draw_preview` clears. -/
theorem preview_cleared_at :
    preview_blocks.foldl (fun framebuffer (block : ℤ × ℤ) =>
      fb_rect (PREVIEW_X + block.1) (PREVIEW_Y + block.2) 4 4 COLOR_BLACK framebuffer) framebuffer
        (64 * y + x) =
      if (38 ≤ x ∧ x < 50) ∧ 8 ≤ y ∧ y < 20 then COLOR_BLACK else framebuffer (64 * y + x) := by
  have each : ∀ (canvas : Canvas), ∀ block ∈ preview_blocks,
      fb_rect (PREVIEW_X + block.1) (PREVIEW_Y + block.2) 4 4 COLOR_BLACK canvas (64 * y + x) =
      if ((38 : ℤ) + block.1 ≤ x ∧ (x : ℤ) < 38 + block.1 + 4) ∧ (8 : ℤ) + block.2 ≤ y ∧
        (y : ℤ) < 8 + block.2 + 4 then
        COLOR_BLACK else canvas (64 * y + x) := fun canvas block _ => fb_rect_at column line _ _ 4 4
  have area : (∃ block ∈ preview_blocks, ((38 : ℤ) + block.1 ≤ x ∧ (x : ℤ) < 38 + block.1 + 4) ∧
      (8 : ℤ) + block.2 ≤ y ∧ (y : ℤ) < 8 + block.2 + 4) ↔ (38 ≤ x ∧ x < 50) ∧ 8 ≤ y ∧ y < 20 := by
    simp only [preview_blocks, List.exists_mem_cons_iff, List.not_mem_nil, false_and,
      exists_false, or_false]
    omega
  split_ifs with inside
  · exact Painting.tiles_covered each (fun _ _ _ => rfl) (area.mpr inside)
  · exact Painting.tiles_uncovered each
      fun block member covered => inside (area.mp ⟨block, member, covered⟩)

/-- The preview is the block as it will be spawned. -/
theorem draw_preview_at {shape : Byte} (known : shape.toNat < NUM_SHAPES) :
    draw_preview shape framebuffer (64 * y + x) =
      if Preview x y ∧ previewAt x y ∈ (grid_block_spawn shape).offsets then
        (grid_block_spawn shape).color
      else if (38 ≤ x ∧ x < 50) ∧ 8 ≤ y ∧ y < 20 then COLOR_BLACK
      else framebuffer (64 * y + x) := by
  have each : ∀ (canvas : Canvas), ∀ offset ∈ (grid_block_spawn shape).offsets,
      fb_rect (PREVIEW_X + 3 * offset.1) (PREVIEW_Y + 3 * (3 - offset.2)) 2 2
        (grid_block_spawn shape).color canvas
        (64 * y + x) =
      if Preview x y ∧ previewAt x y = offset then (grid_block_spawn shape).color
        else canvas (64 * y + x) := by
    intro canvas offset member
    have small : ∀ offset ∈ (grid_block_spawn shape).offsets, 0 ≤ offset.1 ∧
        offset.1 ≤ 3 ∧ 0 ≤ offset.2 ∧
        offset.2 ≤ 3 :=
      Block.offsets_all
        (P := fun offsets => ∀ offset ∈ offsets, 0 ≤ offset.1 ∧ offset.1 ≤ 3 ∧
          0 ≤ offset.2 ∧ offset.2 ≤ 3)
        (by decide) _
    have bounds := small offset member
    obtain ⟨right, up⟩ := offset
    rw [fb_rect_at column line]
    refine if_congr ?_ rfl rfl
    simp only [Preview, previewAt, Prod.mk.injEq, PREVIEW_X, PREVIEW_Y] at bounds ⊢
    omega
  -- the black squares come first, then the cells of the block
  have drawn : draw_preview shape framebuffer =
      (grid_block_spawn shape).offsets.foldl (fun framebuffer (offset : ℤ × ℤ) =>
        fb_rect (PREVIEW_X + 3 * offset.1) (PREVIEW_Y + 3 * (3 - offset.2)) 2 2
          (grid_block_spawn shape).color
          framebuffer)
        (preview_blocks.foldl (fun framebuffer (block : ℤ × ℤ) =>
          fb_rect (PREVIEW_X + block.1)
            (PREVIEW_Y + block.2) 4 4 COLOR_BLACK framebuffer) framebuffer) := by
    have offsets : (grid_block_spawn shape).offsets = (SHAPES.getD shape.toNat []).getD 0 [] := by
      have upright : (0#8 &&& 3#8).toNat = 0 := by decide
      rw [Block.offsets,
        if_neg (Nat.not_le.mpr (show (grid_block_spawn shape).shape.toNat < NUM_SHAPES from known))]
      exact congrArg (fun rot => (SHAPES.getD shape.toNat []).getD rot []) upright
    simp only [draw_preview, if_neg (Nat.not_le.mpr known), offsets]
    rfl
  rw [drawn, ← preview_cleared_at column line]
  split_ifs with shown
  · exact Painting.tiles_covered each (fun _ _ _ => rfl) ⟨previewAt x y, shown.2, shown.1, rfl⟩
  · exact Painting.tiles_uncovered each fun offset member covered =>
      shown ⟨covered.1, covered.2 ▸ member⟩

/-- A picture that has been drawn, whatever the canvas was before. -/
theorem draw_at {game : Game} (known : game.next_block.shape.toNat < NUM_SHAPES)
    (fresh : game.next_block = grid_block_spawn game.next_block.shape) :
    game.draw framebuffer (64 * y + x) = game.image x y := by
  have apart : (38 ≤ x ∧ x < 50) ∧ 8 ≤ y ∧ y < 20 → ¬ Window x y ∧ ¬ Frame x y := by
    simp only [Frame, Window]
    omega
  rw [Game.draw, draw_preview_at column line known, ← fresh, draw_block_at column line,
    draw_grid_at column line, draw_border_at column line, fb_clear_at column line,
    Game.image, Game.cellColor]
  by_cases inside : Window x y
  · have outside : ¬ ((38 ≤ x ∧ x < 50) ∧ 8 ≤ y ∧ y < 20) := fun area => (apart area).1 inside
    have frame : ¬ Frame x y := fun frame => frame.1 inside
    have preview : ¬ Preview x y := fun preview => outside preview.1
    simp only [inside, outside, frame, preview, true_and, false_and, if_true, if_false]
  · by_cases frame : Frame x y
    · have outside : ¬ ((38 ≤ x ∧ x < 50) ∧ 8 ≤ y ∧ y < 20) := fun area => (apart area).2 frame
      have preview : ¬ Preview x y := fun preview => outside preview.1
      simp only [inside, outside, frame, preview, false_and, if_true, if_false]
    · simp only [inside, frame, false_and, if_false, ite_self]

end Canvas

/-! ## Uploads -/

theorem stream_palette (framebuffer : Canvas) (words : ℕ) (vga : VgaStore) :
    ((streamWrites framebuffer words).foldl VgaStore.write vga).registers.paletteReg =
      vga.registers.paletteReg := by
  induction words with
  | zero => rfl
  | succ words inductionHypothesis =>
    rw [streamWrites, List.range_succ, List.map_append, List.foldl_append, ← streamWrites,
      ← inductionHypothesis]
    rfl

/-- Whatever was in the VGA before, `draw_swap_buffers` uploads frame 0 and shows it. -/
theorem swap_uploaded (framebuffer : Canvas) (vga : VgaStore) :
    Uploaded 0 framebuffer vga.registers.paletteReg
      ((draw_swap_buffers framebuffer).foldl VgaStore.write vga) := by
  have streams : Streams 0 0 (vga.write (VgaReg.UPLOAD_ADDR, 0#32)).registers :=
    streams_start (by decide)
  obtain ⟨_, words⟩ :=
    stream_uploaded framebuffer (by decide) (vga.write (VgaReg.UPLOAD_ADDR, 0#32)) streams
      (show 512 ≤ WORDS_PER_FRAME from Nat.le_refl 512)
  have palette := stream_palette framebuffer 512 (vga.write (VgaReg.UPLOAD_ADDR, 0#32))
  rw [draw_swap_buffers, List.cons_append, List.foldl_cons, List.foldl_append,
    List.foldl_cons, List.foldl_nil, VgaStore.write_ctrl _ _ (by decide)]
  generalize (streamWrites framebuffer 512).foldl VgaStore.write
    (vga.write (VgaReg.UPLOAD_ADDR, 0#32)) = streamed
    at words palette ⊢
  exact ⟨words, palette, (by decide : (1#32).getLsbD 0 = true),
    (by decide : (1#32).getLsbD 1 = false), (by decide : (1#32).extractLsb' 4 4 = 0#4)⟩

theorem packed_congr {canvas canvas' : Canvas} (same : ∀ i < 4096, canvas i = canvas' i)
    {i : ℕ} (inside : i < 512) :
    packed canvas i = packed canvas' i := by
  have each : ∀ k < 8, canvas (8 * i + k) = canvas' (8 * i + k) := fun k small => same _ (by omega)
  simp only [packed, vga_pack8_pixels, each 0 (by decide), each 1 (by decide),
    each 2 (by decide), each 3 (by decide), each 4 (by decide), each 5 (by decide),
    each 6 (by decide), each 7 (by decide)]

/-! ## Colours -/

namespace Block

theorem grid_block_move_color (b : Block) (g : Grid) (dir : Direction) :
    (b.grid_block_move g dir).2.color = b.color := by
  rw [grid_block_move]
  cases dir <;> split_ifs <;> rfl

theorem grid_block_rotate_color (b : Block) (g : Grid) (amount : BitVec 32) :
    (b.grid_block_rotate g amount).2.color = b.color := by
  rw [grid_block_rotate]
  simp only
  split_ifs <;> rfl

theorem drop_loop_color (g : Grid) (steps : ℕ) (b : Block) (amount : ℕ) :
    (drop_loop g steps b amount).2.color = b.color := by
  induction steps generalizing b amount with
  | zero => rfl
  | succ steps inductionHypothesis =>
    rw [drop_loop]
    simp only
    split_ifs
    · rfl
    · exact inductionHypothesis _ _

theorem grid_block_drop_color (b : Block) (g : Grid) : (b.grid_block_drop g).2.color = b.color :=
  drop_loop_color g _ b 0

/-- The block has the colour of its shape. -/
def Colored (b : Block) : Prop := b.color = SHAPE_COLORS.getD b.shape.toNat COLOR_BLACK

variable {b : Block}

theorem Colored.of_same {b' : Block} (colored : b.Colored) (shape : b'.shape = b.shape)
    (color : b'.color = b.color) :
    b'.Colored := by
  rw [Colored, shape, color, colored]

theorem Colored.small (colored : b.Colored) (known : b.shape.toNat < NUM_SHAPES) :
    b.color.toNat < 10 := by
  have all : ∀ shape < NUM_SHAPES, (SHAPE_COLORS.getD shape COLOR_BLACK).toNat < 10 := by decide
  rw [colored]
  exact all _ known

theorem Colored.painted (colored : b.Colored) (known : b.shape.toNat < NUM_SHAPES) :
    b.color ≠ COLOR_BLACK := by
  have all : ∀ shape < NUM_SHAPES, SHAPE_COLORS.getD shape COLOR_BLACK ≠ COLOR_BLACK := by decide
  rw [colored]
  exact all _ known

end Block

namespace Grid

/-- All cells have colours to which `draw_init` gives an entry of the palette. -/
def Paletted (g : Grid) : Prop := ∀ x y, (g.colorAt x y).toNat < 10

variable {g : Grid}

theorem paletted_init : grid_init.Paletted := by
  intro x y
  have black : grid_init.colorAt x y = COLOR_BLACK := by
    have rows : grid_init.colorsOf y = .replicate GRID_WIDTH COLOR_BLACK := by
      rw [colorsOf, grid_init, Vector.getElem?_replicate]
      split_ifs <;> rfl
    rw [colorAt, rows, Vector.getElem?_replicate]
    split_ifs <;> rfl
  rw [black]
  decide

theorem paletted_block_add (paletted : g.Paletted) {b : Block} (small : b.color.toNat < 10) :
    (b.grid_block_add g).Paletted := by
  rw [Block.grid_block_add]
  induction b.cells generalizing g with
  | nil => exact paletted
  | cons cell cells inductionHypothesis =>
    rw [List.foldl_cons]
    split_ifs with inside
    · have colors : (g.grid_set_cell cell.1 cell.2 b.color).colors =
          g.colors.setIfInBounds cell.2.toNat
            ((g.colorsOf cell.2.toNat).setIfInBounds cell.1.toNat b.color) := by
        rw [grid_set_cell, if_neg (by omega)]
      refine inductionHypothesis fun x y => ?_
      rw [colorAt_set inside colors]
      split_ifs
      · exact small
      · exact paletted x y
    · exact inductionHypothesis paletted

theorem paletted_clear_lines (paletted : g.Paletted) : g.grid_clear_lines.1.Paletted := by
  intro x y
  by_cases inside : y < GRID_HEIGHT
  · have member := List.mem_of_getElem? (lines_inside (g := g.grid_clear_lines.1) inside)
    rw [cleared_lines g, List.mem_append] at member
    cases member with
    | inl kept =>
      obtain ⟨old, same⟩ := List.mem_ofFn.mp (List.mem_filter.mp kept).1
      have colors : g.grid_clear_lines.1.colorsOf y = g.colorsOf old.val :=
        (congrArg Prod.snd same).symm
      rw [colorAt, colors]
      exact paletted x old.val
    | inr filler =>
      have colors : g.grid_clear_lines.1.colorsOf y = .replicate GRID_WIDTH COLOR_BLACK :=
        congrArg Prod.snd (List.mem_replicate.mp filler).2
      rw [colorAt, colors, Vector.getElem?_replicate]
      split_ifs <;> decide
  · have colors : g.grid_clear_lines.1.colorsOf y = .replicate GRID_WIDTH COLOR_BLACK := by
      rw [colorsOf, Vector.getElem?_eq_none (Nat.le_of_not_lt inside)]
      rfl
    rw [colorAt, colors, Vector.getElem?_replicate]
    split_ifs <;> decide

end Grid

namespace Game

/-- The colours of the game. -/
structure Painted (game : Game) : Prop where
  grid : game.grid.Consistent
  paletted : game.grid.Paletted
  current : game.current_block.Colored
  /-- The next block is as it will be spawned. -/
  next : game.next_block = grid_block_spawn game.next_block.shape

variable {game : Game}

/-- The score has no colour. -/
theorem Painted.scored (painted : game.Painted) (score : BitVec 32) :
    Grid.Consistent { game.grid with score } ∧ Grid.Paletted { game.grid with score } :=
  ⟨⟨painted.grid.narrow, painted.grid.colored, painted.grid.relief⟩, painted.paletted⟩

theorem painted_handle (painted : game.Painted) (input : Input) : (game.handle input).Painted := by
  obtain ⟨grid, paletted, current, next⟩ := id painted
  cases input with
  | INPUT_LEFT | INPUT_RIGHT | INPUT_SOFT_DROP =>
    exact ⟨grid, paletted, current.of_same (Block.grid_block_move_shape _ _ _)
      (Block.grid_block_move_color _ _ _), next⟩
  | INPUT_ROTATE =>
    exact ⟨grid, paletted,
      current.of_same (Block.grid_block_rotate_shape _ _ _)
        (Block.grid_block_rotate_color _ _ _), next⟩
  | INPUT_HARD_DROP =>
    exact ⟨(painted.scored _).1, (painted.scored _).2,
      current.of_same (Block.grid_block_drop_shape _ _) (Block.grid_block_drop_color _ _), next⟩
  | INPUT_NONE | INPUT_PAUSE | INPUT_QUIT => exact ⟨grid, paletted, current, next⟩

theorem painted_lockStep (painted : game.Painted) (shaped : game.Shaped)
    (path : LockPath) (stage : LockStage) :
    (game.lockStep path stage).Painted := by
  obtain ⟨grid, paletted, current, next⟩ := painted
  cases stage with
  | add =>
    exact ⟨Grid.consistent_block_add grid (current.painted shaped.current),
      Grid.paletted_block_add paletted (current.small shaped.current), current, next⟩
  | clear => exact ⟨Grid.consistent_clear_lines grid,
      Grid.paletted_clear_lines paletted, current, next⟩
  | spawn => exact ⟨grid, paletted, rfl, next⟩
  | spawnNext => exact ⟨grid, paletted, current, rfl⟩
  | test => exact ⟨grid, paletted, current, next⟩

theorem painted_step (painted : game.Painted) (shaped : game.Shaped) (input : Input) :
    (game.step input).Painted := by
  obtain ⟨grid, paletted, current, next⟩ := id painted
  unfold step
  cases place : game.point with
  | poll => exact painted_handle painted input
  | lock path stage => exact painted_lockStep painted shaped path stage
  | softDropped => exact ⟨(painted.scored _).1, (painted.scored _).2, current, next⟩
  | paused => cases input <;> exact ⟨grid, paletted, current, next⟩
  | handled =>
    simp only
    split_ifs
    · exact ⟨grid, paletted, current, next⟩
    · rw [fall]
      simp only
      by_cases due : game.drop_interval ≤ game.soft_tick + 1#32 - game.last_drop_time
      · rw [if_pos due]
        exact ⟨grid, paletted,
          current.of_same (Block.grid_block_move_shape _ _ _)
            (Block.grid_block_move_color _ _ _), next⟩
      · rw [if_neg due]
        exact ⟨grid, paletted, current, next⟩
  | fallen | checked | halted => exact ⟨grid, paletted, current, next⟩

theorem painted_always (seed : BitVec 32) (inputs : ℕ → Input) (n : ℕ) :
    (stateAt seed inputs n).Painted := by
  induction n with
  | zero => exact ⟨Grid.consistent_init, Grid.paletted_init, rfl, rfl⟩
  | succ n inductionHypothesis =>
    exact painted_step inductionHypothesis (shaped_always seed inputs n) (inputs n)

theorem cellColor_black (painted : game.Painted) (shaped : game.Shaped) (cell : ℤ × ℤ) :
    game.cellColor cell = COLOR_BLACK ↔
      ¬ (cell ∈ game.current_block.cells ∨ game.grid.Occupied cell) := by
  rw [cellColor]
  split_ifs with block occupied
  · exact iff_of_false (painted.current.painted shaped.current) (not_not_intro (.inl block))
  · have colored := painted.grid.colored cell.1.toNat (by have := occupied.1; omega) cell.2.toNat
      (by have := occupied.1; omega)
    exact iff_of_false (colored.mp occupied.2) (not_not_intro (.inr occupied))
  · exact iff_of_true rfl (not_or.mpr ⟨block, occupied⟩)

theorem cellColor_small (painted : game.Painted) (shaped : game.Shaped) (cell : ℤ × ℤ) :
    (game.cellColor cell).toNat < 10 := by
  rw [cellColor]
  split_ifs
  · exact painted.current.small shaped.current
  · exact painted.paletted _ _
  · decide

end Game

/-! ## The run -/

/-- Frame 0 is shown, and is the picture in the colours of `draw_init`. -/
structure Shows (image : ℕ → ℕ → Byte) (vga : VgaStore) : Prop where
  uploaded : Uploaded 0 (fun i => image (i % 64) (i / 64)) vga.registers.paletteReg vga
  palette : ∀ color < 10, vga.registers.paletteReg (.ofNat 4 color) = PALETTE (.ofNat 4 color)

namespace Play

/-- The VGA shows the framebuffer. -/
structure Lit (play : Play) : Prop where
  uploaded : Uploaded 0 play.framebuffer play.vga.registers.paletteReg play.vga
  palette : ∀ color < 10, play.vga.registers.paletteReg (.ofNat 4 color) = PALETTE (.ofNat 4 color)

theorem lit_swap (game : Game) (framebuffer : Canvas) {vga : VgaStore}
    (palette : ∀ color < 10, vga.registers.paletteReg (.ofNat 4 color) = PALETTE (.ofNat 4 color)) :
    Lit ⟨game, framebuffer, (draw_swap_buffers framebuffer).foldl VgaStore.write vga⟩ := by
  have uploaded := swap_uploaded framebuffer vga
  generalize (draw_swap_buffers framebuffer).foldl VgaStore.write vga = shown at uploaded ⊢
  refine ⟨uploaded.palette.symm ▸ uploaded, fun color small => ?_⟩
  rw [uploaded.palette]
  exact palette color small

theorem lit_start (seed : BitVec 32) (framebuffer : Canvas) (vga : VgaStore) :
    (start seed framebuffer vga).Lit :=
  lit_swap _ _ (palette_uploaded PALETTE vga (by decide)).2

theorem lit_step {play : Play} (lit : play.Lit) (input : Input) : (play.step input).Lit := by
  have rendered : play.render.Lit := by
    rw [render]
    cases play.game.point with
    | poll => exact lit_swap _ _ lit.palette
    | paused | halted => exact lit_swap _ _ lit.palette
    | lock | softDropped | handled | fallen | checked => exact lit
  exact ⟨rendered.uploaded, rendered.palette⟩

variable (seed : BitVec 32) (inputs : ℕ → Input) (framebuffer : Canvas) (vga : VgaStore)

/-- The loop with the inputs read so far. -/
def stateAt (n : ℕ) : Play := Clocked.stateAt step (start seed framebuffer vga) inputs n

theorem stateAt_game (n : ℕ) :
    (stateAt seed inputs framebuffer vga n).game = Game.stateAt seed inputs n := by
  induction n with
  | zero => rfl
  | succ n inductionHypothesis =>
    have next : (stateAt seed inputs framebuffer vga (n + 1)).game =
        (stateAt seed inputs framebuffer vga n).game.step (inputs n) := rfl
    rw [next, inductionHypothesis]
    rfl

theorem lit_always (n : ℕ) : (stateAt seed inputs framebuffer vga n).Lit :=
  Clocked.invariant_always (lit_start seed framebuffer vga)
    (fun _ input lit => lit_step lit input) n

/-- The canvas changes only where the loop draws. -/
theorem canvas_kept {play : Play} (input : Input) (other : play.game.point ≠ .poll) :
    (play.step input).framebuffer = play.framebuffer := by
  rw [step, render]
  cases place : play.game.point with
  | poll => exact absurd place other
  | paused | halted =>
    simp only [send]
  | lock | softDropped | handled | fallen | checked => simp only

theorem canvas_drawn {play : Play} (input : Input) (drawn : play.game.point = .poll) :
    (play.step input).framebuffer = play.game.draw play.framebuffer := by
  rw [step, render, drawn]
  simp only [send]

theorem canvas_run {n m : ℕ} (drawn : (Game.stateAt seed inputs n).point = .poll) (later : n < m)
    (kept : ∀ k, n < k → k < m → (Game.stateAt seed inputs k).point ≠ .poll) :
    (stateAt seed inputs framebuffer vga m).framebuffer =
      (Game.stateAt seed inputs n).draw (stateAt seed inputs framebuffer vga n).framebuffer := by
  induction m, later using Nat.le_induction with
  | base =>
    rw [← stateAt_game seed inputs framebuffer vga n] at drawn ⊢
    exact canvas_drawn (inputs n) drawn
  | succ m later inductionHypothesis =>
    have other := kept m later (Nat.lt_succ_self m)
    rw [← stateAt_game seed inputs framebuffer vga m] at other
    exact (canvas_kept (inputs m) other).trans
      (inductionHypothesis fun k after before => kept k after (Nat.lt_succ_of_lt before))

/-- What is drawn in a round is in memory until the next round draws. -/
theorem canvas_shows {n m : ℕ} (drawn : (Game.stateAt seed inputs n).point = .poll) (later : n < m)
    (kept : ∀ k, n < k → k < m → (Game.stateAt seed inputs k).point ≠ .poll)
    {x y : ℕ} (column : x < 64)
    (line : y < 64) :
    (stateAt seed inputs framebuffer vga m).framebuffer (64 * y + x) =
      (Game.stateAt seed inputs n).image x y := by
  rw [canvas_run seed inputs framebuffer vga drawn later kept]
  exact draw_at column line (Game.shaped_always seed inputs n).next
    (Game.painted_always seed inputs n).next

/-- From the picture of one round to that of the next the VGA shows the game as it was before the
    input of the round was read, and so it does after the end. -/
theorem screen_shows (seed : BitVec 32) (inputs : ℕ → Input) (framebuffer : Canvas)
    (vga : VgaStore) (n m : ℕ)
    (drawn : (Game.stateAt seed inputs n).point = .poll) (later : n < m)
    (kept : ∀ k, n < k → k < m → (Game.stateAt seed inputs k).point ≠ .poll) :
    Shows (Game.stateAt seed inputs n).image (stateAt seed inputs framebuffer vga m).vga := by
  have lit := lit_always seed inputs framebuffer vga m
  refine ⟨⟨fun i inside => ?_, rfl, lit.uploaded.enabled, lit.uploaded.unblanked,
    lit.uploaded.selected⟩, lit.palette⟩
  rw [lit.uploaded.frame i inside]
  refine packed_congr (fun j bound => ?_) inside
  have place : 64 * (j / 64) + j % 64 = j := Nat.div_add_mod j 64
  have pixel := canvas_shows seed inputs framebuffer vga drawn later kept (Nat.mod_lt j (by decide))
    (show j / 64 < 64 by omega)
  rwa [place] at pixel

/-- The second round of a game that begins with a hard drop, until the drop of the second block is
    over. -/
theorem second_drawn : (Game.stateAt 1#32 (fun _ => .INPUT_HARD_DROP) 8).point = .poll ∧
    ∀ k, 8 < k → k < 15 → (Game.stateAt 1#32 (fun _ => .INPUT_HARD_DROP) k).point ≠ .poll := by
  refine ⟨by decide +kernel, fun k after before => ?_⟩
  have between : ∀ k < 15, 8 < k → (Game.stateAt 1#32 (fun _ => .INPUT_HARD_DROP) k).point ≠
      .poll := by decide +kernel
  exact between k before after

theorem second_shown :
    Shows (Game.stateAt 1#32 (fun _ => .INPUT_HARD_DROP) 8).image
      (stateAt 1#32 (fun _ => .INPUT_HARD_DROP) (fun _ => 0xff#8)
        ⟨VgaRegisters.reset, fun _ => 0xffffffff#32⟩ 15).vga :=
  screen_shows 1#32 (fun _ => .INPUT_HARD_DROP) (fun _ => 0xff#8)
    ⟨VgaRegisters.reset, fun _ => 0xffffffff#32⟩ 8 15
    second_drawn.1 (by decide) second_drawn.2

/-! ### Cells on the screen -/

/-- Black on the screen are only the pixels that are black in memory. -/
theorem palette_black {palette : BitVec 4 → Colour}
    (colours : ∀ color < 10, palette (.ofNat 4 color) = PALETTE (.ofNat 4 color)) {color : Byte}
    (small : color.toNat < 10) : palette (color.setWidth 4) = 0x00#6 ↔ color = COLOR_BLACK := by
  have entry : color.setWidth 4 = .ofNat 4 color.toNat := by
    apply BitVec.eq_of_toNat_eq
    rw [BitVec.toNat_setWidth, BitVec.toNat_ofNat]
  have all : ∀ color < 10, PALETTE (.ofNat 4 color) = 0x00#6 ↔ color = 0 := by decide
  rw [entry, colours _ small, all _ small]
  exact ⟨fun zero => BitVec.eq_of_toNat_eq zero, fun black => black ▸ rfl⟩

/-- A cell is a square of eighteen by eighteen positions on the screen. -/
theorem image_cell (game : Game) {x y dx dy : ℕ} (column : x < GRID_WIDTH)
    (row : y < GRID_HEIGHT) (right : dx < 18)
    (down : dy < 18) :
    game.image ((140 + 18 * x + dx - 128) / 6) ((384 - 18 * y + dy - 48) / 6) =
      game.cellColor ((x : ℤ), (y : ℤ)) := by
  simp only [GRID_WIDTH, GRID_HEIGHT] at column row
  have window : Window ((140 + 18 * x + dx - 128) / 6) ((384 - 18 * y + dy - 48) / 6) := by
    rw [Window]
    omega
  have cell : cellAt ((140 + 18 * x + dx - 128) / 6) ((384 - 18 * y + dy - 48) / 6) =
      ((x : ℤ), (y : ℤ)) := by
    simp only [cellAt, Prod.mk.injEq]
    omega
  rw [Game.image, if_pos window, cell]

/-- In every round no cell of the current block is occupied and the colours of the grid agree with
    its rows; on the screen the cells of the grid are not black exactly if they are cells of the
    block or occupied. -/
theorem cells_visible (seed : BitVec 32) (inputs : ℕ → Input) (framebuffer : Canvas)
    (vga : VgaStore) (n m : ℕ)
    (drawn : (Game.stateAt seed inputs n).point = .poll) (later : n < m)
    (kept : ∀ k, n < k → k < m → (Game.stateAt seed inputs k).point ≠ .poll) :
    (∀ cell ∈ (Game.stateAt seed inputs n).current_block.cells,
    ¬ (Game.stateAt seed inputs n).grid.Occupied cell) ∧
      (Game.stateAt seed inputs n).grid.Consistent ∧
      ∃ canvas palette, Uploaded 0 canvas palette (stateAt seed inputs framebuffer vga m).vga ∧
        ∀ x < GRID_WIDTH, ∀ y < GRID_HEIGHT, ∀ dx < 18, ∀ dy < 18,
          (shownColour canvas palette (140 + 18 * x + dx) (384 - 18 * y + dy) ≠ 0x00#6 ↔
            Xor (((x : ℤ), (y : ℤ)) ∈ (Game.stateAt seed inputs n).current_block.cells)
              ((Game.stateAt seed inputs n).grid.Occupied (x, y))) := by
  have lit := lit_always seed inputs framebuffer vga m
  have painted := Game.painted_always seed inputs n
  have shaped := Game.shaped_always seed inputs n
  have inv := Game.inv_always seed inputs n
  rw [Game.Inv, drawn] at inv
  refine ⟨inv.2.free, painted.grid, _, _, lit.uploaded, fun x column y row dx right dy down => ?_⟩
  have free := inv.2.free (x, y)
  have pixel := canvas_shows seed inputs framebuffer vga drawn later kept
    (show (140 + 18 * x + dx - 128) / 6 < 64 by simp only [GRID_WIDTH] at column; omega)
    (show (384 - 18 * y + dy - 48) / 6 < 64 by omega)
  rw [image_cell _ column row right down, Nat.mul_comm] at pixel
  have inside : 128 ≤ 140 + 18 * x + dx ∧ 140 + 18 * x + dx < 512 ∧ 48 ≤ 384 - 18 * y + dy ∧
      384 - 18 * y + dy < 432 := by
    simp only [GRID_WIDTH, GRID_HEIGHT] at column row
    omega
  rw [shownColour, if_pos inside, VgaUpload.pixel, pixel, ne_eq,
    palette_black lit.palette (Game.cellColor_small painted shaped _),
    Game.cellColor_black painted shaped, not_not]
  rw [Xor]
  tauto

/-- Three blocks side by side fill the lowest row, so that it is cleared. -/
def clearingInputs (n : ℕ) : Input :=
  if n < 14 then .INPUT_LEFT else if n < 30 then .INPUT_HARD_DROP else if n < 41 then
    .INPUT_RIGHT else .INPUT_HARD_DROP

theorem fourth_drawn : (Game.stateAt 41#32 clearingInputs 49).point = .poll ∧
    ∀ k, 49 < k → k < 56 → (Game.stateAt 41#32 clearingInputs k).point ≠ .poll := by
  refine ⟨by decide +kernel, fun k after before => ?_⟩
  have between : ∀ k < 56, 49 < k → (Game.stateAt 41#32 clearingInputs k).point ≠
      .poll := by decide +kernel
  exact between k before after

/-- What is left of the blocks above the cleared row is to be seen in it. -/
theorem cleared_visible :
    (Game.stateAt 41#32 clearingInputs 49).grid.lines_cleared = 1#16 ∧
      ∃ canvas palette, Uploaded 0 canvas palette
          (stateAt 41#32 clearingInputs (fun _ => 0xff#8)
            ⟨VgaRegisters.reset, fun _ => 0xffffffff#32⟩ 56).vga ∧
        ∀ x < GRID_WIDTH, ∀ y < GRID_HEIGHT, ∀ dx < 18, ∀ dy < 18,
          (shownColour canvas palette (140 + 18 * x + dx) (384 - 18 * y + dy) ≠ 0x00#6 ↔
            Xor (((x : ℤ), (y : ℤ)) ∈ (Game.stateAt 41#32 clearingInputs 49).current_block.cells)
              ((Game.stateAt 41#32 clearingInputs 49).grid.Occupied (x, y))) :=
  ⟨by decide +kernel, (cells_visible 41#32 clearingInputs (fun _ => 0xff#8)
    ⟨VgaRegisters.reset, fun _ => 0xffffffff#32⟩ 49 56 fourth_drawn.1
      (by decide) fourth_drawn.2).2.2⟩

end Play

end MyCpu.Tetris
