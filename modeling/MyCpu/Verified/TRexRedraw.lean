import Mathlib.Tactic.Linarith
import MyCpu.Lib.Clocked
import MyCpu.Software.TRex
import MyCpu.Verified.VgaDisplay

/-! # The partial redraw of the T-Rex game

An iteration clears rows 28 to 57 of the framebuffer, paints the cactus and the dinosaur, and
uploads only the words of these rows.  The jump keeps the dinosaur between rows 29 and 57, so that
the other rows are the horizon all the time, in memory and in the VGA, and the frame is the whole
picture. -/

namespace MyCpu.TRex

open VgaConstants VgaUpload

/-! ## What is to be seen -/

/-- The picture with its corner at `(left, top)` covers the pixel `(x, y)`. -/
def Covers (shape : List Byte) (size : ℕ) (left top : ℤ) (x y : ℕ) : Prop :=
  (left ≤ x ∧ x < left + size) ∧ (top ≤ y ∧ y < top + size) ∧
    shown shape (y - top).toNat (x - left).toNat = true

instance (shape : List Byte) (size : ℕ) (left top : ℤ) (x y : ℕ) :
    Decidable (Covers shape size left top x y) :=
  inferInstanceAs (Decidable (_ ∧ _ ∧ _))

/-- Row 58, and every fourth pixel of row 59. -/
def horizon (x y : ℕ) : BitVec 4 := if y = 58 ∨ y = 59 ∧ x % 4 = 0 then 2#4 else 0#4

/-- The dinosaur as it runs or ducks. -/
def Game.dino_picture (game : Game) : List Byte :=
  (if game.setdown_times > 0 then dino_shape_setdown else dino_shape).getD
    (game.body_picture % 2) []

/-- The horizon, the cactus and the dinosaur, and nothing else. -/
def Game.image (game : Game) (x y : ℕ) : BitVec 4 :=
  if Covers game.dino_picture 8 dino_x game.dino_y x y ∨
    Covers cactus_shape_mini 4 game.cactus_x cactus_y x y then 1#4
  else horizon x y

/-- Pixel `(x, y)` of frame 0. -/
def framePixel (vga : VgaStore) (x y : ℕ) : BitVec 4 :=
  (vga.mem (frameAddr 0 ((64 * y + x) / 8))).extractLsb' (4 * ((64 * y + x) % 8)) 4

/-- The rows that an iteration clears. -/
def Cleared (y : ℕ) : Prop := 28 ≤ y ∧ y < 58

instance (y : ℕ) : Decidable (Cleared y) := inferInstanceAs (Decidable (_ ∧ _))

/-! ## The canvas -/

section Canvas

variable {x y : ℕ}

theorem place_covered {shape : List Byte} {size : ℕ} {left top : ℤ}
    (column : x < 64) (line : y < 64) :
    Painting.Covered (drawn shape left top) (address left top)
      ((List.range size).product (List.range size))
      (64 * y + x) ↔ Covers shape size left top x y := by
  simp only [Painting.Covered, drawn, address, Bool.and_eq_true, decide_eq_true_eq]
  constructor
  · rintro ⟨⟨row, col⟩, member, ⟨⟨⟨⟨shown, right⟩, right'⟩, below⟩, below'⟩, here⟩
    obtain ⟨inside, inside'⟩ := List.pair_mem_product.mp member
    rw [List.mem_range] at inside inside'
    simp only at here right right' below below'
    -- a pixel of the canvas has one address
    have same : top + row = y ∧ left + col = x := by omega
    have picture : (y - top).toNat = row ∧ (x - left).toNat = col := by omega
    refine ⟨by omega, by omega, ?_⟩
    rw [picture.1, picture.2, shown]
  · rintro ⟨inside, inside', shown⟩
    refine ⟨((y - top).toNat, (x - left).toNat), List.pair_mem_product.mpr ⟨?_, ?_⟩,
      ⟨⟨⟨⟨shown, ?_⟩, ?_⟩, ?_⟩, ?_⟩, ?_⟩
    · exact List.mem_range.mpr (by omega)
    · exact List.mem_range.mpr (by omega)
    all_goals
      simp only
      omega

theorem place_pixel {shape : List Byte} {size : ℕ} {left top : ℤ} {color : Byte}
    {canvas : Canvas} (column : x < 64)
    (line : y < 64) :
    pixel (place shape size left top color canvas) (64 * y + x) =
      if Covers shape size left top x y then color.setWidth 4 else pixel canvas (64 * y + x) := by
  have covered := @place_covered x y shape size left top column line
  rw [pixel, place]
  split_ifs with covers
  · rw [Painting.paint_covered (covered.mpr covers)]
  · rw [Painting.paint_uncovered (mt covered.mp covers), pixel]

theorem cleanup_pixel {canvas : Canvas} (column : x < 64) :
    pixel (draw_cleanup_buffers canvas) (64 * y + x) = if Cleared y then 0#4
      else pixel canvas (64 * y + x) := by
  have band : 28 * 64 ≤ 64 * y + x ∧ 64 * y + x < 58 * 64 ↔ Cleared y := by
    rw [Cleared]
    omega
  simp only [pixel, draw_cleanup_buffers, band]
  split_ifs <;> rfl

theorem horizon_pixel {canvas : Canvas} (column : x < 64) (line : y < 64) :
    pixel (draw_horizon 2#8 58 fun i => if i < 4096 then 0#8 else canvas i)
      (64 * y + x) = horizon x y := by
  have row : Painting.Covered (fun _ => decide ((0 : ℤ) ≤ 58 ∧ (58 : ℤ) < 64))
      (fun x : ℕ => ((58 : ℤ) * 64 + x).toNat)
      (List.range 64) (64 * y + x) ↔ y = 58 := by
    simp only [Painting.Covered, List.mem_range, decide_eq_true_eq]
    constructor
    · rintro ⟨x', inside, _, here⟩
      omega
    · rintro rfl
      exact ⟨x, column, by decide, by omega⟩
  have dots : Painting.Covered (fun _ => true)
      (fun x : ℕ => (((58 : ℤ) + 1) * 64 + 4 * x).toNat) (List.range 16)
      (64 * y + x) ↔ y = 59 ∧ x % 4 = 0 := by
    simp only [Painting.Covered, List.mem_range, true_and]
    constructor
    · rintro ⟨x', inside, here⟩
      omega
    · rintro ⟨rfl, fourth⟩
      exact ⟨x / 4, by omega, by omega⟩
  rw [pixel, draw_horizon, horizon]
  by_cases dotted : y = 59 ∧ x % 4 = 0
  · rw [Painting.paint_covered (dots.mpr dotted), if_pos (Or.inr dotted)]
    rfl
  · rw [Painting.paint_uncovered (mt dots.mp dotted)]
    by_cases drawn : y = 58
    · rw [Painting.paint_covered (row.mpr drawn), if_pos (Or.inl drawn)]
      rfl
    · have blank : ¬ (y = 58 ∨ y = 59 ∧ x % 4 = 0) := not_or.mpr ⟨drawn, dotted⟩
      rw [Painting.paint_uncovered (mt row.mp drawn), if_neg blank, if_pos (by omega)]
      rfl

end Canvas

theorem covers_cleared {shape : List Byte} {size : ℕ} {left top : ℤ} {x y : ℕ} (below : 28 ≤ top)
    (above : top + size ≤ 58) (covers : Covers shape size left top x y) : Cleared y := by
  obtain ⟨_, inside, _⟩ := covers
  rw [Cleared]
  omega

/-! ## Uploads -/

theorem packed_nibble (canvas : Canvas) (i : ℕ) :
    (packed canvas (i / 8)).extractLsb' (4 * (i % 8)) 4 = pixel canvas i := by
  rw [packed, VgaScan.pixel_4bit_packed _ _ (Nat.mod_lt i (by decide)), Nat.div_add_mod, pixel]

theorem stream_pixel {canvas : Canvas} {vga : VgaStore} {first words x y : ℕ}
    (streams : Streams 0 first vga.registers)
    (bound : first + words ≤ WORDS_PER_FRAME) (column : x < 64)
    (line : y < 64) :
    framePixel ((streamFrom canvas first words).foldl VgaStore.write vga) x y =
      if first ≤ (64 * y + x) / 8 ∧ (64 * y + x) / 8 < first + words then pixel canvas (64 * y + x)
      else framePixel vga x y := by
  have inside : (64 * y + x) / 8 < WORDS_PER_FRAME := by
    simp only [WORDS_PER_FRAME, PIXELS_PER_FRAME]
    omega
  rw [framePixel, (stream_placed canvas (by decide) vga streams bound).2 _ inside]
  split_ifs
  · exact packed_nibble canvas _
  · rfl

theorem ctrl_pixel (vga : VgaStore) (word : Word) (x y : ℕ) :
    framePixel (vga.write (VgaReg.CTRL, word)) x y = framePixel vga x y := rfl

namespace Game

variable {game : Game}

/-! ## The jump -/

/-- While the dinosaur rises it cannot rise above row 29. -/
structure Jumps (game : Game) : Prop where
  high : 29 ≤ game.dino_y
  low : game.dino_y ≤ GROUND_Y
  rises : game.y_velocity < 0 → 58 + game.y_velocity * (game.y_velocity - 1) ≤ 2 * game.dino_y

theorem jumps_input (jumps : game.Jumps) (key : Option Byte) : (game.handle_input key).Jumps := by
  cases key with
  | none => exact jumps
  | some key =>
    have jumped : (game.jump_input key).Jumps := by
      rw [jump_input]
      split_ifs with jump
      · refine ⟨jumps.high, jumps.low, fun _ => ?_⟩
        simp only [jump.2]
        decide
      · exact jumps
    rw [handle_input, duck_input]
    split_ifs
    · exact ⟨jumped.high, jumped.low, fun falls => absurd falls (by decide : ¬ (4 : ℤ) < 0)⟩
    · exact ⟨jumped.high, jumped.low, jumped.rises⟩
    · exact jumped

theorem jumps_physics (jumps : game.Jumps) : game.update_physics.Jumps := by
  obtain ⟨high, low, rises⟩ := jumps
  rw [update_physics]
  split_ifs with air
  · have above : 29 ≤ game.dino_y + game.y_velocity := by
      by_cases rising : game.y_velocity < 0
      · have turning : 0 ≤ game.y_velocity * (game.y_velocity + 1) := by nlinarith only [rising]
        linarith only [turning, rises rising]
      · omega
    refine ⟨above, air.le, fun rising => ?_⟩
    have gravity : GRAVITY = 1 := rfl
    simp only [gravity] at rising ⊢
    linarith only [rises (by omega)]
  · exact ⟨(by decide : 29 ≤ GROUND_Y), le_rfl, fun falls => absurd falls (lt_irrefl (0 : ℤ))⟩

/-! ## The frame -/

/-- The rows that an iteration does not clear are the horizon. -/
structure Framed (game : Game) : Prop where
  canvas : ∀ x < 64, ∀ y < 64, ¬ Cleared y → pixel game.vga_framebuffer (64 * y + x) = horizon x y
  frame : ∀ x < 64, ∀ y < 64, ¬ Cleared y → framePixel game.vga x y = horizon x y

theorem start_framed (vga_framebuffer : Canvas) {vga : VgaStore}
    (reset : vga.registers.uploadAddrReg = 0#32) :
    (start vga_framebuffer vga).Framed := by
  have streams : Streams 0 0 vga.registers := by
    constructor
    · rw [VgaRegisters.upload_frame, reset]
      rfl
    · rw [VgaRegisters.upload_pix_addr, reset]
      rfl
  refine ⟨fun x column y line _ => horizon_pixel column line, fun x column y line _ => ?_⟩
  rw [start, draw_init_buffers, send, streamWrites_eq]
  simp only
  rw [stream_pixel streams le_rfl column line, if_pos (by omega), horizon_pixel column line]

theorem die_framed (framed : game.Framed) : game.draw_die.Framed := by
  -- the skull lies in the rows that are cleared
  have canvas : ∀ x < 64, ∀ y < 64, ¬ Cleared y →
      pixel (place_die (draw_cleanup_buffers game.vga_framebuffer)) (64 * y + x) = horizon x y := by
    intro x column y line other
    rw [place_die, place_pixel column line,
      if_neg (mt (covers_cleared (by decide) (by decide)) other), cleanup_pixel column,
      if_neg other, framed.canvas x column y line other]
  refine ⟨canvas, fun x column y line other => ?_⟩
  have streams : Streams 0 0 (game.vga.write (VgaReg.UPLOAD_ADDR, 0#32)).registers :=
    streams_start (by decide)
  rw [draw_die, draw_swap_buffers, send, List.cons_append, List.foldl_cons,
    List.foldl_append, streamWrites_eq, List.foldl_cons, List.foldl_nil]
  simp only
  rw [ctrl_pixel, stream_pixel streams le_rfl column line, if_pos (by omega),
    canvas x column y line other]

theorem upload_pixel {x y : ℕ} (column : x < 64) (line : y < 64) :
    framePixel game.upload.vga x y =
      if Cleared y then pixel game.vga_framebuffer (64 * y + x) else framePixel game.vga x y := by
  have fields : VgaRegisters.upload_frame ⟨0#32, 0#32 <<< 16 ||| 1792#32, fun _ => 0#6⟩ = 0#4 ∧
      VgaRegisters.upload_pix_addr ⟨0#32, 0#32 <<< 16 ||| 1792#32, fun _ => 0#6⟩ = 1792#16 := by
    decide
  have streams :
      Streams 0 224 (game.vga.write (VgaReg.UPLOAD_ADDR, 0#32 <<< 16 ||| 1792#32)).registers :=
    ⟨fields.1, fields.2⟩
  have rows : 224 ≤ (64 * y + x) / 8 ∧ (64 * y + x) / 8 < 224 + 240 ↔ Cleared y := by
    rw [Cleared]
    omega
  rw [upload, send, List.foldl_cons]
  simp only
  rw [stream_pixel streams (by decide) column line]
  exact if_congr rows rfl rfl

theorem draw_canvas : game.draw.vga_framebuffer =
    place game.dino_picture 8 dino_x game.dino_y 1#8
      (place_cactus game.cactus_x cactus_y 1#8 (draw_cleanup_buffers game.vga_framebuffer)) := by
  rw [draw, dino_picture]
  split_ifs <;> rfl

theorem draw_same : game.draw.vga = game.vga ∧ game.draw.dino_y = game.dino_y ∧
    game.draw.y_velocity = game.y_velocity := by
  rw [draw]
  split_ifs <;> exact ⟨rfl, rfl, rfl⟩

theorem image_background {x y : ℕ} (jumps : game.Jumps) (other : ¬ Cleared y) :
    game.image x y = horizon x y := by
  obtain ⟨high, low, _⟩ := jumps
  have ground : GROUND_Y = 50 := rfl
  refine if_neg fun covered => other ?_
  cases covered with
  | inl dinosaur => exact covers_cleared (by omega) (by omega) dinosaur
  | inr cactus => exact covers_cleared (by decide) (by decide) cactus

theorem draw_pixel {x y : ℕ} (framed : game.Framed) (column : x < 64) (line : y < 64) :
    pixel game.draw.vga_framebuffer (64 * y + x) = game.image x y := by
  have cleaned : (if Cleared y then 0#4 else pixel game.vga_framebuffer (64 * y + x)) =
      horizon x y := by
    split_ifs with cleared
    · rw [Cleared] at cleared
      rw [horizon, if_neg (by omega)]
    · exact framed.canvas x column y line cleared
  rw [draw_canvas, place_pixel column line, place_cactus, place_pixel column line,
    cleanup_pixel column, cleaned, image, ite_or]
  rfl

/-- The upload of an iteration completes the frame. -/
theorem redraw_step {x y : ℕ} (jumps : game.Jumps) (framed : game.Framed)
    (column : x < 64) (line : y < 64) :
    framePixel game.draw.upload.vga x y = game.image x y := by
  rw [upload_pixel column line]
  split_ifs with cleared
  · exact draw_pixel framed column line
  · rw [draw_same.1, framed.frame x column y line cleared, image_background jumps cleared]

/-! ## The run -/

theorem Jumps.of_same {other : Game} (jumps : game.Jumps) (height : other.dino_y = game.dino_y)
    (velocity : other.y_velocity = game.y_velocity) : other.Jumps := by
  obtain ⟨high, low, rises⟩ := jumps
  rw [← height] at high low rises
  rw [← velocity] at rises
  exact ⟨high, low, rises⟩

theorem Framed.of_same {other : Game} (framed : game.Framed)
    (canvas : other.vga_framebuffer = game.vga_framebuffer)
    (vga : other.vga = game.vga) : other.Framed := by
  obtain ⟨canvas', frame⟩ := framed
  rw [← canvas] at canvas'
  rw [← vga] at frame
  exact ⟨canvas', frame⟩

theorem input_framed (framed : game.Framed) (key : Option Byte) :
    (game.handle_input key).Framed := by
  cases key with
  | none => exact framed
  | some key =>
    have jumped : (game.jump_input key).Framed := by
      rw [jump_input]
      split_ifs
      · exact framed.of_same rfl rfl
      · exact framed
    rw [handle_input, duck_input]
    split_ifs
    · exact jumped.of_same rfl rfl
    · exact jumped.of_same rfl rfl
    · exact jumped

theorem move_kept (jumps : game.Jumps) (framed : game.Framed) (key : Option Byte) :
    (game.move key).Jumps ∧ (game.move key).Framed := by
  have jumped : (game.handle_input key).update_physics.Jumps :=
    jumps_physics (jumps_input jumps key)
  have kept : (game.handle_input key).update_physics.Framed := by
    rw [update_physics]
    split_ifs <;> exact (input_framed framed key).of_same rfl rfl
  rw [move]
  generalize (game.handle_input key).update_physics = moved at jumped kept ⊢
  have collided : moved.collide.Jumps ∧ moved.collide.Framed := by
    rw [collide]
    split_ifs
    · exact ⟨jumped.of_same rfl rfl, die_framed (kept.of_same rfl rfl)⟩
    · exact ⟨jumped, kept⟩
  exact ⟨collided.1.of_same rfl rfl, collided.2.of_same rfl rfl⟩

theorem step_kept (jumps : game.Jumps) (framed : game.Framed) (key : Option Byte) :
    (game.step key).Jumps ∧ (game.step key).Framed := by
  obtain ⟨jumps, framed⟩ := move_kept jumps framed key
  rw [step]
  generalize game.move key = moved at jumps framed ⊢
  refine ⟨jumps.of_same ?_ ?_, fun x column y line other => ?_, fun x column y line other => ?_⟩
  · simp only [send, upload, draw_same.2.1]
  · simp only [send, upload, draw_same.2.2]
  · have drawn := (draw_pixel framed column line).trans (image_background jumps other)
    simpa only [send, upload] using drawn
  · have redrawn := (redraw_step jumps framed column line).trans (image_background jumps other)
    rw [send, List.foldl_cons, List.foldl_nil]
    simp only
    rw [ctrl_pixel, redrawn]

/-- After the upload of every iteration frame 0 is the whole picture, whatever keys came when. -/
theorem redraw_full (vga_framebuffer : Canvas) (vga : VgaStore)
    (reset : vga.registers.uploadAddrReg = 0#32)
    (keys : ℕ → Option Byte) (n : ℕ) {x y : ℕ} (column : x < 64) (line : y < 64) :
    framePixel ((Clocked.stateAt step (start vga_framebuffer vga) keys n).move
      (keys n)).draw.upload.vga x y =
      ((Clocked.stateAt step (start vga_framebuffer vga) keys n).move (keys n)).image x y := by
  have started : (start vga_framebuffer vga).Jumps :=
    ⟨(by decide : (29 : ℤ) ≤ 50), (by decide : 50 ≤ GROUND_Y),
    fun falls => absurd falls (lt_irrefl (0 : ℤ))⟩
  have kept := @Clocked.invariant_always _ _ step (fun game => game.Jumps ∧ game.Framed) _ keys
    ⟨started, start_framed vga_framebuffer reset⟩
    (fun game key kept => step_kept kept.1 kept.2 key) n
  obtain ⟨jumps, framed⟩ := move_kept kept.1 kept.2 (keys n)
  exact redraw_step jumps framed column line

/-- The back of the dinosaur in the fourth iteration of a jump. -/
theorem jump_redrawn :
    framePixel ((Clocked.stateAt step
      (start (fun _ => 0xff#8) ⟨VgaRegisters.reset, fun _ => 0xffffffff#32⟩)
      (fun _ => some 0x77#8) 3).move (some 0x77#8)).draw.upload.vga 8 33 = 1#4 :=
  (redraw_full (fun _ => 0xff#8) ⟨VgaRegisters.reset, fun _ => 0xffffffff#32⟩ rfl
    (fun _ => some 0x77#8) 3 (by decide)
    (by decide)).trans (by decide)

end Game

end MyCpu.TRex
