import MyCpu.Verified.VgaStore

/-! # From the upload to the screen

Scan-out runs over the columns and lines in the pixel domain.  The colour that
leaves the VGA belongs to the position that leaves it in the same cycle, two edges
of the pixel clock behind the counters: the framebuffer is read with the position
one edge old, and everything else is delayed to match.  `Scanned` gives the position
by the number of edges, `Settled` what has come through the synchronisers. -/

namespace MyCpu

open VgaConstants VgaScan VgaUpload

/-! ## Pixels of the frame -/

namespace VgaScan

/-- The pixel of the frame that is shown at a position. -/
def shownPixel (x y : ℕ) : ℕ := (y - 48) / 6 * 64 + (x - 128) / 6

/-- The position lies in the scaled frame. -/
def Shown (x y : ℕ) : Prop := (128 ≤ x ∧ x < 512) ∧ 48 ≤ y ∧ y < 432

instance (x y : ℕ) : Decidable (Shown x y) := instDecidableAnd

theorem in_display_shown (x_px y_px : BitVec 10) :
    in_display x_px y_px = decide (Shown x_px.toNat y_px.toNat) := by
  rw [Bool.eq_iff_iff, decide_eq_true_eq]
  simp only [in_display, in_display_x, in_display_y, Bool.and_eq_true, decide_eq_true_eq]
  exact Iff.rfl

theorem frame_x_shown : ∀ x_px : BitVec 10, 128 ≤ x_px.toNat → x_px.toNat < 512 →
    (frame_x x_px).toNat = (x_px.toNat - 128) / 6 := by
  decide +kernel

theorem frame_y_shown : ∀ y_px : BitVec 10, 48 ≤ y_px.toNat → y_px.toNat < 432 →
    (frame_y y_px).toNat = (y_px.toNat - 48) / 6 := by
  decide +kernel

section Position

variable {x_px y_px : BitVec 10}

theorem pixel_idx_shown (shown : Shown x_px.toNat y_px.toNat) :
    (pixel_idx x_px y_px).toNat = shownPixel x_px.toNat y_px.toNat ∧
      shownPixel x_px.toNat y_px.toNat < 4096 := by
  obtain ⟨⟨left, right⟩, top, bottom⟩ := shown
  have column := frame_x_shown x_px left right
  have line := frame_y_shown y_px top bottom
  have bound : shownPixel x_px.toNat y_px.toNat < 4096 := by
    rw [shownPixel]
    omega
  refine ⟨?_, bound⟩
  rw [shownPixel] at bound ⊢
  simp only [pixel_idx, FRAME_WIDTH]
  rw [BitVec.toNat_add, BitVec.toNat_mul, BitVec.toNat_setWidth,
    BitVec.toNat_setWidth, column, line, BitVec.toNat_ofNat]
  omega

theorem pixel_in_word_shown (shown : Shown x_px.toNat y_px.toNat) :
    (pixel_in_word x_px y_px).toNat = shownPixel x_px.toNat y_px.toNat % 8 := by
  rw [pixel_in_word, BitVec.extractLsb'_toNat, (pixel_idx_shown shown).1]
  rfl

/-- The read address is that of the word with the pixel. -/
theorem fb_read_addr_shown {frame_index : ℕ} (valid : frame_index < NUM_FRAMES)
    (shown : Shown x_px.toNat y_px.toNat) :
    fb_read_addr x_px y_px (BitVec.ofNat 4 frame_index) =
      frameAddr frame_index (shownPixel x_px.toNat y_px.toNat / 8) := by
  obtain ⟨index, bound⟩ := pixel_idx_shown shown
  have inside : shownPixel x_px.toNat y_px.toNat / 8 < WORDS_PER_FRAME := by
    simp only [WORDS_PER_FRAME, PIXELS_PER_FRAME]
    omega
  apply BitVec.eq_of_toNat_eq
  rw [frameAddr_toNat valid inside, fb_read_addr]
  simp only [NUM_FRAMES] at valid
  simp only [WORDS_PER_FRAME, PIXELS_PER_FRAME, BitVec.toNat_setWidth,
    BitVec.toNat_add, BitVec.toNat_mul, BitVec.toNat_ushiftRight, BitVec.toNat_ofNat, index,
    Nat.shiftRight_eq_div_pow]
  omega

end Position

theorem pixel_4bit_packed (pixels : ℕ → Byte) (k : ℕ) (inside : k < 8) :
    (vga_pack8_pixels pixels).extractLsb' (4 * k) 4 = (pixels k).setWidth 4 := by
  -- the nibbles of a packed word are the pixels
  apply BitVec.eq_of_getLsbD_eq
  intro i bit
  interval_cases k <;> interval_cases i <;> simp [vga_pack8_pixels]

end VgaScan

/-! ## Where the scan is -/

/-- The number of edges of the pixel clock among the first `n` edges. -/
def pixelEdges (edges : ℕ → VgaEdge) : ℕ → ℕ
  | 0 => 0
  | n + 1 => pixelEdges edges n + (edges n).pixClock.toNat

/-- The counters after `t` edges, and the positions on their way to the output. -/
structure Scanned (t : ℕ) (pixel : VgaPixelSide) : Prop where
  h_count : pixel.h_count.toNat = t % H_TOTAL
  v_count : pixel.v_count.toNat = t / H_TOTAL % V_TOTAL
  frame_count : pixel.frame_count.toNat = min (t / H_TOTAL / V_TOTAL) 2
  x_px : ∀ s, t = s + 1 → pixel.x_px.toNat = s % H_TOTAL ∧ pixel.h_active_d1 = h_active pixel.x_px
  y_px : ∀ s, t = s + 1 → pixel.y_px.toNat = s / H_TOTAL % V_TOTAL ∧
    pixel.v_active_d1 = v_active pixel.y_px
  x_pos : ∀ s, t = s + 2 → pixel.x_pos.toNat = s % H_TOTAL ∧
    pixel.h_active_d2 = h_active pixel.x_pos
  y_pos : ∀ s, t = s + 2 → pixel.y_pos.toNat = s / H_TOTAL % V_TOTAL ∧
    pixel.v_active_d2 = v_active pixel.y_pos

theorem scanned_reset {vga : Vga} (reset : vga.Reset) : Scanned 0 vga.pixel where
  h_count := by rw [reset.h_count]; rfl
  v_count := by rw [reset.v_count]; rfl
  frame_count := by rw [reset.frame_count]; rfl
  x_px := fun s none => absurd none (by omega)
  y_px := fun s none => absurd none (by omega)
  x_pos := fun s none => absurd none (by omega)
  y_pos := fun s none => absurd none (by omega)

theorem scanned_step {t : ℕ} {pixel : VgaPixelSide} (scanned : Scanned t pixel)
    (registers : VgaRegisters)
    (mem : Framebuffer) : Scanned (t + 1) (pixel.step registers mem) := by
  obtain ⟨h_count, v_count, frame_count, x_px, y_px, _, _⟩ := scanned
  have width : H_TOTAL = 832 := rfl
  have height : V_TOTAL = 520 := rfl
  rw [width] at h_count v_count frame_count
  rw [height] at v_count frame_count
  have column : pixel.lastColumn = decide (t % 832 = 831) := by
    rw [VgaPixelSide.lastColumn, h_count, width]
  have line : pixel.lastLine = decide (t / 832 % 520 = 519) := by
    rw [VgaPixelSide.lastLine, v_count, height]
  have lineAfter : (t + 1) / 832 = if t % 832 = 831 then t / 832 + 1 else t / 832 := by
    split <;> omega
  constructor
  · simp only [VgaPixelSide.step, column, decide_eq_true_eq]
    rw [width]
    split
    · rw [BitVec.toNat_ofNat]
      omega
    · rw [BitVec.toNat_add, h_count, BitVec.toNat_ofNat]
      omega
  · simp only [VgaPixelSide.step, column, line, decide_eq_true_eq]
    rw [width, height, lineAfter]
    split
    · split
      · rw [BitVec.toNat_ofNat]
        omega
      · rw [BitVec.toNat_add, v_count, BitVec.toNat_ofNat]
        omega
    · exact v_count
  · -- the frame counter stops at two
    have counts : decide (pixel.frame_count < 2#2) = decide (t / 832 / 520 < 2) := by
      refine decide_eq_decide.mpr ?_
      rw [BitVec.lt_def, frame_count, BitVec.toNat_ofNat]
      omega
    simp only [VgaPixelSide.step, column, line, counts, Bool.and_eq_true, decide_eq_true_eq]
    rw [width, height, lineAfter]
    split
    · rw [BitVec.toNat_add, frame_count, BitVec.toNat_ofNat, if_pos (by omega)]
      omega
    · rw [frame_count]
      split <;> omega
  · intro s now
    obtain rfl : t = s := by omega
    exact ⟨h_count, rfl⟩
  · intro s now
    obtain rfl : t = s := by omega
    exact ⟨v_count, rfl⟩
  · intro s now
    exact x_px s (by omega)
  · intro s now
    exact y_px s (by omega)

/-! ## What has come through the synchronisers -/

/-- The pixel domain, so many of its edges after the frame was uploaded. -/
structure Settled (frame_index : ℕ) (frame_buffer : ℕ → Byte)
    (palette : BitVec 4 → Colour) (passed : ℕ)
    (pixel : VgaPixelSide) : Prop where
  aligned : 1 ≤ passed → pixel.in_display_d1 = in_display pixel.x_px_d1 pixel.y_px_d1 ∧
    pixel.pixel_in_word_d1 = pixel_in_word pixel.x_px_d1 pixel.y_px_d1
  sync1 : 1 ≤ passed → pixel.curr_frame_sync1 = BitVec.ofNat 4 frame_index ∧
    pixel.display_enabled_sync1 = true ∧
    pixel.blanking_sync1 = false ∧ pixel.palette_sync1 = palette
  synced : 2 ≤ passed → pixel.curr_frame = BitVec.ofNat 4 frame_index ∧
    pixel.display_enabled = true ∧
    pixel.blanking = false ∧ pixel.palette_sync = palette
  doutb : 3 ≤ passed → Shown pixel.x_px_d1.toNat pixel.y_px_d1.toNat →
    pixel.doutb = packed frame_buffer (shownPixel pixel.x_px_d1.toNat pixel.y_px_d1.toNat / 8)

section Settling

variable {frame_index : ℕ} {frame_buffer : ℕ → Byte} {palette : BitVec 4 → Colour} {passed : ℕ}
  {pixel : VgaPixelSide} {store : VgaStore}

theorem settled_start : Settled frame_index frame_buffer palette 0 pixel :=
  ⟨fun none => absurd none (by decide), fun none => absurd none (by decide),
  fun none => absurd none (by decide),
    fun none => absurd none (by decide)⟩

theorem settled_step (valid : frame_index < NUM_FRAMES)
    (uploaded : Uploaded frame_index frame_buffer palette store)
    (settled : Settled frame_index frame_buffer palette passed pixel) :
    Settled frame_index frame_buffer palette (passed + 1)
      (pixel.step store.registers store.mem) := by
  refine ⟨fun _ => ⟨rfl, rfl⟩, fun _ => ?_, fun later => settled.sync1 (by omega),
    fun later shown => ?_⟩
  · exact ⟨uploaded.selected, uploaded.enabled, uploaded.unblanked, uploaded.palette⟩
  · -- the address is made from the position that comes out together with the word
    change Shown pixel.x_px.toNat pixel.y_px.toNat at shown
    change store.mem (fb_read_addr pixel.x_px pixel.y_px pixel.curr_frame) = _
    have bound := (pixel_idx_shown shown).2
    rw [(settled.synced (by omega)).1, fb_read_addr_shown valid shown]
    refine uploaded.frame _ ?_
    simp only [WORDS_PER_FRAME, PIXELS_PER_FRAME]
    omega

/-- The colour of a position. -/
def shownColour (frame_buffer : ℕ → Byte) (palette : BitVec 4 → Colour) (x y : ℕ) : Colour :=
  if 128 ≤ x ∧ x < 512 ∧ 48 ≤ y ∧ y < 432 then
    palette (VgaUpload.pixel frame_buffer ((y - 48) / 6 * 64 + (x - 128) / 6))
  else 1#6

theorem output_color_settled (settled : Settled frame_index frame_buffer palette passed pixel)
    (later : 3 ≤ passed) :
    pixel.output_color = shownColour frame_buffer palette pixel.x_pos.toNat pixel.y_pos.toNat := by
  obtain ⟨_, enabled, unblanked, entries⟩ := settled.synced (by omega)
  obtain ⟨inside, place⟩ := settled.aligned (by omega)
  have colour : pixel.output_color = if Shown pixel.x_px_d1.toNat pixel.y_px_d1.toNat then
      palette (pixel_4bit pixel.doutb pixel.pixel_in_word_d1) else 0x01#6 := by
    simp [VgaPixelSide.output_color, unblanked, enabled, inside, in_display_shown, entries]
  rw [colour, shownColour, VgaPixelSide.x_pos, VgaPixelSide.y_pos]
  by_cases shown : Shown pixel.x_px_d1.toNat pixel.y_px_d1.toNat
  · obtain ⟨⟨left, right⟩, top, bottom⟩ := id shown
    have nibble : shownPixel pixel.x_px_d1.toNat pixel.y_px_d1.toNat % 8 < 8 :=
      Nat.mod_lt _ (by decide)
    rw [if_pos shown, if_pos ⟨left, right, top, bottom⟩,
      settled.doutb later shown, pixel_4bit, place, pixel_in_word_shown shown, packed,
      pixel_4bit_packed _ _ nibble, Nat.div_add_mod]
    rfl
  · have outside : ¬ (128 ≤ pixel.x_px_d1.toNat ∧ pixel.x_px_d1.toNat < 512 ∧
        48 ≤ pixel.y_px_d1.toNat ∧
        pixel.y_px_d1.toNat < 432) := fun ⟨left, right, top, bottom⟩ =>
          shown ⟨⟨left, right⟩, top, bottom⟩
    rw [if_neg shown, if_neg outside]

end Settling

/-! ## The round trip -/

namespace Vga

variable {start : Vga} {edges : ℕ → VgaEdge}

/-- The settings of a frame: the control register, the palette, and the words of the frame. -/
structure SameSettings (frame_index : ℕ) (before after : VgaStore) : Prop where
  ctrlReg : after.registers.ctrlReg = before.registers.ctrlReg
  paletteReg : after.registers.paletteReg = before.registers.paletteReg
  frame : ∀ i < WORDS_PER_FRAME, after.mem (frameAddr frame_index i) =
    before.mem (frameAddr frame_index i)

theorem uploaded_stable {frame_index : ℕ} {frame_buffer : ℕ → Byte} {palette : BitVec 4 → Colour}
    {before after : VgaStore} (uploaded : Uploaded frame_index frame_buffer palette before)
    (same : SameSettings frame_index before after) :
    Uploaded frame_index frame_buffer palette after where
  frame := fun i inside => (same.frame i inside).trans (uploaded.frame i inside)
  palette := same.paletteReg.trans uploaded.palette
  enabled := by rw [VgaRegisters.ctrl_en, same.ctrlReg]; exact uploaded.enabled
  unblanked := by rw [VgaRegisters.ctrl_blank, same.ctrlReg]; exact uploaded.unblanked
  selected := by rw [VgaRegisters.ctrl_frame_sel, same.ctrlReg]; exact uploaded.selected

/-- The counters after any number of edges. -/
theorem scanned_run (reset : start.Reset) (n : ℕ) :
    Scanned (pixelEdges edges n) (stateAt start edges n).pixel := by
  induction n with
  | zero => exact scanned_reset reset
  | succ n inductionHypothesis =>
    have same : (stateAt start edges (n + 1)).pixel = if (edges n).pixClock then
        (stateAt start edges n).pixel.step (stateAt start edges n).cpu.registers
          (stateAt start edges n).mem
        else (stateAt start edges n).pixel := rfl
    rw [same, pixelEdges]
    cases (edges n).pixClock with
    | false => exact inductionHypothesis
    | true => exact scanned_step inductionHypothesis _ _

theorem pixelEdges_le {n m : ℕ} (later : n ≤ m) : pixelEdges edges n ≤ pixelEdges edges m := by
  induction later with
  | refl => exact Nat.le_refl _
  | step _ inductionHypothesis => exact Nat.le_trans inductionHypothesis (Nat.le_add_right _ _)

theorem settled_run {frame_index : ℕ} {frame_buffer : ℕ → Byte} {palette : BitVec 4 → Colour}
    (valid : frame_index < NUM_FRAMES) {n m : ℕ} (later : n ≤ m)
    (uploaded : ∀ k, n ≤ k → k < m →
      Uploaded frame_index frame_buffer palette (stateAt start edges k).store) :
    Settled frame_index frame_buffer palette (pixelEdges edges m - pixelEdges edges n)
      (stateAt start edges m).pixel := by
  induction later with
  | refl =>
    rw [Nat.sub_self]
    exact settled_start
  | @step m later inductionHypothesis =>
    have settled := inductionHypothesis fun k after before => uploaded k after (by omega)
    have same : (stateAt start edges (m + 1)).pixel = if (edges m).pixClock then
        (stateAt start edges m).pixel.step (stateAt start edges m).cpu.registers
          (stateAt start edges m).mem
        else (stateAt start edges m).pixel := rfl
    have more : pixelEdges edges n ≤ pixelEdges edges m := pixelEdges_le later
    rw [same, pixelEdges]
    cases (edges m).pixClock with
    | false => exact settled
    | true =>
      have next := settled_step valid (uploaded m later (Nat.lt_succ_self m)) settled
      rwa [← Nat.sub_add_comm more] at next

/-- A pixel cycle shows the frame: the colour is that of the position shown with it, which is where
    the scan was two edges ago. -/
structure Displays (frame_buffer : ℕ → Byte) (palette : BitVec 4 → Colour) (scanned : ℕ)
    (pixel : VgaPixelSide) :
    Prop where
  colour : pixel.rrggbb = shownColour frame_buffer palette pixel.x_pos.toNat pixel.y_pos.toNat
  column : pixel.x_pos.toNat = (scanned - 2) % H_TOTAL
  line : pixel.y_pos.toNat = (scanned - 2) / H_TOTAL % V_TOTAL

/-- From the upload to the screen. -/
theorem upload_displays (start : Vga) (edges : ℕ → VgaEdge) (reset : start.Reset) (frame_index : ℕ)
    (valid : frame_index < 12) (frame_buffer : ℕ → Byte) (palette : BitVec 4 → Colour)
    (earlier : List RegisterWrite) (n m : ℕ) (later : n ≤ m)
    (uploaded : written start edges n = earlier ++ showFrame frame_index frame_buffer palette)
    (stable : ∀ k, n ≤ k → k ≤ m →
      SameSettings frame_index (stateAt start edges n).store (stateAt start edges k).store)
    (synchronised : pixelEdges edges n + 3 ≤ pixelEdges edges m)
    (scannedOut : H_TOTAL * V_TOTAL ≤ pixelEdges edges m)
    (active : (stateAt start edges m).pixel.activevideo = true) :
    Displays frame_buffer palette (pixelEdges edges m) (stateAt start edges m).pixel := by
  have first : Uploaded frame_index frame_buffer palette (stateAt start edges n).store := by
    rw [store_run, uploaded, List.foldl_append]
    exact showFrame_uploaded frame_buffer palette valid _
  have settled := settled_run valid later fun k after before =>
    uploaded_stable first (stable k after (Nat.le_of_lt before))
  have scanned := @scanned_run start edges reset m
  have notFirst : (stateAt start edges m).pixel.first_frame = false := by
    have width : H_TOTAL = 832 := rfl
    have height : V_TOTAL = 520 := rfl
    have count := scanned.frame_count
    rw [width, height] at count scannedOut
    refine decide_eq_false fun none => ?_
    rw [none, BitVec.toNat_ofNat] at count
    omega
  obtain ⟨before, two⟩ : ∃ before, pixelEdges edges m = before + 2 :=
    ⟨pixelEdges edges m - 2, by omega⟩
  refine ⟨?_, ?_, ?_⟩
  · rw [VgaPixelSide.rrggbb, active, notFirst]
    exact output_color_settled settled (by omega)
  · rw [two, Nat.add_sub_cancel]
    exact (scanned.x_pos before two).1
  · rw [two, Nat.add_sub_cancel]
    exact (scanned.y_pos before two).1

/-! ### One frame over the bus -/

/-- The bus during a register write. -/
def writeChannels (access : RegisterWrite) : AXI4LiteMasterChannels 8 where
  ARVALID := false
  ARADDR := 0#8
  RREADY := false
  AWVALID := true
  AWADDR := access.1
  WVALID := true
  WDATA := access.2
  WSTRB := 0xf#4
  BREADY := true

/-- Five edges of the CPU clock for each write, and then the pixel clock alone. -/
def drive (writes : List RegisterWrite) (n : ℕ) : VgaEdge :=
  match writes[n / 5]? with
  | some access => ⟨some (writeChannels access), false⟩
  | none => ⟨none, true⟩

/-- The slave between two accesses. -/
structure Quiet (slave : AXI4LiteSlave 8) : Prop where
  state : slave.state = .idle
  write : slave.write = false
  ready : slave.AWREADY = false ∧ slave.WREADY = false ∧ slave.BVALID = false

/-- The slave during the five edges of a write. -/
theorem write_phases {slaveAt : ℕ → AXI4LiteSlave 8} {devices : ℕ → AXI4LiteDevice}
    (access : RegisterWrite) {n : ℕ}
    (steps : ∀ k < 5, slaveAt (n + k + 1) =
      (slaveAt (n + k)).step (writeChannels access) (devices (n + k)))
    (quiet : Quiet (slaveAt n)) :
    Quiet (slaveAt (n + 5)) ∧ (slaveAt (n + 1)).write = false ∧ (slaveAt (n + 2)).write = false ∧
      ((slaveAt (n + 3)).write = true ∧ (slaveAt (n + 3)).addr = access.1 ∧
        (slaveAt (n + 3)).writeData = access.2) ∧ (slaveAt (n + 4)).write = false := by
  obtain ⟨idle, silent, notReady, notReady', notValid⟩ := quiet
  have first := steps 0 (by decide)
  have second := steps 1 (by decide)
  have third := steps 2 (by decide)
  have fourth := steps 3 (by decide)
  have fifth := steps 4 (by decide)
  simp only [Nat.add_assoc, Nat.reduceAdd, Nat.add_zero] at first second third fourth fifth
  simp only [AXI4LiteSlave.step, idle, writeChannels, Bool.false_eq_true,
    if_false, if_true] at first
  simp only [AXI4LiteSlave.step, first, writeChannels, Bool.and_self, if_true] at second
  simp only [AXI4LiteSlave.step, second, writeChannels, Bool.and_self, if_true] at third
  simp only [AXI4LiteSlave.step, third, writeChannels, notValid, Bool.false_and,
    Bool.false_eq_true, if_false] at fourth
  simp only [AXI4LiteSlave.step, fourth, writeChannels, Bool.and_self, if_true] at fifth
  rw [first, second, third, fourth, fifth]
  exact ⟨⟨rfl, rfl, rfl, rfl, rfl⟩, rfl, rfl, ⟨rfl, rfl, rfl⟩, rfl⟩

theorem written_succ (n : ℕ) :
    written start edges (n + 1) = written start edges n ++
      (stateAt start edges n).writesNow (edges n) := rfl

theorem drive_written (writes : List RegisterWrite) (quiet : Quiet start.cpu.slave) (k : ℕ)
    (bound : k ≤ writes.length) :
    Quiet (stateAt start (drive writes) (5 * k)).cpu.slave ∧
      written start (drive writes) (5 * k) = writes.take k ∧
      pixelEdges (drive writes) (5 * k) = 0 := by
  induction k with
  | zero => exact ⟨quiet, rfl, rfl⟩
  | succ k inductionHypothesis =>
    obtain ⟨between, written, none⟩ := inductionHypothesis (Nat.le_of_succ_le bound)
    -- one write takes the slave through five edges, and its device sees it in the fourth
    have edge : ∀ j < 5, drive writes (5 * k + j) = ⟨some (writeChannels writes[k]), false⟩ := by
      intro j inside
      rw [drive, show (5 * k + j) / 5 = k by omega, List.getElem?_eq_getElem bound]
    obtain ⟨after, first, second, ⟨third, addr, data⟩, fourth⟩ := @write_phases
      (fun n => (stateAt start (drive writes) n).cpu.slave)
      (fun n => (stateAt start (drive writes) n).cpu.device)
      writes[k] (5 * k) (fun j inside => by
        change ((stateAt start (drive writes) (5 * k + j)).step
          (drive writes (5 * k + j))).cpu.slave = _
        rw [edge j inside]
        rfl) between
    have silent : ∀ j < 5, (stateAt start (drive writes) (5 * k + j)).cpu.slave.write = false →
        (stateAt start (drive writes) (5 * k + j)).writesNow (drive writes (5 * k + j)) = [] := by
      intro j inside quiet
      rw [writesNow, quiet, Bool.and_false, if_neg Bool.false_ne_true]
    have now : (stateAt start (drive writes) (5 * k + 3)).writesNow
        (drive writes (5 * k + 3)) = [writes[k]] := by
      have offset : (stateAt start (drive writes) (5 * k + 3)).cpu.addr = writes[k].1 := by
        rw [VgaCpuSide.addr, addr]
        exact BitVec.and_allOnes
      rw [writesNow, edge 3 (by decide), third, offset, data]
      rfl
    have edges : ∀ j < 5, (drive writes (5 * k + j)).pixClock = false :=
      fun j inside => by rw [edge j inside]
    refine ⟨after, ?_, ?_⟩
    · rw [Nat.mul_succ, written_succ, written_succ, written_succ, written_succ,
        written_succ, written, silent 1 (by decide) first, silent 2 (by decide) second, now,
        silent 4 (by decide) fourth, List.append_nil, List.append_nil, List.append_nil,
        List.take_succ_eq_append_getElem bound]
      congr 1
      exact (congrArg (writes.take k ++ ·) (silent 0 (by decide) between.write)).trans
        (List.append_nil _)
    · rw [Nat.mul_succ, pixelEdges, pixelEdges, pixelEdges, pixelEdges, pixelEdges,
        none, edges 1 (by decide), edges 2 (by decide), edges 3 (by decide), edges 4 (by decide)]
      exact congrArg (fun tick => 0 + Bool.toNat tick) (edges 0 (by decide))

theorem drive_scans (writes : List RegisterWrite) (n : ℕ) :
    (stateAt start (drive writes) (5 * writes.length + n)).store =
        (stateAt start (drive writes) (5 * writes.length)).store ∧
      pixelEdges (drive writes) (5 * writes.length + n) =
        pixelEdges (drive writes) (5 * writes.length) + n := by
  -- after the writes only the pixel clock ticks
  induction n with
  | zero => exact ⟨rfl, rfl⟩
  | succ n inductionHypothesis =>
    have edge : drive writes (5 * writes.length + n) = ⟨none, true⟩ := by
      rw [drive, List.getElem?_eq_none (by omega)]
    constructor
    · refine Eq.trans ?_ inductionHypothesis.1
      change
        ((stateAt start (drive writes) (5 * writes.length + n)).step
          (drive writes (5 * writes.length + n))).store = _
      rw [edge]
      rfl
    · rw [← Nat.add_assoc, pixelEdges, inductionHypothesis.2, edge]
      rfl

/-- All registers are 0 or low. -/
def powerUp : Vga where
  cpu :=
    { slave := AXI4LiteSlave.reset 8
      registers := VgaRegisters.reset
      intrStatusReg := 0#32
      vblank_sync1 := false
      vblank_synced := false
      vblank_prev := false
      curr_frame_sync1 := 0#4
      curr_frame_synced := 0#4
      timing_err_sync1 := false
      timing_err_sync2 := false
      timing_err_sync3 := false
      timing_error_count := 0#16 }
  mem := fun _ => 0#32
  pixel :=
    { h_count := 0#10
      v_count := 0#10
      frame_count := 0#2
      hsync_d1 := false
      hsync := false
      vsync_d1 := false
      vsync := false
      x_px := 0#10
      y_px := 0#10
      curr_frame_sync1 := 0#4
      curr_frame := 0#4
      display_enabled_sync1 := false
      display_enabled := false
      blanking_sync1 := false
      blanking := false
      palette_sync1 := fun _ => 0#6
      palette_sync := fun _ => 0#6
      in_display_d1 := false
      h_active_d1 := false
      v_active_d1 := false
      h_active_d2 := false
      v_active_d2 := false
      pixel_in_word_d1 := 0#3
      x_px_d1 := 0#10
      y_px_d1 := 0#10
      timing_err_toggle := false
      doutb := 0#32 }

theorem powerUp_reset : powerUp.Reset := ⟨rfl, rfl, rfl, rfl, rfl, rfl, rfl, rfl, rfl⟩

/-- Frame 3 with vertical stripes of all colours. -/
@[irreducible] def stripes : List RegisterWrite :=
  showFrame 3 (fun k => BitVec.ofNat 8 (k % 16)) (fun colour => colour.zeroExtend 6)

theorem stripes_eq :
    stripes = [] ++ showFrame 3 (fun k => BitVec.ofNat 8 (k % 16))
      (fun colour => colour.zeroExtend 6) := by
  rw [stripes, List.nil_append]

theorem drive_uploaded (writes : List RegisterWrite) :
    written powerUp (drive writes) (5 * writes.length) = writes := by
  have all := (@drive_written powerUp writes
    ⟨rfl, rfl, rfl, rfl, rfl⟩ writes.length (Nat.le_refl _)).2.1
  rwa [List.take_length] at all

theorem drive_pixelEdges (writes : List RegisterWrite) (t : ℕ) :
    pixelEdges (drive writes) (5 * writes.length + t) = t := by
  have none :=
    (@drive_written powerUp writes ⟨rfl, rfl, rfl, rfl, rfl⟩ writes.length (Nat.le_refl _)).2.2
  rw [(@drive_scans powerUp writes t).2, none, Nat.zero_add]

theorem drive_stable (writes : List RegisterWrite) (frame_index k : ℕ)
    (after : 5 * writes.length ≤ k) :
    SameSettings frame_index (stateAt powerUp (drive writes) (5 * writes.length)).store
      (stateAt powerUp (drive writes) k).store := by
  obtain ⟨n, rfl⟩ := Nat.exists_eq_add_of_le after
  rw [(@drive_scans powerUp writes n).1]
  exact ⟨rfl, rfl, fun _ _ => rfl⟩

theorem drive_active (writes : List RegisterWrite) (t : ℕ) (column : t % H_TOTAL < H_ACTIVE)
    (line : t / H_TOTAL % V_TOTAL < V_ACTIVE) :
    (stateAt powerUp (drive writes) (5 * writes.length + (t + 2))).pixel.activevideo = true := by
  -- when the scan is inside the visible area for a position two edges old, video is active
  have scanned := @scanned_run powerUp (drive writes) powerUp_reset (5 * writes.length + (t + 2))
  rw [drive_pixelEdges] at scanned
  obtain ⟨x_pos, across⟩ := scanned.x_pos t rfl
  obtain ⟨y_pos, down⟩ := scanned.y_pos t rfl
  rw [VgaPixelSide.activevideo, across, down, h_active, v_active, x_pos, y_pos,
    decide_eq_true column, decide_eq_true line]
  rfl

/-- Edges until the scan is at the second pixel of the second row of the frame, after the first
    scan-out. -/
def stripesShown : ℕ := H_TOTAL * V_TOTAL + H_TOTAL * 54 + 134

theorem stripes_displayed :
    Displays (fun k => BitVec.ofNat 8 (k % 16)) (fun colour => colour.zeroExtend 6)
      (pixelEdges (drive stripes) (5 * stripes.length + (stripesShown + 2)))
      (stateAt powerUp (drive stripes) (5 * stripes.length + (stripesShown + 2))).pixel := by
  refine upload_displays powerUp (drive stripes) powerUp_reset 3 (by decide) _ _ []
    (5 * stripes.length) _
    (Nat.le_add_right _ _) ((drive_uploaded stripes).trans stripes_eq)
    (fun k after _ => drive_stable stripes 3 k after) ?_ ?_
      (drive_active stripes stripesShown (by decide) (by decide))
  · rw [drive_pixelEdges]
    have start := drive_pixelEdges stripes 0
    rw [Nat.add_zero] at start
    rw [start]
    decide
  · rw [drive_pixelEdges]
    decide

end Vga

end MyCpu
