import Mathlib.Tactic.IntervalCases
import MyCpu.Lib.Clocked
import MyCpu.Software.VgaUpload

/-! # What an upload leaves in the VGA

The registers and the framebuffer change only by writes over the bus, in the order
of the writes.  The writes of `VgaUpload.showFrame` leave the packed words at the
addresses of the frame, the palette in the registers, and the frame selected. -/

namespace MyCpu

open VgaConstants VgaUpload

/-! ## Writes -/

namespace VgaStore

variable (store : VgaStore)

theorem write_stream (word : Word) (inside : store.registers.fb_addr.toNat < TOTAL_WORDS) :
    store.write (VgaReg.STREAM_DATA, word) =
      ⟨{ store.registers with uploadAddrReg := store.registers.nextUploadAddr },
        Function.update store.mem store.registers.fb_addr word⟩ := by
  have decoded : store.registers.write VgaReg.STREAM_DATA word =
      { store.registers with uploadAddrReg := store.registers.nextUploadAddr } := rfl
  rw [write, decoded, Framebuffer.write, if_pos (by simpa using inside)]

theorem write_ctrl (word : Word) (valid : (word.extractLsb' 4 4).toNat < 12) :
    store.write (VgaReg.CTRL, word) = ⟨{ store.registers with ctrlReg := word }, store.mem⟩ := by
  have decoded : store.registers.write VgaReg.CTRL word =
      { store.registers with ctrlReg := word } := if_pos valid
  rw [write, decoded]
  rfl

/-- The entries of the palette have addresses of their own. -/
theorem paletteAddr_decoded : ∀ n < 16,
    (paletteAddr n ≠ VgaReg.CTRL ∧ paletteAddr n ≠ VgaReg.INTR_STATUS ∧
      paletteAddr n ≠ VgaReg.UPLOAD_ADDR ∧
      paletteAddr n ≠ VgaReg.STREAM_DATA) ∧
      VgaRegisters.addr_palette (paletteAddr n) = true ∧
      VgaRegisters.palette_idx (paletteAddr n) = BitVec.ofNat 4 n := by
  decide

theorem write_palette {n : ℕ} (inside : n < 16) (word : Word) :
    store.write (paletteAddr n, word) =
      ⟨{ store.registers with
          paletteReg :=
            Function.update store.registers.paletteReg (BitVec.ofNat 4 n) (word.setWidth 6) },
        store.mem⟩ := by
  obtain ⟨⟨ctrl, status, upload, stream⟩, entry, index⟩ := paletteAddr_decoded n inside
  simp only [write, VgaRegisters.write, Framebuffer.write, if_neg ctrl, if_neg status,
    if_neg upload, if_neg stream, if_pos entry, index, decide_eq_false stream, Bool.false_and,
    Bool.false_eq_true, if_false]

end VgaStore

/-! ## One frame -/

theorem uploadAddr_fields (frame : BitVec 4) (pix : BitVec 16) :
    ((frame ++ pix).zeroExtend 32).extractLsb' 16 4 = frame ∧
      ((frame ++ pix).zeroExtend 32).extractLsb' 0 16 = pix := by
  constructor
  · apply BitVec.eq_of_getLsbD_eq
    intro i inside
    rw [BitVec.getLsbD_extractLsb', decide_eq_true inside, Bool.true_and, BitVec.getLsbD_setWidth,
      decide_eq_true (by omega), Bool.true_and, BitVec.getLsbD_append, if_neg (by omega),
      Nat.add_sub_cancel_left]
  · apply BitVec.eq_of_getLsbD_eq
    intro i inside
    rw [BitVec.getLsbD_extractLsb', decide_eq_true inside, Bool.true_and, Nat.zero_add,
      BitVec.getLsbD_setWidth, decide_eq_true (by omega), Bool.true_and,
      BitVec.getLsbD_append, if_pos inside]

/-- Where word `i` of a frame lies. -/
def frameAddr (frame_index i : ℕ) : BitVec 13 := BitVec.ofNat 13 (frame_index * WORDS_PER_FRAME + i)

theorem frameAddr_toNat {frame_index i : ℕ} (valid : frame_index < NUM_FRAMES)
    (inside : i < WORDS_PER_FRAME) :
    (frameAddr frame_index i).toNat = frame_index * WORDS_PER_FRAME + i := by
  simp only [NUM_FRAMES, WORDS_PER_FRAME, PIXELS_PER_FRAME] at valid inside ⊢
  rw [frameAddr, BitVec.toNat_ofNat]
  simp only [WORDS_PER_FRAME, PIXELS_PER_FRAME]
  omega

/-- The next word goes to place `i` of the frame. -/
structure Streams (frame_index i : ℕ) (registers : VgaRegisters) : Prop where
  frame : registers.upload_frame = BitVec.ofNat 4 frame_index
  pixel : registers.upload_pix_addr = BitVec.ofNat 16 (8 * (i % WORDS_PER_FRAME))

section Streaming

variable {frame_index i : ℕ} {registers : VgaRegisters}

theorem streams_start (valid : frame_index < NUM_FRAMES) :
    Streams frame_index 0
      { registers with uploadAddrReg := BitVec.ofNat 32 frame_index <<< 16 } := by
  have all : ∀ frame < NUM_FRAMES,
      VgaRegisters.upload_frame ⟨0#32, BitVec.ofNat 32 frame <<< 16, fun _ => 0#6⟩ =
        BitVec.ofNat 4 frame ∧
        VgaRegisters.upload_pix_addr ⟨0#32, BitVec.ofNat 32 frame <<< 16, fun _ => 0#6⟩ = 0#16 := by
    decide
  exact ⟨(all frame_index valid).1, (all frame_index valid).2⟩

theorem Streams.fb_addr (streams : Streams frame_index i registers)
    (valid : frame_index < NUM_FRAMES)
    (inside : i < WORDS_PER_FRAME) : registers.fb_addr = frameAddr frame_index i := by
  apply BitVec.eq_of_toNat_eq
  rw [frameAddr_toNat valid inside, VgaRegisters.fb_addr, streams.frame, streams.pixel,
    Nat.mod_eq_of_lt inside]
  simp only [NUM_FRAMES, WORDS_PER_FRAME, PIXELS_PER_FRAME] at valid inside ⊢
  simp
  omega

theorem Streams.next (streams : Streams frame_index i registers) (valid : frame_index < NUM_FRAMES)
    (inside : i < WORDS_PER_FRAME) :
    Streams frame_index (i + 1) { registers with uploadAddrReg := registers.nextUploadAddr } := by
  have fields := fun pix => uploadAddr_fields (BitVec.ofNat 4 frame_index) pix
  have kept : (BitVec.ofNat 4 frame_index).toNat < NUM_FRAMES := by
    simp only [NUM_FRAMES] at valid ⊢
    rw [BitVec.toNat_ofNat]
    omega
  have address : registers.nextUploadAddr =
      (BitVec.ofNat 4 frame_index ++ BitVec.ofNat 16
        (8 * ((i + 1) % WORDS_PER_FRAME))).zeroExtend 32 := by
    rw [VgaRegisters.nextUploadAddr, streams.frame, streams.pixel, Nat.mod_eq_of_lt inside]
    have pixels : PIXELS_PER_FRAME = 4096 := rfl
    have words : WORDS_PER_FRAME = 512 := rfl
    -- the address wraps behind the last word
    have sum : BitVec.ofNat 16 (8 * i) + 8#16 = BitVec.ofNat 16 (8 * (i + 1)) := by
      rw [Nat.mul_succ, BitVec.ofNat_add]
    have value : (BitVec.ofNat 16 (8 * (i + 1))).toNat = 8 * (i + 1) := by
      rw [BitVec.toNat_ofNat]
      omega
    simp only [sum, value]
    by_cases last : PIXELS_PER_FRAME ≤ 8 * (i + 1)
    · have wrapped : i + 1 = WORDS_PER_FRAME := by omega
      rw [if_pos last, wrapped, Nat.mod_self]
    · rw [if_neg last, Nat.mod_eq_of_lt (by omega)]
  constructor
  · simp only [VgaRegisters.upload_frame, address, (fields _).1]
    exact if_neg (Nat.not_le.mpr kept)
  · simp only [VgaRegisters.upload_pix_addr, address, (fields _).2]

end Streaming

/-- Words from place `first` on: the frame has them there and is as before elsewhere. -/
theorem stream_placed {frame_index first : ℕ} (frame_buffer : ℕ → Byte)
    (valid : frame_index < NUM_FRAMES)
    (store : VgaStore) (streams : Streams frame_index first store.registers) {words : ℕ}
    (bound : first + words ≤ WORDS_PER_FRAME) :
    Streams frame_index (first + words)
      ((streamFrom frame_buffer first words).foldl VgaStore.write store).registers ∧
      ∀ i < WORDS_PER_FRAME,
        ((streamFrom frame_buffer first words).foldl VgaStore.write store).mem
          (frameAddr frame_index i) =
          if first ≤ i ∧ i < first + words then packed frame_buffer i
            else store.mem (frameAddr frame_index i) := by
  induction words with
  | zero => exact ⟨streams, fun i _ => (if_neg (by omega)).symm⟩
  | succ words inductionHypothesis =>
    obtain ⟨streams, placed⟩ := inductionHypothesis (Nat.le_of_succ_le bound)
    have inside : first + words < WORDS_PER_FRAME := bound
    have address := streams.fb_addr valid inside
    have place := frameAddr_toNat valid inside
    rw [streamFrom, List.range'_1_concat, List.map_append, List.foldl_append, ← streamFrom]
    simp only [List.map_cons, List.map_nil, List.foldl_cons, List.foldl_nil]
    rw [VgaStore.write_stream _ _ (by
      rw [address, place]
      simp only [NUM_FRAMES, WORDS_PER_FRAME, PIXELS_PER_FRAME, TOTAL_WORDS] at valid inside ⊢
      omega)]
    refine ⟨streams.next valid inside, fun i within => ?_⟩
    rw [address]
    change Function.update _ (frameAddr frame_index (first + words)) _ (frameAddr frame_index i) = _
    by_cases newest : i = first + words
    · rw [newest, Function.update_self, if_pos (by omega)]
    · -- the words of a frame have addresses of their own
      have other : frameAddr frame_index i ≠ frameAddr frame_index (first + words) := by
        intro same
        have equal := congrArg BitVec.toNat same
        rw [place, frameAddr_toNat valid within] at equal
        omega
      rw [Function.update_of_ne other, placed i within]
      exact if_congr (by omega) rfl rfl

theorem stream_uploaded {frame_index : ℕ} (frame_buffer : ℕ → Byte)
    (valid : frame_index < NUM_FRAMES)
    (store : VgaStore) (streams : Streams frame_index 0 store.registers) {words : ℕ}
    (bound : words ≤ WORDS_PER_FRAME) :
    Streams frame_index words
      ((streamWrites frame_buffer words).foldl VgaStore.write store).registers ∧
      ∀ i < words, ((streamWrites frame_buffer words).foldl VgaStore.write store).mem
        (frameAddr frame_index i) =
        packed frame_buffer i := by
  have placed :=
    stream_placed frame_buffer valid store streams ((Nat.zero_add words).le.trans bound)
  rw [← streamWrites_eq, Nat.zero_add] at placed
  refine ⟨placed.1, fun i inside => ?_⟩
  rw [placed.2 i (inside.trans_le bound), if_pos ⟨Nat.zero_le i, inside⟩]

/-- What `VgaUpload.showFrame` leaves. -/
structure Uploaded (frame_index : ℕ) (frame_buffer : ℕ → Byte)
    (palette : BitVec 4 → Colour) (store : VgaStore) :
    Prop where
  frame : ∀ i < WORDS_PER_FRAME, store.mem (frameAddr frame_index i) = packed frame_buffer i
  palette : store.registers.paletteReg = palette
  enabled : store.registers.ctrl_en = true
  unblanked : store.registers.ctrl_blank = false
  selected : store.registers.ctrl_frame_sel = BitVec.ofNat 4 frame_index

theorem palette_uploaded (palette : BitVec 4 → Colour) (store : VgaStore) {entries : ℕ}
    (bound : entries ≤ 16) :
    ((paletteWrites palette entries).foldl VgaStore.write store).mem = store.mem ∧
      ∀ n < entries,
      ((paletteWrites palette entries).foldl VgaStore.write store).registers.paletteReg
        (BitVec.ofNat 4 n) = palette (BitVec.ofNat 4 n) := by
  induction entries with
  | zero => exact ⟨rfl, fun n none => absurd none (Nat.not_lt_zero n)⟩
  | succ entries inductionHypothesis =>
    obtain ⟨same, uploaded⟩ := inductionHypothesis (Nat.le_of_succ_le bound)
    rw [paletteWrites, List.range_succ, List.map_append, List.foldl_append, ← paletteWrites]
    simp only [List.map_cons, List.map_nil, List.foldl_cons, List.foldl_nil]
    rw [VgaStore.write_palette _ bound]
    refine ⟨same, fun n earlier => ?_⟩
    simp only
    by_cases newest : n = entries
    · rw [newest, Function.update_self]
      exact BitVec.setWidth_setWidth_of_le _ (by decide)
    · have other : BitVec.ofNat 4 n ≠ BitVec.ofNat 4 entries := by
        intro equal
        have values := congrArg BitVec.toNat equal
        rw [BitVec.toNat_ofNat, BitVec.toNat_ofNat] at values
        omega
      rw [Function.update_of_ne other, uploaded n (by omega)]

theorem ctrl_fields : ∀ frame < NUM_FRAMES,
    (BitVec.ofNat 32 frame <<< 4 ||| 1#32).extractLsb' 4 4 = BitVec.ofNat 4 frame ∧
      (BitVec.ofNat 32 frame <<< 4 ||| 1#32).getLsbD 0 = true ∧
      (BitVec.ofNat 32 frame <<< 4 ||| 1#32).getLsbD 1 = false ∧
      (BitVec.ofNat 4 frame).toNat < 12 := by
  decide

theorem showFrame_uploaded {frame_index : ℕ} (frame_buffer : ℕ → Byte) (palette : BitVec 4 → Colour)
    (valid : frame_index < NUM_FRAMES) (store : VgaStore) :
    Uploaded frame_index frame_buffer palette
      ((showFrame frame_index frame_buffer palette).foldl VgaStore.write store) := by
  obtain ⟨selected, enabled, unblanked, small⟩ := ctrl_fields frame_index valid
  rw [showFrame, List.cons_append, List.cons_append, List.foldl_cons,
    List.foldl_append, List.foldl_append, List.foldl_cons, List.foldl_nil,
    VgaStore.write_ctrl _ _ (by rwa [selected])]
  obtain ⟨_, words⟩ := stream_uploaded frame_buffer valid
    (store.write (VgaReg.UPLOAD_ADDR, BitVec.ofNat 32 frame_index <<< 16)) (streams_start valid)
    (show 512 ≤ WORDS_PER_FRAME from Nat.le_refl 512)
  generalize (streamWrites frame_buffer 512).foldl VgaStore.write
    (store.write (VgaReg.UPLOAD_ADDR, BitVec.ofNat 32 frame_index <<< 16)) = streamed at words ⊢
  obtain ⟨same, entries⟩ := palette_uploaded palette streamed (Nat.le_refl 16)
  generalize (paletteWrites palette 16).foldl VgaStore.write streamed = shown at same entries ⊢
  refine ⟨fun i inside => ?_, funext fun entry => ?_, enabled, unblanked, selected⟩
  · simp only [same]
    exact words i inside
  · have entered := entries entry.toNat entry.isLt
    rwa [BitVec.ofNat_toNat, BitVec.setWidth_eq] at entered

/-! ## The run -/

namespace Vga

def store (vga : Vga) : VgaStore := ⟨vga.cpu.registers, vga.mem⟩

/-- The register write that the slave hands over at an edge. -/
def writesNow (vga : Vga) (edge : VgaEdge) : List RegisterWrite :=
  if edge.sysClk.isSome && vga.cpu.slave.write then
    [(vga.cpu.addr, vga.cpu.slave.writeData)] else []

variable (start : Vga) (edges : ℕ → VgaEdge)

/-- The state after `n` edges. -/
def stateAt (n : ℕ) : Vga := Clocked.stateAt step start edges n

/-- The register writes at the first `n` edges. -/
def written (n : ℕ) : List RegisterWrite := Clocked.logAt step writesNow start edges n

theorem store_step (vga : Vga) (edge : VgaEdge) :
    (vga.step edge).store = (vga.writesNow edge).foldl VgaStore.write vga.store := by
  obtain ⟨sysClk, pixClock⟩ := edge
  cases sysClk with
  | none => rfl
  | some channels =>
    cases writes : vga.cpu.slave.write with
    | false =>
      simp [store, step, VgaCpuSide.step, writesNow, VgaCpuSide.fb_write_en,
        Framebuffer.write, writes]
    | true =>
      simp [store, step, VgaCpuSide.step, writesNow, VgaCpuSide.fb_write_en, VgaStore.write, writes]

/-- The registers and the framebuffer are the result of the writes. -/
theorem store_run (n : ℕ) :
    (stateAt start edges n).store = (written start edges n).foldl VgaStore.write start.store := by
  induction n with
  | zero => rfl
  | succ n inductionHypothesis =>
    refine (store_step _ _).trans ?_
    rw [written, Clocked.logAt_succ, List.foldl_append, ← written, ← inductionHypothesis]
    rfl

end Vga

end MyCpu
