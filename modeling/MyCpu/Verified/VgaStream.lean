import MyCpu.Verified.VgaStore

/-! # Streaming stays in its frame

A write to `STREAM_DATA` stores its word at the clamped frame, at the pixel offset
divided by eight, and moves the offset on.  The offset wraps behind the frame, but
nothing clamps the offset that software writes to `UPLOAD_ADDR`: the words stay in
their frame exactly if streaming starts inside the frame. -/

namespace MyCpu

open VgaConstants VgaUpload

namespace VgaRegisters

/-- The frame field of `UPLOAD_ADDR`, clamped to the last frame. -/
def clampedFrame (uploadAddr : Word) : ℕ := min (uploadAddr.extractLsb' 16 4).toNat (NUM_FRAMES - 1)

/-! ## One word -/

section OneWord

variable {registers : VgaRegisters}

theorem upload_frame_clamped :
    registers.upload_frame.toNat = clampedFrame registers.uploadAddrReg := by
  have frames : NUM_FRAMES = 12 := rfl
  rw [upload_frame, clampedFrame]
  by_cases large : NUM_FRAMES ≤ (registers.uploadAddrReg.extractLsb' 16 4).toNat
  · simp only [if_pos large]
    rw [Nat.min_eq_right (by omega)]
    rfl
  · simp only [if_neg large]
    rw [Nat.min_eq_left (by omega)]

theorem clampedFrame_le (uploadAddr : Word) : clampedFrame uploadAddr ≤ NUM_FRAMES - 1 :=
  Nat.min_le_right _ _

theorem fb_addr_toNat :
    registers.fb_addr.toNat =
      (clampedFrame registers.uploadAddrReg * WORDS_PER_FRAME +
        registers.upload_pix_addr.toNat / 8) % 2 ^ 13 := by
  have frame := clampedFrame_le registers.uploadAddrReg
  have pixel := registers.upload_pix_addr.isLt
  rw [fb_addr, ← upload_frame_clamped] at *
  simp only [NUM_FRAMES, WORDS_PER_FRAME, PIXELS_PER_FRAME] at frame ⊢
  simp [Nat.shiftRight_eq_div_pow]

/-- The word goes to its frame exactly if the offset is one of the frame. -/
theorem fb_addr_inside :
    (clampedFrame registers.uploadAddrReg * WORDS_PER_FRAME ≤ registers.fb_addr.toNat ∧
      registers.fb_addr.toNat < clampedFrame registers.uploadAddrReg *
        WORDS_PER_FRAME + WORDS_PER_FRAME) ↔
      registers.upload_pix_addr.toNat < PIXELS_PER_FRAME := by
  have frame := clampedFrame_le registers.uploadAddrReg
  have pixel := registers.upload_pix_addr.isLt
  rw [fb_addr_toNat]
  simp only [NUM_FRAMES, WORDS_PER_FRAME, PIXELS_PER_FRAME] at frame ⊢
  omega

/-- The registers after a word. -/
def streamed (registers : VgaRegisters) : VgaRegisters :=
  { registers with uploadAddrReg := registers.nextUploadAddr }

theorem streamed_offset :
    registers.streamed.upload_pix_addr =
      if PIXELS_PER_FRAME ≤ (registers.upload_pix_addr + 8#16).toNat then 0#16
        else registers.upload_pix_addr + 8#16 := by
  rw [streamed, upload_pix_addr, nextUploadAddr]
  exact (uploadAddr_fields _ _).2

theorem streamed_inside : registers.streamed.upload_pix_addr.toNat < PIXELS_PER_FRAME := by
  rw [streamed_offset]
  split_ifs with wraps
  · exact (by decide : (0#16).toNat < PIXELS_PER_FRAME)
  · exact Nat.lt_of_not_le wraps

theorem streamed_aligned (inside : registers.upload_pix_addr.toNat < PIXELS_PER_FRAME)
    (aligned : 8 ∣ registers.upload_pix_addr.toNat) :
    registers.streamed.upload_pix_addr.toNat =
      8 * ((registers.upload_pix_addr.toNat / 8 + 1) % WORDS_PER_FRAME) := by
  have sum : (registers.upload_pix_addr + 8#16).toNat = registers.upload_pix_addr.toNat + 8 := by
    simp only [PIXELS_PER_FRAME] at inside
    rw [BitVec.toNat_add]
    exact Nat.mod_eq_of_lt (by simp; omega)
  obtain ⟨word, place⟩ := aligned
  have pixels : PIXELS_PER_FRAME = 4096 := rfl
  have words : WORDS_PER_FRAME = 512 := rfl
  rw [streamed_offset, sum, words]
  by_cases wraps : PIXELS_PER_FRAME ≤ registers.upload_pix_addr.toNat + 8
  · rw [if_pos wraps, BitVec.toNat_ofNat]
    omega
  · rw [if_neg wraps, sum]
    omega

end OneWord

/-- The address does not touch the upload address. -/
def Quiet (addr : BitVec 8) : Prop := addr ≠ VgaReg.UPLOAD_ADDR ∧ addr ≠ VgaReg.STREAM_DATA

theorem write_stream (registers : VgaRegisters) (word : Word) :
    registers.write VgaReg.STREAM_DATA word = registers.streamed := rfl

theorem write_quiet {addr : BitVec 8} (quiet : Quiet addr)
    (registers : VgaRegisters) (word : Word) :
    (registers.write addr word).uploadAddrReg = registers.uploadAddrReg := by
  simp only [write, if_neg quiet.1, if_neg quiet.2]
  split_ifs <;> rfl

end VgaRegisters

open VgaRegisters

/-! ## Sequences of writes -/

namespace VgaStore

def reset : VgaStore := ⟨VgaRegisters.reset, fun _ => 0#32⟩

/-- After a sequence of register writes. -/
def after (writes : List RegisterWrite) : VgaStore := writes.foldl write reset

/-- The pixel offset of `UPLOAD_ADDR`. -/
def offset (store : VgaStore) : ℕ := store.registers.upload_pix_addr.toNat

/-- The first framebuffer word of the frame of `UPLOAD_ADDR`. -/
def frameBase (store : VgaStore) : ℕ := clampedFrame store.registers.uploadAddrReg * WORDS_PER_FRAME

def streamWrite (word : Word) : RegisterWrite := (VgaReg.STREAM_DATA, word)

/-- The words of a sequence of writes stay in their frames. -/
structure StaysInFrame (writes : List RegisterWrite) : Prop where
  /-- A word is stored in the frame that `UPLOAD_ADDR` names at that moment. -/
  stored : ∀ before word later, writes = before ++ streamWrite word :: later →
    (frameBase (after before) ≤ (after before).registers.fb_addr.toNat ∧
      (after before).registers.fb_addr.toNat < frameBase (after before) + WORDS_PER_FRAME) ∧
      (after before).registers.fb_addr.toNat < TOTAL_WORDS ∧
      ((after before).write (streamWrite word)).mem =
        Function.update (after before).mem (after before).registers.fb_addr word
  /-- Words in a row go to places in a row, and from the end of the frame back to its start. -/
  advances : ∀ before words later, writes = before ++ words.map streamWrite ++ later → words ≠ [] →
    8 ∣ (after before).offset →
    (after (before ++ words.map streamWrite)).offset =
      8 * (((after before).offset / 8 + words.length) % WORDS_PER_FRAME)

/-- Where a word follows on a write to `UPLOAD_ADDR`, that write has an offset inside the frame. -/
def StartsInFrame (writes : List RegisterWrite) : Prop :=
  ∀ before address between word later,
    writes = before ++ (VgaReg.UPLOAD_ADDR, address) :: (between ++ streamWrite word :: later) →
    (∀ access ∈ between, Quiet access.1) → (address.extractLsb' 0 16).toNat < PIXELS_PER_FRAME

theorem after_append (writes more : List RegisterWrite) :
    after (writes ++ more) = more.foldl write (after writes) :=
  List.foldl_append

theorem offset_write_stream (store : VgaStore) (word : Word) :
    (store.write (streamWrite word)).offset < PIXELS_PER_FRAME :=
  @streamed_inside store.registers

theorem offset_write_quiet (store : VgaStore) {access : RegisterWrite} (quiet : Quiet access.1) :
    (store.write access).offset = store.offset := by
  rw [offset, write, upload_pix_addr, write_quiet quiet]
  rfl

theorem offset_quiet (store : VgaStore) {between : List RegisterWrite}
    (quiet : ∀ access ∈ between, Quiet access.1) :
    (between.foldl write store).offset = store.offset := by
  induction between generalizing store with
  | nil => rfl
  | cons access between inductionHypothesis =>
    rw [List.foldl_cons, inductionHypothesis _
      fun other later => quiet other (List.mem_cons_of_mem _ later), offset_write_quiet store
        (quiet access List.mem_cons_self)]

theorem offset_streamed (store : VgaStore) (words : List Word)
    (inside : store.offset < PIXELS_PER_FRAME)
    (aligned : 8 ∣ store.offset) :
    ((words.map streamWrite).foldl write store).offset =
      8 * ((store.offset / 8 + words.length) % WORDS_PER_FRAME) := by
  induction words generalizing store with
  | nil =>
    simp only [PIXELS_PER_FRAME] at inside
    simp only [List.map_nil, List.foldl_nil, List.length_nil, WORDS_PER_FRAME, PIXELS_PER_FRAME]
    omega
  | cons word words inductionHypothesis =>
    have next : (store.write (streamWrite word)).offset =
        8 * ((store.offset / 8 + 1) % WORDS_PER_FRAME) :=
      streamed_aligned inside aligned
    rw [List.map_cons, List.foldl_cons,
      inductionHypothesis _ (offset_write_stream store word) (next ▸ Nat.dvd_mul_right 8 _), next,
      Nat.mul_div_cancel_left _ (by decide), Nat.mod_add_mod, List.length_cons]
    congr 2
    omega

/-- Before a word the offset lies in the frame: it comes from reset, from the word before, or from
    software. -/
theorem offset_inside {writes : List RegisterWrite} (starts : StartsInFrame writes)
    (before between : List RegisterWrite)
    (word : Word) (later : List RegisterWrite) (quiet : ∀ access ∈ between, Quiet access.1)
    (sequence : writes = before ++ (between ++ streamWrite word :: later)) :
    (after before).offset < PIXELS_PER_FRAME := by
  induction before using List.reverseRecOn generalizing between with
  | nil => exact (by decide : reset.offset < PIXELS_PER_FRAME)
  | append_singleton before access inductionHypothesis =>
    rw [List.append_assoc, List.singleton_append] at sequence
    rw [after_append, List.foldl_cons, List.foldl_nil]
    by_cases upload : access.1 = VgaReg.UPLOAD_ADDR
    · rw [show access = (VgaReg.UPLOAD_ADDR, access.2) from Prod.ext upload rfl] at sequence ⊢
      exact starts before access.2 between word later sequence quiet
    · by_cases stream : access.1 = VgaReg.STREAM_DATA
      · rw [show access = streamWrite access.2 from Prod.ext stream rfl]
        exact offset_write_stream _ _
      · rw [offset_write_quiet _ ⟨upload, stream⟩]
        refine inductionHypothesis (access :: between) (fun other member => ?_) sequence
        cases List.mem_cons.mp member with
        | inl same => exact same ▸ ⟨upload, stream⟩
        | inr inside => exact quiet other inside

theorem stays_of_starts {writes : List RegisterWrite} (starts : StartsInFrame writes) :
    StaysInFrame writes where
  stored := by
    intro before word later sequence
    have inside := offset_inside starts before [] word later (List.forall_mem_nil _) sequence
    have place := fb_addr_inside.mpr inside
    have frame := clampedFrame_le (after before).registers.uploadAddrReg
    have below : (after before).registers.fb_addr.toNat < TOTAL_WORDS := by
      simp only [NUM_FRAMES, WORDS_PER_FRAME, PIXELS_PER_FRAME, TOTAL_WORDS] at place frame ⊢
      omega
    exact ⟨place, below, by rw [streamWrite, VgaStore.write_stream _ _ below]⟩
  advances := by
    intro before words later sequence some aligned
    cases words with
    | nil => exact absurd rfl some
    | cons word words =>
      rw [List.map_cons, List.append_assoc, List.cons_append] at sequence
      have inside := offset_inside starts before [] word _ (List.forall_mem_nil _) sequence
      rw [after_append]
      exact offset_streamed _ _ inside aligned

/-- The words stay in their frames exactly if streaming starts inside a frame. -/
theorem staysInFrame_iff (writes : List RegisterWrite) :
    StaysInFrame writes ↔ StartsInFrame writes := by
  refine ⟨fun stays before address between word later sequence quiet => ?_, stays_of_starts⟩
  have place := (stays.stored (before ++ (VgaReg.UPLOAD_ADDR, address) :: between) word later
    (by simp [sequence])).1
  rw [frameBase, fb_addr_inside, ← offset, after_append, List.foldl_cons,
    offset_quiet _ quiet] at place
  exact place

/-- `UPLOAD_ADDR` names frame 0, but its offset is the one behind the frame: the word goes to frame
    1. -/
theorem streamed_behind_frame :
    ¬ StaysInFrame [(VgaReg.UPLOAD_ADDR, 0x00001000#32), (VgaReg.STREAM_DATA, 0x00000000#32)] := by
  intro stays
  have place := (stays.stored [(VgaReg.UPLOAD_ADDR, 0x00001000#32)] 0#32 [] rfl).1
  exact absurd place (by decide)

end VgaStore

/-! ## The run -/

namespace Vga

theorem store_after {start : Vga} (fresh : start.Reset) (edges : ℕ → VgaEdge) (n : ℕ) :
    (stateAt start edges n).store = VgaStore.after (written start edges n) := by
  rw [store_run, VgaStore.after, store, fresh.registers, fresh.mem]
  rfl

/-- A word that the bus brings is stored in its frame, if software starts streaming in a frame. -/
theorem stream_stored {start : Vga} (fresh : start.Reset)
    (edges : ℕ → VgaEdge) (n : ℕ) (word : Word)
    (now : writesNow (stateAt start edges n) (edges n) = [VgaStore.streamWrite word])
    (starts : VgaStore.StartsInFrame (written start edges (n + 1))) :
    (stateAt start edges (n + 1)).mem =
        Function.update (stateAt start edges n).mem
          (stateAt start edges n).cpu.registers.fb_addr word ∧
      (stateAt start edges n).store.frameBase ≤
        (stateAt start edges n).cpu.registers.fb_addr.toNat ∧
      (stateAt start edges n).cpu.registers.fb_addr.toNat <
        (stateAt start edges n).store.frameBase + WORDS_PER_FRAME := by
  have log : written start edges (n + 1) =
      written start edges n ++ [VgaStore.streamWrite word] := by
    rw [written, Clocked.logAt_succ, ← written]
    exact congrArg _ now
  obtain ⟨place, _, memory⟩ := (VgaStore.stays_of_starts starts).stored _ word [] log
  rw [← store_after fresh] at place memory
  refine ⟨?_, place⟩
  have next : (stateAt start edges (n + 1)).store = _ :=
    store_step (stateAt start edges n) (edges n)
  rw [now] at next
  exact (congrArg VgaStore.mem next).trans memory

end Vga

end MyCpu
