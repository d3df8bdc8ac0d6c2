import MyCpu.Verified.NyancatAnimation
import MyCpu.Verified.WindowPicture

/-! # The animation on the screen

From the characters of the frames to the colours that leave the VGA: every build of `nyancat.c`
uploads all frames behind the palette, and shows one after the other.  While a frame is selected,
its colours are scanned out. -/

namespace MyCpu

open VgaConstants VgaUpload NyancatGenerator

/-! ## Writes behind a frame -/

namespace Vga

variable {frame_index : ℕ} {store : VgaStore}

theorem SameSettings.refl : SameSettings frame_index store store := ⟨rfl, rfl, fun _ _ => rfl⟩

theorem SameSettings.trans {middle after : VgaStore} (first : SameSettings frame_index store middle)
    (second : SameSettings frame_index middle after) : SameSettings frame_index store after where
  ctrlReg := second.ctrlReg.trans first.ctrlReg
  paletteReg := second.paletteReg.trans first.paletteReg
  frame := fun i inside => (second.frame i inside).trans (first.frame i inside)

/-- The next word goes to another frame. -/
def Elsewhere (frame_index : ℕ) (store : VgaStore) : Prop :=
  ∃ other < NUM_FRAMES, other ≠ frame_index ∧ ∃ i < WORDS_PER_FRAME, Streams other i store.registers

theorem write_address (word : Word) :
    store.write (VgaReg.UPLOAD_ADDR, word) =
      ⟨{ store.registers with uploadAddrReg := word }, store.mem⟩ := rfl

theorem address_kept (word : Word) :
    SameSettings frame_index store (store.write (VgaReg.UPLOAD_ADDR, word)) := by
  rw [write_address]
  exact ⟨rfl, rfl, fun _ _ => rfl⟩

theorem address_elsewhere {other : ℕ} (valid : other < NUM_FRAMES) (apart : other ≠ frame_index) :
    Elsewhere frame_index (store.write (VgaReg.UPLOAD_ADDR, BitVec.ofNat 32 other <<< 16)) := by
  rw [write_address]
  exact ⟨other, valid, apart, 0, by decide, streams_start valid⟩

theorem stream_elsewhere (valid : frame_index < NUM_FRAMES)
    (elsewhere : Elsewhere frame_index store) (word : Word) :
    SameSettings frame_index store (store.write (VgaReg.STREAM_DATA, word)) ∧
      Elsewhere frame_index (store.write (VgaReg.STREAM_DATA, word)) := by
  obtain ⟨other, valid', apart, i, inside, streams⟩ := elsewhere
  have address := streams.fb_addr valid' inside
  have place := frameAddr_toNat valid' inside
  have size : WORDS_PER_FRAME = 512 := rfl
  have frames : NUM_FRAMES = 12 := rfl
  have words : TOTAL_WORDS = 6144 := rfl
  rw [size] at inside place
  rw [VgaStore.write_stream _ _ (by rw [address, place]; omega), address]
  refine ⟨⟨rfl, rfl, fun j within => ?_⟩, other, valid', apart, ?_⟩
  · change Function.update store.mem (frameAddr other i) word (frameAddr frame_index j) = _
    refine Function.update_of_ne (fun same => ?_) _ _
    have places := congrArg BitVec.toNat same
    rw [place, frameAddr_toNat valid within] at places
    rw [size] at within places
    omega
  · -- behind the last word the address wraps around
    refine ⟨(i + 1) % WORDS_PER_FRAME, Nat.mod_lt _ (by decide), ?_⟩
    obtain ⟨frame, pixel⟩ := streams.next valid' inside
    exact ⟨frame, by rwa [Nat.mod_mod]⟩

/-- A write of the upload of another frame. -/
def Uploads (frame_index : ℕ) (access : RegisterWrite) : Prop :=
  access.1 = VgaReg.STREAM_DATA ∨
    ∃ other < NUM_FRAMES, other ≠ frame_index ∧
    access = (VgaReg.UPLOAD_ADDR, BitVec.ofNat 32 other <<< 16)

theorem uploads_elsewhere (valid : frame_index < NUM_FRAMES) {writes : List RegisterWrite}
    (uploads : ∀ access ∈ writes, Uploads frame_index access)
    (elsewhere : Elsewhere frame_index store) :
    SameSettings frame_index store (writes.foldl VgaStore.write store) := by
  induction writes generalizing store with
  | nil => exact SameSettings.refl
  | cons access writes inductionHypothesis =>
    have rest := fun later member => uploads later (List.mem_cons_of_mem access member)
    cases uploads access List.mem_cons_self with
    | inl stream =>
      obtain ⟨addr, word⟩ := access
      simp only at stream
      subst stream
      obtain ⟨same, next⟩ := stream_elsewhere valid elsewhere word
      exact same.trans (inductionHypothesis rest next)
    | inr address =>
      obtain ⟨other, valid', apart, rfl⟩ := address
      exact (address_kept _).trans (inductionHypothesis rest (address_elsewhere valid' apart))

end Vga

namespace Nyancat

open Vga

/-! ## Uploads -/

/-- Each upload brings the words of its picture. -/
def Draws (source : FrameData) (picture : ℕ → ℕ → Byte) : Prop :=
  ∀ frame < FRAME_COUNT, ∃ frame_buffer, upload source frame = uploadWrites frame frame_buffer ∧
    ∀ i < WORDS_PER_FRAME, packed frame_buffer i = packed (picture frame) i

/-- The entries of `nyancat_palette`, and black for the others. -/
def shownPalette (color : BitVec 4) : Colour := (nyancat_palette.getD color.toNat 0#8).setWidth 6

/-- The number of times that a program has written `CTRL`. -/
def ctrlWrites (writes : List RegisterWrite) : ℕ :=
  writes.countP fun access => access.1 = VgaReg.CTRL

section Uploading

variable {source : FrameData} {picture : ℕ → ℕ → Byte} {frame : ℕ}

theorem uploadWrites_eq (inside : frame < FRAME_COUNT) (frame_buffer : ℕ → Byte) :
    uploadWrites frame frame_buffer =
      (VgaReg.UPLOAD_ADDR, BitVec.ofNat 32 frame <<< 16) :: streamWrites frame_buffer 512 := by
  rw [uploadWrites, Nat.mod_eq_of_lt (inside.trans (by decide))]

theorem stream_member {frame_buffer : ℕ → Byte} {words : ℕ} {access : RegisterWrite}
    (member : access ∈ streamWrites frame_buffer words) : access.1 = VgaReg.STREAM_DATA := by
  obtain ⟨i, _, rfl⟩ := List.mem_map.mp member
  rfl

variable (draws : Draws source picture) (inside : frame < FRAME_COUNT)

include draws inside

theorem upload_head :
    ∃ words, upload source frame = (VgaReg.UPLOAD_ADDR, BitVec.ofNat 32 frame <<< 16) :: words := by
  obtain ⟨frame_buffer, same, _⟩ := draws frame inside
  exact ⟨_, same.trans (uploadWrites_eq inside frame_buffer)⟩

theorem upload_uploads {other : ℕ} (apart : frame ≠ other) :
    ∀ access ∈ upload source frame, Uploads other access := by
  obtain ⟨frame_buffer, same, _⟩ := draws frame inside
  rw [same, uploadWrites_eq inside]
  intro access member
  cases List.mem_cons.mp member with
  | inl address => exact .inr ⟨frame, inside, apart, address⟩
  | inr word => exact .inl (stream_member word)

theorem upload_ctrl : ctrlWrites (upload source frame) = 0 := by
  refine List.countP_eq_zero.mpr fun access member => ?_
  rw [decide_eq_true_eq]
  cases upload_uploads draws inside (Nat.succ_ne_self frame).symm access member with
  | inl stream =>
    rw [stream]
    decide
  | inr address =>
    obtain ⟨_, _, _, same⟩ := address
    rw [same]
    exact show VgaReg.UPLOAD_ADDR ≠ VgaReg.CTRL by decide

theorem upload_same {other : ℕ} (valid : other < NUM_FRAMES)
    (apart : frame ≠ other) (store : VgaStore) :
    SameSettings other store ((upload source frame).foldl VgaStore.write store) := by
  have uploads := upload_uploads draws inside apart
  obtain ⟨words, same⟩ := upload_head draws inside
  rw [same] at uploads
  rw [same, List.foldl_cons]
  have rest : ∀ access ∈ words, Uploads other access := fun access member =>
    uploads access (List.mem_cons_of_mem _ member)
  exact (address_kept _).trans (uploads_elsewhere valid rest (address_elsewhere inside apart))

theorem upload_places (store : VgaStore) {i : ℕ} (within : i < WORDS_PER_FRAME) :
    ((upload source frame).foldl VgaStore.write store).mem (frameAddr frame i) =
      packed (picture frame) i := by
  obtain ⟨frame_buffer, same, words⟩ := draws frame inside
  have streams : Streams frame 0
      (store.write (VgaReg.UPLOAD_ADDR, BitVec.ofNat 32 frame <<< 16)).registers :=
    streams_start inside
  rw [same, uploadWrites_eq inside, List.foldl_cons, ← words i within]
  generalize store.write (VgaReg.UPLOAD_ADDR, BitVec.ofNat 32 frame <<< 16) = begun at streams ⊢
  obtain ⟨_, streamed⟩ := stream_uploaded frame_buffer inside begun streams
    (show 512 ≤ WORDS_PER_FRAME from Nat.le_refl 512)
  exact streamed i within

end Uploading

/-! ## What the builds are given -/

/-- The pictures that a build has: the nibbles of its words, or the colours of the characters for
    which the generator has made the header. -/
inductive Carries : FrameData → (ℕ → ℕ → Byte) → Prop where
  | prepacked (nyancat_frames : ℕ → ℕ → Word) :
    Carries (.prepacked nyancat_frames) fun frame place =>
      ((nyancat_frames frame (place / 8)).extractLsb' (4 * (place % 8)) 4).setWidth 8
  | generated {use_delta : Bool} {frames : ℕ → List Char} {data : NyancatData}
    (sizes : ∀ frame < FRAME_COUNT, (frames frame).length = 4096)
    (header : generate_header map_color_to_palette use_delta frames = some data)
    (fits : data.nyancat_compressed_data.length < 2 ^ 16) :
    Carries (.compressed data) fun frame place =>
      BitVec.ofNat 8 (map_color_to_palette ((frames frame).getD place ','))

theorem word_of_nibbles {word word' : Word}
    (same : ∀ k < 8, word.extractLsb' (4 * k) 4 = word'.extractLsb' (4 * k) 4) : word = word' := by
  apply BitVec.eq_of_getLsbD_eq
  intro i inside
  have nibble := congrArg (BitVec.getLsbD · (i % 4)) (same (i / 4) (by omega))
  simp only [BitVec.getLsbD_extractLsb', decide_eq_true
    (Nat.mod_lt i (show 0 < 4 by decide)), Bool.true_and, Nat.div_add_mod] at nibble
  exact nibble

theorem packed_nibbles (words : ℕ → Word) (i : ℕ) :
    packed (fun place => ((words (place / 8)).extractLsb' (4 * (place % 8)) 4).setWidth 8) i =
      words i := by
  refine word_of_nibbles fun k inside => ?_
  rw [packed, VgaScan.pixel_4bit_packed _ _ inside, show (8 * i + k) / 8 = i by omega,
    show (8 * i + k) % 8 = k by
      omega, BitVec.setWidth_setWidth_of_le _ (by decide), BitVec.setWidth_eq]

theorem packed_colors {frame_buffer : ℕ → Byte} {pixels : List Char} (length : pixels.length = 4096)
    (holds : RunLength.Holds frame_buffer 0
      ((pixels.map map_color_to_palette).map (BitVec.ofNat 8))) {i : ℕ}
    (within : i < WORDS_PER_FRAME) :
    packed frame_buffer i = packed
      (fun place => BitVec.ofNat 8 (map_color_to_palette (pixels.getD place ','))) i := by
  have size : WORDS_PER_FRAME = 512 := rfl
  have cell : ∀ place < 4096, frame_buffer place =
      BitVec.ofNat 8 (map_color_to_palette (pixels.getD place ',')) := by
    intro place inside
    have byte := holds place (BitVec.ofNat 8 (map_color_to_palette (pixels.getD place ','))) (by
      rw [List.map_map, List.getElem?_map, List.getElem?_eq_getElem (length.symm ▸ inside),
        List.getD_eq_getElem?_getD, List.getElem?_eq_getElem (length.symm ▸ inside)]
      rfl)
    rwa [Nat.zero_add] at byte
  refine word_of_nibbles fun k inside => ?_
  rw [packed, packed, VgaScan.pixel_4bit_packed _ _ inside,
    VgaScan.pixel_4bit_packed _ _ inside, cell _ (by omega)]

section Given

variable {frames : ℕ → List Char} {frame : ℕ}

theorem compressed_writes (data : NyancatData) (buffers : Buffers) :
    (vga_upload_frame (.compressed data) frame buffers).2 =
      uploadWrites frame (vga_upload_frame (.compressed data) frame buffers).1.frame_buffer := by
  rw [vga_upload_frame]
  split_ifs <;> rfl

theorem buffersAt_delta {data : NyancatData}
    (delta : data.NYANCAT_COMPRESSION_DELTA = true) (count : ℕ) :
    buffersAt (.compressed data) count = buffersBefore data count := by
  induction count with
  | zero => rfl
  | succ count inductionHypothesis =>
    rw [buffersAt, buffersBefore, inductionHypothesis, vga_upload_frame, if_pos delta]

/-- The frames of the baseline form. -/
def baseline (frames : ℕ → List Char) : List (List ℕ) :=
  (List.range FRAME_COUNT).map fun frame =>
    rleOpcodes map_color_to_palette none (frames frame) ++ [0xff]

variable (sizes : ∀ frame < FRAME_COUNT, (frames frame).length = 4096)

include sizes

theorem sizes_animated : Animated map_color_to_palette frames :=
  ⟨sizes, fun _ _ _ _ => map_color_to_palette_le _⟩

theorem header_baseline :
    generate_header map_color_to_palette false frames =
      some (headerOf false (baseline frames)) := by
  have compressed : compressed_frames map_color_to_palette false frames =
      some (baseline frames) := by
    refine mapM_some _ fun frame member => ?_
    rw [Bool.false_and, if_neg Bool.false_ne_true, compress_frame_opcode_rle,
      if_neg (not_not.mpr (sizes frame (List.mem_range.mp member)))]
  rw [generate_header, compressed]
  rfl

theorem shows_baseline
    (fits : (headerOf false (baseline frames)).nyancat_compressed_data.length < 2 ^ 16)
    (inside : frame < FRAME_COUNT) (buffers : Buffers) :
    Shows ((frames frame).map map_color_to_palette)
      (vga_upload_frame (.compressed (headerOf false (baseline frames))) frame buffers) := by
  have count : (baseline frames).length = FRAME_COUNT := by
    rw [baseline, List.length_map, List.length_range]
  rw [headerOf, List.length_map, ← frameStart_length] at fits
  have bound : frame < (baseline frames).length := count.symm ▸ inside
  have start : frameStart (baseline frames) (frame + 1) ≤
      frameStart (baseline frames) (baseline frames).length :=
    frameStart_mono bound
  have exact_window := @window_exact false _ frame count bound (Nat.lt_of_le_of_lt start fits)
  have opcodes : (baseline frames)[frame] =
      rleOpcodes map_color_to_palette none (frames frame) ++ [0xff] := by
    simp only [baseline, List.getElem_map, List.getElem_range]
  rw [opcodes] at exact_window
  exact (baseline_round_trip map_color_to_palette (frames frame) (sizes frame inside) fun pixel _ =>
    Nat.lt_of_le_of_lt (map_color_to_palette_le pixel) (by decide)).rle _ _ _ exact_window

theorem shows_delta
    (fits : (headerOf true (animation map_color_to_palette frames)).nyancat_compressed_data.length <
      2 ^ 16)
    (inside : frame < FRAME_COUNT) :
    Shows ((frames frame).map map_color_to_palette)
      (vga_upload_frame (.compressed (headerOf true (animation map_color_to_palette frames))) frame
        (buffersAt (.compressed
          (headerOf true (animation map_color_to_palette frames))) frame)) := by
  have delta : (headerOf true (animation map_color_to_palette frames)).NYANCAT_COMPRESSION_DELTA =
      true := rfl
  rw [headerOf, List.length_map, ← frameStart_length, animation_length] at fits
  rw [vga_upload_frame, if_pos delta, buffersAt_delta delta]
  exact (shows_before (sizes_animated sizes) FRAME_COUNT (Nat.le_refl _) fits).2 frame inside

end Given

theorem carries_draws {source : FrameData} {picture : ℕ → ℕ → Byte}
    (carries : Carries source picture) :
    Draws source picture := by
  intro frame inside
  cases carries with
  | prepacked nyancat_frames =>
    refine ⟨_, ?_, fun i _ => rfl⟩
    rw [upload, vga_upload_frame, uploadWrites, streamWrites]
    simp only [packed_nibbles]
  | @generated use_delta frames data sizes header fits =>
    have shows : Shows ((frames frame).map map_color_to_palette)
        (vga_upload_frame (.compressed data) frame (buffersAt (.compressed data) frame)) := by
      cases use_delta with
      | false =>
        rw [header_baseline sizes, Option.some.injEq] at header
        subst header
        exact shows_baseline sizes fits inside _
      | true =>
        rw [header_animation (sizes_animated sizes), Option.some.injEq] at header
        subst header
        exact shows_delta sizes fits inside
    exact ⟨_, compressed_writes data _,
      fun i within => packed_colors (sizes frame inside) shows.buffer within⟩

/-! ## The store behind the program's writes -/

section Stored

variable {source : FrameData} {picture : ℕ → ℕ → Byte}

/-- The settings of frame `frame` in a store that has its words. -/
theorem uploaded_of {frame : ℕ} {store : VgaStore} (inside : frame < FRAME_COUNT)
    (words : ∀ i < WORDS_PER_FRAME, store.mem (frameAddr frame i) = packed (picture frame) i)
    (palette : store.registers.paletteReg = shownPalette)
    (ctrlReg : store.registers.ctrlReg = BitVec.ofNat 32 frame <<< 4 ||| 0x01#32) :
    Uploaded frame (picture frame) shownPalette store := by
  obtain ⟨selected, enabled, unblanked, _⟩ := ctrl_fields frame inside
  refine ⟨words, palette, ?_, ?_, ?_⟩
  · rwa [VgaRegisters.ctrl_en, ctrlReg]
  · rwa [VgaRegisters.ctrl_blank, ctrlReg]
  · rwa [VgaRegisters.ctrl_frame_sel, ctrlReg]

theorem vga_init_palette_eq : vga_init_palette = paletteWrites shownPalette 16 := by decide

theorem palette_stored (store : VgaStore) :
    (vga_init_palette.foldl VgaStore.write store).registers.paletteReg = shownPalette := by
  rw [vga_init_palette_eq]
  refine funext fun color => ?_
  have entered := (palette_uploaded shownPalette store (Nat.le_refl 16)).2 color.toNat color.isLt
  rwa [BitVec.ofNat_toNat, BitVec.setWidth_eq] at entered

/-- The writes of `main` up to the end of the first upload. -/
def firstFrame (source : FrameData) : List RegisterWrite :=
  vga_init_palette ++ (VgaReg.CTRL, 0x01#32) :: upload source 0

/-- The other uploads. -/
def laterFrames (source : FrameData) : List RegisterWrite :=
  (List.range' 1 11).flatMap (upload source)

theorem main_eq (rounds : ℕ) :
    main source VGA_ID rounds = firstFrame source ++ (laterFrames source ++ animate rounds) := by
  have frames : List.range FRAME_COUNT = 0 :: List.range' 1 11 := rfl
  rw [main, if_neg (by decide), frames, List.flatMap_cons, firstFrame, laterFrames]
  simp only [List.append_assoc, List.cons_append]

theorem frameAfter_eq (rounds : ℕ) : frameAfter rounds = rounds % FRAME_COUNT := by
  induction rounds with
  | zero => rfl
  | succ rounds inductionHypothesis =>
    have count : FRAME_COUNT = 12 := rfl
    rw [frameAfter, inductionHypothesis, count]
    by_cases more : rounds % 12 + 1 < 12
    · rw [if_pos more]
      omega
    · rw [if_neg more]
      omega

theorem animate_store (store : VgaStore) (rounds : ℕ) :
    (animate rounds).foldl VgaStore.write store =
      ⟨{ store.registers with
          ctrlReg :=
            if rounds = 0 then store.registers.ctrlReg
            else BitVec.ofNat 32 (frameAfter (rounds - 1)) <<< 4 ||| 0x01#32 },
        store.mem⟩ := by
  induction rounds with
  | zero => rfl
  | succ rounds inductionHypothesis =>
    have valid : frameAfter rounds < NUM_FRAMES := by
      rw [frameAfter_eq]
      exact Nat.mod_lt _ (by decide)
    obtain ⟨selected, _, _, small⟩ := ctrl_fields _ valid
    rw [animate, List.range_succ, List.map_append, List.foldl_append,
      ← animate, inductionHypothesis]
    simp only [List.map_cons, List.map_nil, List.foldl_cons, List.foldl_nil]
    rw [VgaStore.write_ctrl _ _ (by rwa [selected]),
      if_neg (Nat.succ_ne_zero rounds), Nat.add_sub_cancel]

variable (draws : Draws source picture)

include draws

theorem firstFrame_stored (store : VgaStore) :
    ((firstFrame source).foldl VgaStore.write store).registers.paletteReg = shownPalette ∧
      ((firstFrame source).foldl VgaStore.write store).registers.ctrlReg = 0x01#32 ∧
      ∀ i < WORDS_PER_FRAME, ((firstFrame source).foldl VgaStore.write store).mem (frameAddr 0 i) =
        packed (picture 0) i := by
  rw [firstFrame, List.foldl_append, List.foldl_cons, VgaStore.write_ctrl _ _ (by decide)]
  have same := @upload_same _ _ 0 draws (by decide) 1 (by decide) (by decide)
  refine ⟨(same _).paletteReg.trans (palette_stored store), (same _).ctrlReg, fun i within => ?_⟩
  exact upload_places draws (by decide) _ within

theorem laterFrames_stored (store : VgaStore) {count : ℕ} (bound : count ≤ 11) :
    SameSettings 0 store
      (((List.range' 1 count).flatMap (upload source)).foldl VgaStore.write store) ∧
      ∀ frame, 1 ≤ frame → frame < 1 + count → ∀ i < WORDS_PER_FRAME,
        (((List.range' 1 count).flatMap (upload source)).foldl VgaStore.write store).mem
          (frameAddr frame i) =
          packed (picture frame) i := by
  induction count with
  | zero => exact ⟨SameSettings.refl, fun frame first last => absurd last (by omega)⟩
  | succ count inductionHypothesis =>
    obtain ⟨same, placed⟩ := inductionHypothesis (by omega)
    have frames : FRAME_COUNT = 12 := rfl
    have inside : 1 + count < FRAME_COUNT := by omega
    rw [List.range'_1_concat, List.flatMap_append, List.foldl_append, List.flatMap_singleton]
    refine ⟨same.trans (upload_same draws inside (by decide) (by omega) _),
      fun frame first last i within => ?_⟩
    by_cases newest : frame = 1 + count
    · rw [newest]
      exact upload_places draws inside _ within
    · have valid : frame < NUM_FRAMES := (show frame < 1 + count by omega).trans inside
      rw [(upload_same draws inside valid (Ne.symm newest) _).frame i within]
      exact placed frame first (by omega) i within

theorem laterFrames_ctrl : ctrlWrites (laterFrames source) = 0 := by
  refine List.countP_eq_zero.mpr fun access member => ?_
  obtain ⟨frame, here, there⟩ := List.mem_flatMap.mp member
  have inside : frame < FRAME_COUNT := by
    have range := List.mem_range'_1.mp here
    have frames : FRAME_COUNT = 12 := rfl
    omega
  exact List.countP_eq_zero.mp (upload_ctrl draws inside) access there

theorem firstFrame_ctrl : ctrlWrites (firstFrame source) = 1 := by
  have palette : ctrlWrites vga_init_palette = 0 := by decide
  have first : ctrlWrites (upload source 0) = 0 := upload_ctrl draws (by decide)
  rw [ctrlWrites] at palette first
  rw [ctrlWrites, firstFrame, List.countP_append, palette,
    List.countP_cons_of_pos (by decide), first]

omit draws in
theorem animate_ctrl (rounds : ℕ) : ctrlWrites (animate rounds) = rounds := by
  have all : ctrlWrites (animate rounds) = (animate rounds).length := by
    refine List.countP_eq_length.mpr fun access member => ?_
    obtain ⟨round, _, rfl⟩ := List.mem_map.mp member
    exact decide_eq_true rfl
  rw [all, animate, List.length_map, List.length_range]

/-- While the other frames are uploaded, the first one is shown. -/
theorem laterFrames_kept {store : VgaStore} {writes : List RegisterWrite}
    (within : writes <+: laterFrames source) :
    SameSettings 0 store (writes.foldl VgaStore.write store) := by
  have frames : List.range' 1 11 = 1 :: List.range' 2 10 := rfl
  obtain ⟨words, first⟩ := upload_head draws (show 1 < FRAME_COUNT by decide)
  cases writes with
  | nil => exact SameSettings.refl
  | cons access rest =>
    have uploads : ∀ access ∈ laterFrames source, Uploads 0 access := by
      intro access member
      obtain ⟨frame, here, there⟩ := List.mem_flatMap.mp member
      have range := List.mem_range'_1.mp here
      exact upload_uploads draws (show frame < 12 by omega) (by omega) access there
    have behind : ∀ access ∈ rest, Uploads 0 access := fun later member =>
      uploads later (within.subset (List.mem_cons_of_mem _ member))
    -- the first write is the address of frame 1
    rw [laterFrames, frames, List.flatMap_cons, first, List.cons_append] at within
    obtain ⟨rfl, _⟩ := List.cons_prefix_cons.mp within
    rw [List.foldl_cons]
    exact (address_kept _).trans
      (uploads_elsewhere (by decide) behind
        (address_elsewhere (show 1 < NUM_FRAMES by decide) (by decide)))

/-- What the program has shown so far is counted by its writes to `CTRL`. -/
theorem animation_stored {writes : List RegisterWrite} {rounds : ℕ} (store : VgaStore)
    (program : writes <+: main source VGA_ID rounds) (booted : firstFrame source <+: writes) :
    Uploaded ((ctrlWrites writes - 2) % FRAME_COUNT)
      (picture ((ctrlWrites writes - 2) % FRAME_COUNT)) shownPalette
      (writes.foldl VgaStore.write store) := by
  obtain ⟨later, rfl⟩ := booted
  rw [main_eq, List.prefix_append_right_inj] at program
  have count : ctrlWrites (firstFrame source ++ later) = 1 + ctrlWrites later := by
    rw [ctrlWrites, List.countP_append, ← ctrlWrites, ← ctrlWrites, firstFrame_ctrl draws]
  obtain ⟨palette, ctrlReg, words⟩ := firstFrame_stored draws store
  rw [count, List.foldl_append]
  generalize (firstFrame source).foldl VgaStore.write store = begun at palette ctrlReg words ⊢
  cases List.prefix_or_prefix_of_prefix program
    (List.prefix_append (laterFrames source) (animate rounds)) with
  | inl uploading =>
    -- the upload of the other frames leaves the first one on the screen
    have none : ctrlWrites later = 0 := by
      have bound : ctrlWrites later ≤ ctrlWrites (laterFrames source) := uploading.sublist.countP_le
      rw [laterFrames_ctrl draws] at bound
      exact Nat.le_zero.mp bound
    rw [none]
    exact uploaded_stable (uploaded_of (by decide) words palette ctrlReg)
      (laterFrames_kept draws uploading)
  | inr uploaded =>
    obtain ⟨animation, rfl⟩ := uploaded
    rw [List.prefix_append_right_inj] at program
    -- every frame is in place, and each further write of CTRL shows the next one
    have same : animation = animate animation.length := by
      have taken := List.prefix_iff_eq_take.mp program
      have bound := program.length_le
      rw [animate, List.length_map, List.length_range] at bound
      rwa [animate, ← List.map_take, List.take_range, Nat.min_eq_left bound, ← animate] at taken
    have shown : ctrlWrites (laterFrames source ++ animation) = animation.length := by
      rw [ctrlWrites, List.countP_append, ← ctrlWrites, ← ctrlWrites,
        laterFrames_ctrl draws, same, animate_ctrl, Nat.zero_add, ← same]
    obtain ⟨settings, placed⟩ := laterFrames_stored draws begun (Nat.le_refl 11)
    have inside : frameAfter (animation.length - 1) < FRAME_COUNT := by
      rw [frameAfter_eq]
      exact Nat.mod_lt _ (by decide)
    rw [shown, show 1 + animation.length - 2 =
      animation.length - 1 by
        omega, ← frameAfter_eq, List.foldl_append, same, animate_store, ← same]
    refine uploaded_of inside (fun i within => ?_) (settings.paletteReg.trans palette) ?_
    · by_cases zero : frameAfter (animation.length - 1) = 0
      · rw [zero]
        exact (settings.frame i within).trans (words i within)
      · exact placed _ (Nat.pos_of_ne_zero zero) (by rw [Nat.add_comm]; exact inside) i within
    · by_cases none : animation.length = 0
      · simp only [none, if_pos]
        exact settings.ctrlReg.trans ctrlReg
      · simp only [if_neg none]

end Stored

/-! ## On the screen -/

section Screen

variable {start : Vga} {edges : ℕ → VgaEdge}

theorem written_earlier {n m : ℕ} (later : n ≤ m) :
    written start edges n <+: written start edges m :=
  Clocked.logAt_isPrefix step writesNow start edges later

/-- Every build shows the frames that it was given: once the first frame has been uploaded and the
    first scan, which is black, is over, every pixel that is scanned out has the colour of its place
    in the frame that the animation has reached.  A change of the frame takes three edges of the
    pixel clock to come through. -/
theorem animation_displayed (start : Vga) (edges : ℕ → VgaEdge)
    (reset : start.Reset) (source : FrameData)
    (picture : ℕ → ℕ → Byte) (carries : Carries source picture) (rounds n m : ℕ) (later : n ≤ m)
    (program : written start edges m <+: main source VGA_ID rounds)
    (booted : firstFrame source <+: written start edges n)
    (unchanged : ctrlWrites (written start edges n) = ctrlWrites (written start edges m))
    (synchronised : pixelEdges edges n + 3 ≤ pixelEdges edges m)
    (scannedOut : scanCycles ≤ pixelEdges edges m)
    (active : (stateAt start edges m).pixel.activevideo = true) :
    Displays (picture ((ctrlWrites (written start edges m) - 2) % FRAME_COUNT)) shownPalette
      (pixelEdges edges m)
      (stateAt start edges m).pixel := by
  have uploaded : ∀ k, n ≤ k → k < m →
      Uploaded ((ctrlWrites (written start edges m) - 2) % FRAME_COUNT)
        (picture ((ctrlWrites (written start edges m) - 2) % FRAME_COUNT)) shownPalette
        (stateAt start edges k).store := by
    intro k after before
    have more : ctrlWrites (written start edges n) ≤ ctrlWrites (written start edges k) :=
      (written_earlier after).sublist.countP_le
    have fewer : ctrlWrites (written start edges k) ≤ ctrlWrites (written start edges m) :=
      (written_earlier before.le).sublist.countP_le
    have count : ctrlWrites (written start edges k) = ctrlWrites (written start edges m) := by omega
    rw [store_run, ← count]
    exact animation_stored (carries_draws carries) start.store
      ((written_earlier before.le).trans program)
      (booted.trans (written_earlier after))
  have valid : (ctrlWrites (written start edges m) - 2) % FRAME_COUNT < NUM_FRAMES :=
    Nat.mod_lt _ (by decide)
  have sampled := sampled_run reset valid later uploaded synchronised scannedOut
  refine ⟨?_, sampled.column, sampled.line⟩
  rw [sampled.column, sampled.line]
  exact sampled.colour active

end Screen

/-! ### Frames of one colour -/

/-- Blue and white frames in turn. -/
def solid (frame : ℕ) : List Char := List.replicate 4096 (if frame % 2 = 0 then ',' else '.')

theorem solid_sizes : ∀ frame < FRAME_COUNT, (solid frame).length = 4096 :=
  fun _ _ => List.length_replicate

theorem runOpcodes_length (long remaining : ℕ) :
    (runOpcodes long remaining).length ≤ remaining / 256 + 2 := by
  fun_induction runOpcodes long remaining with
  | case1 => simp
  | case2 => simp
  | case3 remaining some long' short inductionHypothesis =>
    -- what is left after the sixteens is at most one opcode
    rw [runOpcodes]
    split_ifs with none few
    · simp
    · simp
    · omega
    · omega
  | case4 remaining some long' long'' inductionHypothesis =>
    rw [List.length_cons]
    omega

theorem rleOpcodes_replicate (char : Char) (count : ℕ) :
    (rleOpcodes map_color_to_palette none (List.replicate count char)).length ≤
      count / 256 + 3 := by
  cases count with
  | zero => simp [rleOpcodes]
  | succ count =>
    have all : ∀ other ∈ List.replicate count char,
        decide (map_color_to_palette other = map_color_to_palette char) = true :=
      fun other member => by rw [List.eq_of_mem_replicate member, decide_eq_true rfl]
    have color : (colorOpcodes none (map_color_to_palette char)).length ≤ 1 :=
      colorOpcodes_length none _
    have runs := runOpcodes_length 0x30 (1 + count)
    rw [List.replicate_succ, rleOpcodes, List.takeWhile_eq_self_iff.mpr all,
      List.dropWhile_eq_nil_iff.mpr all, List.length_replicate, List.length_append,
      List.length_append, rleOpcodes, List.length_nil]
    omega

theorem solid_fits : (headerOf false (baseline solid)).nyancat_compressed_data.length < 2 ^ 16 := by
  have each : ∀ opcodes ∈ (baseline solid).map List.length, opcodes ≤ 20 := by
    intro size member
    obtain ⟨opcodes, there, rfl⟩ := List.mem_map.mp member
    obtain ⟨frame, _, rfl⟩ := List.mem_map.mp there
    have runs := rleOpcodes_replicate (if frame % 2 = 0 then ',' else '.') 4096
    rw [List.length_append, List.length_singleton, solid]
    omega
  have total := List.sum_le_card_nsmul _ 20 each
  rw [headerOf, List.length_map, List.length_flatten]
  rw [List.length_map, baseline, List.length_map, List.length_range, ← baseline] at total
  exact Nat.lt_of_le_of_lt total (by decide)

/-- The writes of the program up to the second round of the animation. -/
@[irreducible] def solidWrites : List RegisterWrite :=
  main (.compressed (headerOf false (baseline solid))) VGA_ID 2

theorem solidWrites_eq :
    solidWrites = main (.compressed (headerOf false (baseline solid))) VGA_ID 2 := by
  rw [solidWrites]

theorem drive_quiet (writes : List RegisterWrite) (n : ℕ) :
    written powerUp (drive writes) (5 * writes.length + n) = writes := by
  induction n with
  | zero => exact drive_uploaded writes
  | succ n inductionHypothesis =>
    have edge : drive writes (5 * writes.length + n) = ⟨none, true⟩ := by
      rw [drive, List.getElem?_eq_none (by omega)]
    rw [← Nat.add_assoc, written_succ, inductionHypothesis, edge]
    exact List.append_nil writes

theorem solid_ctrl : ctrlWrites solidWrites = 3 := by
  have draws :=
    carries_draws (Carries.generated solid_sizes (header_baseline solid_sizes) solid_fits)
  have first := firstFrame_ctrl draws
  have later := laterFrames_ctrl draws
  have shown := animate_ctrl 2
  rw [ctrlWrites] at first later shown
  rw [solidWrites_eq, main_eq, ctrlWrites, List.countP_append,
    List.countP_append, first, later, shown]

theorem solid_displayed :
    Displays (fun place =>
      BitVec.ofNat 8 (map_color_to_palette ((solid 1).getD place ','))) shownPalette
        (pixelEdges (drive solidWrites) (5 * solidWrites.length + (stripesShown + 2)))
        (stateAt powerUp (drive solidWrites)
          (5 * solidWrites.length + (stripesShown + 2))).pixel := by
  have quiet := drive_quiet solidWrites
  have begun := quiet 0
  rw [Nat.add_zero] at begun
  have edges := drive_pixelEdges solidWrites
  have none := edges 0
  rw [Nat.add_zero] at none
  have shown := animation_displayed powerUp (drive solidWrites) powerUp_reset _ _
    (Carries.generated solid_sizes (header_baseline solid_sizes) solid_fits) 2
      (5 * solidWrites.length)
    (5 * solidWrites.length + (stripesShown + 2)) (Nat.le_add_right _ _)
    (by rw [quiet, solidWrites_eq])
    (by rw [begun, solidWrites_eq, main_eq]; exact List.prefix_append _ _)
    (by rw [begun, quiet])
    (by rw [none, edges]; decide)
    (by rw [edges]; decide)
    (drive_active solidWrites stripesShown (by decide) (by decide))
  rwa [quiet, solid_ctrl] at shown

end Nyancat

end MyCpu
