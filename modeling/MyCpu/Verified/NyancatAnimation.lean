import Mathlib.Algebra.BigOperators.Group.List.Lemmas
import Mathlib.Algebra.Order.BigOperators.Group.List
import MyCpu.Verified.CodecRoundTrip

/-! # The animation in sixteen bits

The header holds the start of each frame in sixteen bits, and the program converts the
size of the data to sixteen bits.  As long as the data fits, each frame is found again.
Otherwise one frame is cut off by the truncation: its window is empty, and the frame
before is shown once more. -/

namespace MyCpu

open RunLength NyancatGenerator

namespace Nyancat

/-! ## Where the frames lie -/

section Header

variable {use_delta : Bool} {compressed : List (List ℕ)} {k : ℕ}

/-- The header of compressed frames. -/
def headerOf (use_delta : Bool) (compressed : List (List ℕ)) : NyancatData where
  NYANCAT_COMPRESSION_DELTA := use_delta
  nyancat_frame_offsets := (offsets compressed).map (BitVec.ofNat 16)
  nyancat_compressed_data := compressed.flatten.map (BitVec.ofNat 8)

/-- The number of bytes before frame `k`. -/
def frameStart (compressed : List (List ℕ)) (k : ℕ) : ℕ := ((compressed.map List.length).take k).sum

theorem frameStart_succ (inside : k < compressed.length) :
    frameStart compressed (k + 1) = frameStart compressed k + (compressed[k]).length := by
  rw [frameStart, List.sum_take_succ _ _ (by rwa [List.length_map]), List.getElem_map, ← frameStart]

theorem frameStart_mono {m : ℕ} (earlier : k ≤ m) :
    frameStart compressed k ≤ frameStart compressed m :=
  (List.take_sublist_take_left earlier).sum_le_sum fun _ _ => Nat.zero_le _

theorem frameStart_length :
    frameStart compressed compressed.length = compressed.flatten.length := by
  rw [frameStart, List.take_of_length_le (by rw [List.length_map]), List.length_flatten]

theorem offsets_get (inside : k < compressed.length) :
    (offsets compressed)[k]? = some (frameStart compressed k) := by
  rw [offsets, List.getElem?_scanl, if_pos (by simp; omega), frameStart,
    ← List.sum_eq_foldl, List.map_dropLast, List.dropLast_eq_take, List.take_take, List.length_map,
    Nat.min_eq_left (by omega)]

theorem offset_header (inside : k < compressed.length) :
    offset (headerOf use_delta compressed) k = BitVec.ofNat 16 (frameStart compressed k) := by
  rw [offset, headerOf, List.getD_eq_getElem?_getD, List.getElem?_map, offsets_get inside]
  rfl

theorem next_offset_header (all : compressed.length = FRAME_COUNT) (inside : k < FRAME_COUNT) :
    next_offset (headerOf use_delta compressed) k =
      BitVec.ofNat 16 (frameStart compressed (k + 1)) := by
  rw [next_offset]
  by_cases more : k < FRAME_COUNT - 1
  · rw [if_pos more]
    exact offset_header (by omega)
  · have last : k + 1 = compressed.length := by omega
    rw [if_neg more, last, frameStart_length, headerOf, List.length_map]

/-- A frame that ends before the limit of sixteen bits is found again. -/
theorem window_exact (all : compressed.length = FRAME_COUNT) (inside : k < compressed.length)
    (fits : frameStart compressed (k + 1) < 2 ^ 16) :
    window (headerOf use_delta compressed) k = (compressed[k]).map (BitVec.ofNat 8) := by
  have start : frameStart compressed k < 2 ^ 16 :=
    Nat.lt_of_le_of_lt (frameStart_mono (Nat.le_succ k)) fits
  rw [window, offset_header inside, next_offset_header all (all ▸ inside),
    BitVec.toNat_ofNat, BitVec.toNat_ofNat, Nat.mod_eq_of_lt start, Nat.mod_eq_of_lt fits,
    headerOf, ← List.drop_take, ← List.map_take, ← List.map_drop]
  exact congrArg _ (List.drop_take_succ_flatten_eq_getElem compressed k inside)

/-- A frame that the limit cuts off has no bytes. -/
theorem window_cut (all : compressed.length = FRAME_COUNT) (inside : k < compressed.length)
    (start : frameStart compressed k < 2 ^ 16) (cut : 2 ^ 16 ≤ frameStart compressed (k + 1))
    (short : (compressed[k]).length ≤ 2 ^ 16) : window (headerOf use_delta compressed) k = [] := by
  have size := frameStart_succ inside
  have wrapped : frameStart compressed (k + 1) % 2 ^ 16 ≤ frameStart compressed k := by omega
  rw [window, offset_header inside, next_offset_header all (all ▸ inside),
    BitVec.toNat_ofNat, BitVec.toNat_ofNat, Nat.mod_eq_of_lt start,
    Nat.sub_eq_zero_of_le wrapped, List.take_zero]

end Header

/-! ## Sizes -/

section Sizes

theorem splits_length {kind : ℕ → Instruction ℕ} {form : NyancatForm} {bytes : List ℕ} {total : ℕ}
    (splits : Splits form id kind bytes total) : bytes.length ≤ total := by
  obtain ⟨counts, ⟨opcodes, rfl, _, same⟩, positive, rfl⟩ := splits
  have lengths := congrArg List.length same
  rw [List.length_map, List.length_map] at lengths
  rw [List.length_map, lengths]
  exact List.length_le_sum_of_one_le counts positive

theorem colorOpcodes_length (current_color : Option ℕ) (color : ℕ) :
    (colorOpcodes current_color color).length ≤ 1 := by
  rw [colorOpcodes]
  split_ifs <;> simp

theorem rleOpcodes_length {Pixel : Type} (map_color : Pixel → ℕ) (current_color : Option ℕ)
    (pixels : List Pixel) :
    (rleOpcodes map_color current_color pixels).length ≤ 2 * pixels.length := by
  induction current_color, pixels using rleOpcodes.induct map_color with
  | case1 => simp [rleOpcodes]
  | case2 current_color pixel rest color inductionHypothesis =>
    have split := congrArg List.length
      ( @List.takeWhile_append_dropWhile _
        (fun other => decide (map_color other = map_color pixel)) rest)
    have colour := colorOpcodes_length current_color (map_color pixel)
    have run := splits_length ( @runOpcodes_splits ℕ id .baseline
      (1 + (rest.takeWhile fun other => decide (map_color other = map_color pixel)).length))
    rw [List.length_append] at split
    rw [rleOpcodes, List.length_append, List.length_append, List.length_cons]
    simp only [NyancatForm.long] at run
    simp only [color] at inductionHypothesis
    omega

theorem deltaOpcodes_length (current_color : Option ℕ) (colors : List (ℕ × ℕ)) :
    (deltaOpcodes current_color colors).length ≤ 2 * colors.length := by
  generalize length : colors.length = n
  induction n using Nat.strong_induction_on generalizing current_color colors with
  | _ n inductionHypothesis =>
    have split := congrArg List.length ( @List.takeWhile_append_dropWhile _ unchanged colors)
    have skip := splits_length ( @skipOpcodes_splits ℕ id (colors.takeWhile unchanged).length)
    rw [List.length_append] at split
    rw [deltaOpcodes, List.length_append]
    split
    next => simp only [List.length_nil]; omega
    next old color rest changed =>
      have split' :=
        congrArg List.length ( @List.takeWhile_append_dropWhile _ (changedTo color) rest)
      have colour := colorOpcodes_length current_color color
      have run := splits_length ( @runOpcodes_splits ℕ id .delta
        (1 + (rest.takeWhile (changedTo color)).length))
      rw [List.length_append] at split'
      rw [changed, List.length_cons] at split
      have behind :=
        inductionHypothesis (rest.dropWhile (changedTo color)).length (by omega) (some color) _ rfl
      rw [List.length_append, List.length_append]
      simp only [NyancatForm.long] at run
      omega

end Sizes

/-! ## The frames one after another -/

section Animation

variable {Pixel : Type} (map_color : Pixel → ℕ) (frames : ℕ → List Pixel)

/-- The colours of frame `k`. -/
def colors (k : ℕ) : List ℕ := (frames k).map map_color

/-- The opcodes of frame `k` in the delta mode. -/
def frameOpcodes (k : ℕ) : List ℕ :=
  if k = 0 then rleOpcodes map_color none (frames 0) ++ [0xff]
  else deltaOpcodes none ((colors map_color frames (k - 1)).zip (colors map_color frames k)) ++
    [0xff]

/-- All opcodes of the animation. -/
def animation : List (List ℕ) := (List.range FRAME_COUNT).map (frameOpcodes map_color frames)

/-- Twelve frames of 4096 pixels in the colours 0 to 13. -/
structure Animated : Prop where
  length : ∀ k < FRAME_COUNT, (frames k).length = 4096
  palette : ∀ k < FRAME_COUNT, ∀ pixel ∈ frames k, map_color pixel ≤ 13

/-- The pixels that the program uploads for each frame, one frame after another, are those of the
    frame. -/
def ShowsAnimation (data : NyancatData) : Prop :=
  ∀ k < FRAME_COUNT, ∀ place color, (colors map_color frames k)[place]? = some color →
    uploadedPixel (vga_upload_frame_delta data k (buffersBefore data k)).2 place =
      BitVec.ofNat 4 color

variable {map_color : Pixel → ℕ} {frames : ℕ → List Pixel} {k : ℕ}

theorem mapM_some {α β : Type} {f : α → Option β} {g : α → β} (entries : List α)
    (same : ∀ entry ∈ entries, f entry = some (g entry)) :
    entries.mapM f = some (entries.map g) := by
  induction entries with
  | nil => rfl
  | cons entry entries inductionHypothesis =>
    rw [List.mapM_cons, same entry List.mem_cons_self,
      inductionHypothesis fun other later => same other (List.mem_cons_of_mem _ later)]
    rfl

theorem compressed_animation (animated : Animated map_color frames) :
    compressed_frames map_color true frames = some (animation map_color frames) := by
  refine mapM_some _ fun k member => ?_
  have inside : k < FRAME_COUNT := List.mem_range.mp member
  rw [Bool.true_and, frameOpcodes]
  by_cases first : k = 0
  · subst first
    rw [compress_frame_opcode_rle, if_neg (not_not.mpr (animated.length 0 inside))]
    rfl
  · have before := animated.length (k - 1) (by omega)
    rw [if_pos (decide_eq_true first), if_neg first, compress_delta_frame,
      if_neg (by simp [before, animated.length k inside])]
    rfl

theorem header_animation (animated : Animated map_color frames) :
    generate_header map_color true frames = some (headerOf true (animation map_color frames)) := by
  rw [generate_header, compressed_animation animated]
  rfl

theorem animation_length : (animation map_color frames).length = FRAME_COUNT := by
  rw [animation, List.length_map, List.length_range]

theorem animation_get (inside : k < (animation map_color frames).length) :
    (animation map_color frames)[k] = frameOpcodes map_color frames k := by
  simp only [animation, List.getElem_map, List.getElem_range]

theorem colors_length (animated : Animated map_color frames) (inside : k < FRAME_COUNT) :
    (colors map_color frames k).length = 4096 := by
  rw [colors, List.length_map, animated.length k inside]

theorem colors_small (animated : Animated map_color frames) (inside : k < FRAME_COUNT) :
    ∀ color ∈ colors map_color frames k, color < 16 := by
  intro color member
  obtain ⟨pixel, there, rfl⟩ := List.mem_map.mp member
  exact Nat.lt_of_le_of_lt (animated.palette k inside pixel there) (by decide)

/-- A frame has at most two bytes for each pixel. -/
theorem frameOpcodes_length (animated : Animated map_color frames) (inside : k < FRAME_COUNT) :
    (frameOpcodes map_color frames k).length ≤ 8193 := by
  rw [frameOpcodes]
  split_ifs with first
  · have bound := rleOpcodes_length map_color none (frames 0)
    rw [animated.length 0 (by decide)] at bound
    rw [List.length_append, List.length_singleton]
    omega
  · have bound :=
      deltaOpcodes_length none ((colors map_color frames (k - 1)).zip (colors map_color frames k))
    rw [List.length_zip, colors_length animated inside, colors_length animated (by omega),
      Nat.min_self] at bound
    rw [List.length_append, List.length_singleton]
    omega

/-- The buffer of the frame before, if there is one. -/
def Remembers (map_color : Pixel → ℕ) (frames : ℕ → List Pixel) (k : ℕ) (buffers : Buffers) :
    Prop :=
  k ≠ 0 → Holds buffers.prev_frame_buffer 0 ((colors map_color frames (k - 1)).map (BitVec.ofNat 8))

theorem upload_shows (animated : Animated map_color frames)
    (inside : k < FRAME_COUNT) {data : NyancatData}
    (exact_window : window data k = (frameOpcodes map_color frames k).map (BitVec.ofNat 8))
    {buffers : Buffers}
    (remembers : Remembers map_color frames k buffers) :
    Shows (colors map_color frames k) (vga_upload_frame_delta data k buffers) := by
  rw [frameOpcodes] at exact_window
  by_cases first : k = 0
  · subst first
    rw [if_pos rfl] at exact_window
    refine (baseline_round_trip map_color (frames 0) (animated.length 0 inside)
      fun pixel member => ?_).delta data
      buffers exact_window
    exact colors_small animated inside _ (List.mem_map_of_mem member)
  · rw [if_neg first] at exact_window
    exact (delta_round_trip _ _ (colors_length animated (by omega)) (colors_length animated inside)
      (colors_small animated inside)).delta data k buffers first exact_window (remembers first)

theorem upload_remembers (animated : Animated map_color frames)
    (inside : k < FRAME_COUNT) {data : NyancatData}
    {buffers : Buffers} (shows : Shows (colors map_color frames k)
      (vga_upload_frame_delta data k buffers)) :
    Remembers map_color frames (k + 1) (vga_upload_frame_delta data k buffers).1 := by
  intro _
  exact copy_buffer_holds
    (by rw [List.length_map, Nat.add_sub_cancel, colors_length animated inside]) shows.buffer

/-- As long as the frames lie before the limit, each is shown. -/
theorem shows_before (animated : Animated map_color frames) (count : ℕ)
    (bound : count ≤ FRAME_COUNT)
    (fits : frameStart (animation map_color frames) count < 2 ^ 16) :
    Remembers map_color frames count
      (buffersBefore (headerOf true (animation map_color frames)) count) ∧
      ∀ k < count, Shows (colors map_color frames k)
        (vga_upload_frame_delta (headerOf true (animation map_color frames)) k
          (buffersBefore (headerOf true (animation map_color frames)) k)) := by
  induction count with
  | zero => exact ⟨fun first => absurd rfl first, fun k none => absurd none (Nat.not_lt_zero k)⟩
  | succ count inductionHypothesis =>
    have inside : count < (animation map_color frames).length := animation_length.symm ▸ bound
    obtain ⟨remembers, earlier⟩ := inductionHypothesis (Nat.le_of_succ_le bound)
      (Nat.lt_of_le_of_lt (frameStart_mono (Nat.le_succ count)) fits)
    have exact_window := @window_exact true _ count animation_length inside fits
    rw [animation_get inside] at exact_window
    have now := upload_shows animated bound exact_window remembers
    refine ⟨upload_remembers animated bound now, fun k before => ?_⟩
    cases Nat.lt_succ_iff_lt_or_eq.mp before with
    | inl sooner => exact earlier k sooner
    | inr same => exact same ▸ now

theorem shows_of_fits (animated : Animated map_color frames)
    (fits : (headerOf true (animation map_color frames)).nyancat_compressed_data.length < 2 ^ 16) :
    ShowsAnimation map_color frames (headerOf true (animation map_color frames)) := by
  rw [headerOf, List.length_map, ← frameStart_length, animation_length] at fits
  intro k inside place color found
  exact ((shows_before animated FRAME_COUNT
    (Nat.le_refl _) fits).2 k inside).uploaded place color found

/-! ## Too many bytes -/

/-- A sum that reaches a limit crosses it. -/
theorem frame_crosses {compressed : List (List ℕ)} {limit count : ℕ} (positive : 0 < limit)
    (reached : limit ≤ frameStart compressed count) :
    ∃ k < count, frameStart compressed k < limit ∧ limit ≤ frameStart compressed (k + 1) := by
  induction count with
  | zero => exact absurd reached (Nat.not_le.mpr positive)
  | succ count inductionHypothesis =>
    by_cases earlier : limit ≤ frameStart compressed count
    · obtain ⟨k, before, crosses⟩ := inductionHypothesis earlier
      exact ⟨k, Nat.lt_succ_of_lt before, crosses⟩
    · exact ⟨count, Nat.lt_succ_self count, Nat.lt_of_not_le earlier, reached⟩

/-- Some frame lies across the limit, and it is not the first one. -/
theorem cut_frame (animated : Animated map_color frames)
    (large : 2 ^ 16 ≤ (headerOf true (animation map_color frames)).nyancat_compressed_data.length) :
    ∃ k, 0 < k ∧ k < FRAME_COUNT ∧ frameStart (animation map_color frames) k < 2 ^ 16 ∧
      2 ^ 16 ≤ frameStart (animation map_color frames) (k + 1) := by
  rw [headerOf, List.length_map, ← frameStart_length, animation_length] at large
  obtain ⟨k, inside, start, cut⟩ := frame_crosses (by decide) large
  have bound : k < (animation map_color frames).length := animation_length.symm ▸ inside
  have size := frameStart_succ bound
  have short := frameOpcodes_length animated inside
  rw [animation_get bound] at size
  refine ⟨k, Nat.pos_of_ne_zero fun first => ?_, inside, start, cut⟩
  subst first
  rw [size, show frameStart (animation map_color frames) 0 = 0 from rfl] at cut
  omega

/-- A frame that is cut off is shown as the frame before. -/
theorem cut_repeats (animated : Animated map_color frames)
    (shows : ShowsAnimation map_color frames (headerOf true (animation map_color frames)))
    (later : 0 < k)
    (inside : k < FRAME_COUNT) (start : frameStart (animation map_color frames) k < 2 ^ 16)
    (cut : 2 ^ 16 ≤ frameStart (animation map_color frames) (k + 1)) :
    colors map_color frames k = colors map_color frames (k - 1) := by
  have bound : k < (animation map_color frames).length := animation_length.symm ▸ inside
  have short := frameOpcodes_length animated inside
  have empty :=
    @window_cut true _ k animation_length bound start cut (by rw [animation_get bound]; omega)
  have remembers := (shows_before animated k (Nat.le_of_lt inside) start).1 (Nat.ne_of_gt later)
  have before := colors_length animated (show k - 1 < FRAME_COUNT by omega)
  have kept := @copy_buffer_holds
    (buffersBefore (headerOf true (animation map_color frames)) k).frame_buffer _ _
      (by rw [List.length_map, before])
    remembers
  apply List.ext_getElem ((colors_length animated inside).trans before.symm)
  intro place there there'
  have pixel := shows k inside place _ (List.getElem?_eq_getElem there)
  have small := colors_small animated inside _ (List.getElem_mem there)
  have small' :=
    colors_small animated (show k - 1 < FRAME_COUNT by omega) _ (List.getElem_mem there')
  -- the empty window leaves the buffer as it was
  rw [vga_upload_frame_delta, if_neg (Nat.ne_of_gt later), empty,
    uploadedPixel_buffer _ _ _ (by omega)] at pixel
  have cell :=
    kept place (BitVec.ofNat 8 _) (by rw [List.getElem?_map, List.getElem?_eq_getElem there']; rfl)
  rw [Nat.zero_add] at cell
  have same : (copy_buffer _ _ place).setWidth 4 = _ := pixel
  rw [cell, BitVec.setWidth_ofNat_of_le (by decide)] at same
  have values := congrArg BitVec.toNat same
  rw [BitVec.toNat_ofNat, BitVec.toNat_ofNat, Nat.mod_eq_of_lt small,
    Nat.mod_eq_of_lt small'] at values
  exact values.symm

/-- The animation is shown if its data fits in sixteen bits, and otherwise only if the frame that is
    cut off repeats the frame before. -/
theorem animation_shown (map_color : Pixel → ℕ) (frames : ℕ → List Pixel)
    (animated : Animated map_color frames) :
    ∃ compressed data, compressed_frames map_color true frames = some compressed ∧
      generate_header map_color true frames = some data ∧
      (data.nyancat_compressed_data.length < 2 ^ 16 → ShowsAnimation map_color frames data) ∧
      (ShowsAnimation map_color frames data → data.nyancat_compressed_data.length < 2 ^ 16 ∨
        ∃ k, 0 < k ∧ k < FRAME_COUNT ∧ frameStart compressed k < 2 ^ 16 ∧
        2 ^ 16 ≤ frameStart compressed (k + 1) ∧
          colors map_color frames k = colors map_color frames (k - 1)) := by
  refine ⟨_, _, compressed_animation animated, header_animation animated,
    shows_of_fits animated, fun shows => ?_⟩
  by_cases fits : (headerOf true (animation map_color frames)).nyancat_compressed_data.length <
    2 ^ 16
  · exact Or.inl fits
  · obtain ⟨k, later, inside, start, cut⟩ := cut_frame animated (Nat.le_of_not_lt fits)
    exact Or.inr ⟨k, later, inside, start, cut, cut_repeats animated shows later inside start cut⟩

end Animation

/-! ### Frames that change everywhere -/

/-- White and blue pixels in turn. -/
def checkered : Bool → ℕ → List Char
  | _, 0 => []
  | white, size + 1 => (if white then '.' else ',') :: checkered (!white) size

/-- Each frame is the opposite of the frame before. -/
def flicker (k : ℕ) : List Char := checkered (k % 2 = 0) 4096

theorem checkered_length (white : Bool) (size : ℕ) : (checkered white size).length = size := by
  induction size generalizing white with
  | zero => rfl
  | succ size inductionHypothesis => rw [checkered, List.length_cons, inductionHypothesis]

theorem checkered_colors (white : Bool) (size : ℕ) :
    (checkered white (size + 1)).map map_color_to_palette =
      white.toNat :: (checkered (!white) size).map map_color_to_palette := by
  cases white <;> rfl

/-- A pixel that has changed, and is not repeated. -/
theorem deltaOpcodes_single (current_color : Option ℕ) {old color : ℕ} (rest : List (ℕ × ℕ))
    (changes : old ≠ color)
    (alone : rest.takeWhile (changedTo color) = []) :
    deltaOpcodes current_color ((old, color) :: rest) =
      colorOpcodes current_color color ++ [0x20] ++ deltaOpcodes (some color) rest := by
  have moved : unchanged (old, color) = false := decide_eq_false changes
  have behind := @List.takeWhile_append_dropWhile _ (changedTo color) rest
  rw [alone, List.nil_append] at behind
  rw [deltaOpcodes, List.takeWhile_cons, moved, if_neg Bool.false_ne_true, List.length_nil,
    skipOpcodes, if_pos rfl, List.nil_append]
  split
  next none =>
    rw [List.dropWhile_cons, moved, if_neg Bool.false_ne_true] at none
    cases none
  next old' color' rest' here =>
    rw [List.dropWhile_cons, moved, if_neg Bool.false_ne_true] at here
    cases here
    rw [alone, behind]
    simp [runOpcodes]

/-- Where every pixel changes, and no two neighbours are alike, a pixel takes two bytes. -/
theorem checkered_opcodes (white : Bool) (size : ℕ) (current_color : Option ℕ)
    (other : current_color ≠ some white.toNat) :
    (deltaOpcodes current_color (((checkered (!white) size).map map_color_to_palette).zip
      ((checkered white size).map map_color_to_palette))).length = 2 * size := by
  induction size generalizing white current_color with
  | zero => simp [checkered, deltaOpcodes, skipOpcodes]
  | succ size inductionHypothesis =>
    have next := inductionHypothesis (!white) (some white.toNat) (by cases white <;> decide)
    have color : (colorOpcodes current_color white.toNat).length = 1 := by
      rw [colorOpcodes, if_pos (Ne.symm other), List.length_singleton]
    rw [checkered_colors, checkered_colors, List.zip_cons_cons, deltaOpcodes_single _ _
      (by cases white <;> decide), List.length_append, List.length_append, color, next,
      List.length_singleton]
    · ring
    · cases size with
      | zero => rfl
      | succ size =>
        rw [checkered_colors, checkered_colors]
        cases white <;> rfl

theorem flicker_animated : Animated map_color_to_palette flicker where
  length := fun _ _ => checkered_length _ _
  palette := fun _ _ _ _ => map_color_to_palette_le _

theorem flicker_opposite {k : ℕ} (later : k ≠ 0) :
    flicker (k - 1) = checkered (!decide (k % 2 = 0)) 4096 := by
  rw [flicker]
  congr 1
  by_cases even : k % 2 = 0
  · rw [decide_eq_true even, decide_eq_false (by omega)]
    rfl
  · rw [decide_eq_false even, decide_eq_true (by omega)]
    rfl

theorem flicker_size {k : ℕ} (later : k ≠ 0) :
    (frameOpcodes map_color_to_palette flicker k).length = 8193 := by
  have bytes := checkered_opcodes (decide (k % 2 = 0)) 4096 none (by simp)
  rw [frameOpcodes, if_neg later, List.length_append, List.length_singleton, colors, colors,
    flicker_opposite later, flicker, bytes]

theorem flicker_start (k : ℕ) (bound : k ≤ FRAME_COUNT) :
    8193 * (k - 1) ≤ frameStart (animation map_color_to_palette flicker) k := by
  induction k with
  | zero => exact Nat.zero_le _
  | succ k inductionHypothesis =>
    have inside : k < (animation map_color_to_palette flicker).length :=
      animation_length.symm ▸ bound
    have earlier := inductionHypothesis (Nat.le_of_succ_le bound)
    rw [frameStart_succ inside, animation_get inside]
    by_cases later : k = 0
    · subst later
      exact Nat.zero_le _
    · rw [flicker_size later]
      omega

theorem flicker_changes {k : ℕ} (later : k ≠ 0) :
    colors map_color_to_palette flicker k ≠ colors map_color_to_palette flicker (k - 1) := by
  intro same
  rw [colors, colors, flicker_opposite later, flicker, checkered_colors _ 4095,
    checkered_colors _ 4095] at same
  have first := (List.cons.inj same).1
  cases even : decide (k % 2 = 0) <;> rw [even] at first <;> exact absurd first (by decide)

theorem flicker_compressed :
    ∃ compressed data, compressed_frames map_color_to_palette true flicker = some compressed ∧
      generate_header map_color_to_palette true flicker = some data ∧
      (data.nyancat_compressed_data.length < 2 ^ 16 →
      ShowsAnimation map_color_to_palette flicker data) ∧
      (ShowsAnimation map_color_to_palette flicker data →
      data.nyancat_compressed_data.length < 2 ^ 16 ∨
        ∃ k, 0 < k ∧ k < FRAME_COUNT ∧ frameStart compressed k < 2 ^ 16 ∧
        2 ^ 16 ≤ frameStart compressed (k + 1) ∧
          colors map_color_to_palette flicker k = colors map_color_to_palette flicker (k - 1)) :=
  animation_shown map_color_to_palette flicker flicker_animated

/-- The data has more than 90000 bytes, and frame 7 is shown as frame 6. -/
theorem flicker_fails :
    ¬ ∃ data, generate_header map_color_to_palette true flicker = some data ∧
      ShowsAnimation map_color_to_palette flicker data := by
  intro shown
  obtain ⟨data, header, shows⟩ := shown
  rw [header_animation flicker_animated, Option.some.injEq] at header
  subst header
  have size := flicker_start FRAME_COUNT (Nat.le_refl _)
  obtain ⟨k, later, inside, start, cut⟩ := cut_frame flicker_animated (by
    rw [headerOf, List.length_map, ← frameStart_length, animation_length]
    simp only [FRAME_COUNT] at size ⊢
    omega)
  exact flicker_changes (Nat.ne_of_gt later)
    (cut_repeats flicker_animated shows later inside start cut)

end Nyancat

end MyCpu
