import MyCpu.Lib.RunLength
import MyCpu.Peripheral.Uart

/-! # The generator of the animation data

`gen-nyancat-data.py`: a frame is a list of characters, which stand for colours, and
is compressed to opcodes, on its own or relative to the frame before.  Python's
integers are natural numbers here; `none` is `sys.exit(1)`. -/

namespace MyCpu

/-- What `nyancat-data.h` declares: the C compiler converts the numbers to the declared types. -/
structure NyancatData where
  NYANCAT_COMPRESSION_DELTA : Bool
  /-- `uint16_t nyancat_frame_offsets[12]` -/
  nyancat_frame_offsets : List (BitVec 16)
  /-- `uint8_t nyancat_compressed_data[]` -/
  nyancat_compressed_data : List Byte
deriving DecidableEq, Repr

namespace NyancatGenerator

open RunLength

/-! ## Colours -/

def color_map : List (Char × ℕ) :=
  [(',', 0), ('.', 1),
    -- the apostrophe
    (Char.ofNat 39, 2),
    ('@', 3), ('$', 5), ('-', 6), ('>', 6), ('&', 7), ('+', 8), ('#', 9), ('=', 10),
    (';', 11), ('*', 12), ('%', 4)]

def map_color_to_palette (char : Char) : ℕ := (color_map.lookup char).getD 0

/-! ## Run lengths -/

/-- The loops that encode a run of pixels, with the opcode for sixteens: `chunks` is never 0. -/
def runOpcodes (long remaining : ℕ) : List ℕ :=
  if remaining = 0 then []
  else if remaining ≤ 16 then [0x20 ||| (remaining - 1)]
  else if remaining ≤ 256 then
    (long ||| (min (remaining / 16) 16 - 1)) :: runOpcodes long
      (remaining - min (remaining / 16) 16 * 16)
  else (long ||| 0x0f) :: runOpcodes long (remaining - 256)
termination_by remaining
decreasing_by all_goals omega

/-- The loop that encodes unchanged pixels. -/
def skipOpcodes (remaining_skip : ℕ) : List ℕ :=
  if remaining_skip = 0 then []
  else if remaining_skip ≤ 16 then [0x10 ||| (remaining_skip - 1)]
  else if remaining_skip ≤ 256 then
    (0x30 ||| (min (remaining_skip / 16) 16 - 1)) ::
      skipOpcodes (remaining_skip - min (remaining_skip / 16) 16 * 16)
  else if remaining_skip ≤ 1024 then
    (0x50 ||| (min (remaining_skip / 64) 16 - 1)) ::
      skipOpcodes (remaining_skip - min (remaining_skip / 64) 16 * 64)
  else (0x50 ||| 0x0f) :: skipOpcodes (remaining_skip - 1024)
termination_by remaining_skip
decreasing_by all_goals omega

/-- `SetColor`, if the colour differs from the current one; before the first opcode that is no
    colour. -/
def colorOpcodes (current_color : Option ℕ) (color : ℕ) : List ℕ :=
  if some color ≠ current_color then [0x00 ||| color] else []

/-! ## Frames -/

section Compression

variable {Pixel : Type} (map_color : Pixel → ℕ)

/-- The outer loop of `compress_frame_opcode_rle`, on the pixels that are left. -/
def rleOpcodes (current_color : Option ℕ) : List Pixel → List ℕ
  | [] => []
  | pixel :: rest =>
    let color := map_color pixel
    let same := rest.takeWhile fun other => map_color other = color
    colorOpcodes current_color color ++ runOpcodes 0x30 (1 + same.length) ++
      rleOpcodes (some color) (rest.dropWhile fun other => map_color other = color)
termination_by pixels => pixels.length
decreasing_by exact Nat.lt_succ_of_le (List.length_dropWhile_le _ _)

def compress_frame_opcode_rle (pixels : List Pixel) : Option (List ℕ) :=
  if pixels.length ≠ 4096 then none else some (rleOpcodes map_color none pixels ++ [0xff])

/-- The pair of an old and a new colour is a pixel that has not changed. -/
def unchanged (pair : ℕ × ℕ) : Bool := pair.1 = pair.2

/-- The pixel has changed to this colour. -/
def changedTo (color : ℕ) (pair : ℕ × ℕ) : Bool := pair.2 = color && pair.1 ≠ pair.2

/-- The outer loop of `compress_delta_frame`, on the old and new colours that are left. -/
def deltaOpcodes (current_color : Option ℕ) (colors : List (ℕ × ℕ)) : List ℕ :=
  skipOpcodes (colors.takeWhile unchanged).length ++
    match _left : colors.dropWhile unchanged with
    | [] => []
    | (_, color) :: rest =>
      colorOpcodes current_color color ++ runOpcodes 0x40
        (1 + (rest.takeWhile (changedTo color)).length) ++
        deltaOpcodes (some color) (rest.dropWhile (changedTo color))
termination_by colors.length
decreasing_by
  have shorter := List.length_dropWhile_le unchanged colors
  rw [_left, List.length_cons] at shorter
  exact Nat.lt_of_le_of_lt (List.length_dropWhile_le _ _) shorter

def compress_delta_frame (prev_pixels curr_pixels : List Pixel) : Option (List ℕ) :=
  if prev_pixels.length ≠ 4096 ∨ curr_pixels.length ≠ 4096 then none
  else some (deltaOpcodes none ((prev_pixels.map map_color).zip (curr_pixels.map map_color)) ++
    [0xff])

/-! ## Header -/

/-- The first loop of `generate_header`, for the frames 0 to 11. -/
def compressed_frames (use_delta : Bool) (frames : ℕ → List Pixel) : Option (List (List ℕ)) :=
  (List.range 12).mapM fun i =>
    if use_delta && i ≠ 0 then compress_delta_frame map_color (frames (i - 1)) (frames i)
    else compress_frame_opcode_rle map_color (frames i)

/-- The start of each frame in the data. -/
def offsets (compressed : List (List ℕ)) : List ℕ :=
  (compressed.dropLast.map List.length).scanl (· + ·) 0

def generate_header (use_delta : Bool) (frames : ℕ → List Pixel) : Option NyancatData :=
  (compressed_frames map_color use_delta frames).map fun compressed =>
    { NYANCAT_COMPRESSION_DELTA := use_delta
      nyancat_frame_offsets := (offsets compressed).map (BitVec.ofNat 16)
      nyancat_compressed_data := compressed.flatten.map (BitVec.ofNat 8) }

end Compression

/-! ## Decompression -/

structure Baseline where
  decompressed : List ℕ
  current_color : ℕ
deriving DecidableEq, Repr

/-- The branches of `decompress_baseline`. -/
def Baseline.step (opcode : ℕ) (state : Baseline) : Baseline :=
  if opcode &&& 0xf0 = 0x00 then { state with current_color := opcode &&& 0x0f }
  else if opcode &&& 0xf0 = 0x20 then
    { state with decompressed := state.decompressed ++ List.replicate ((opcode &&& 0x0f) + 1) state.current_color }
  else if opcode &&& 0xf0 = 0x30 then
    { state with
      decompressed :=
        state.decompressed ++ List.replicate (((opcode &&& 0x0f) + 1) * 16) state.current_color }
  else state

def decompress_baseline (opcodes : List ℕ) : List ℕ :=
  (readLoop (fun _ => true) (fun opcode => opcode = 0xff) Baseline.step
    ⟨[], 0⟩ opcodes).decompressed

structure Delta where
  decompressed : List ℕ
  pos : ℕ
  current_color : ℕ
deriving DecidableEq, Repr

/-- `for _ in range(count): if pos < 4096: decompressed[pos] = current_color; pos += 1` -/
def Delta.repeatChanged (state : Delta) : ℕ → Delta
  | 0 => state
  | count + 1 =>
    if state.pos < 4096 then
      repeatChanged { state with
        decompressed := state.decompressed.set state.pos state.current_color, pos := state.pos + 1 }
        count
    else repeatChanged state count

/-- The branches of `decompress_delta`. -/
def Delta.step (opcode : ℕ) (state : Delta) : Delta :=
  if opcode &&& 0xf0 = 0x00 then { state with current_color := opcode &&& 0x0f }
  else if opcode &&& 0xf0 = 0x10 then { state with pos := state.pos + ((opcode &&& 0x0f) + 1) }
  else if opcode &&& 0xf0 = 0x20 then state.repeatChanged ((opcode &&& 0x0f) + 1)
  else if opcode &&& 0xf0 = 0x30 then { state with pos := state.pos + ((opcode &&& 0x0f) + 1) * 16 }
  else if opcode &&& 0xf0 = 0x40 then state.repeatChanged (((opcode &&& 0x0f) + 1) * 16)
  else if opcode &&& 0xf0 = 0x50 then { state with pos := state.pos + ((opcode &&& 0x0f) + 1) * 64 }
  else state

def decompress_delta (prev_frame opcodes : List ℕ) : List ℕ :=
  (readLoop (fun state : Delta => state.pos < 4096)
    (fun opcode => opcode = 0xff) Delta.step ⟨prev_frame, 0, 0⟩
    opcodes).decompressed

end NyancatGenerator

end MyCpu
