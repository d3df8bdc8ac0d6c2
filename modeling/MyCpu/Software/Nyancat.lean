import MyCpu.Software.NyancatGenerator
import MyCpu.Software.VgaUpload

/-! # Decompression in the program

`nyancat.c` with `USE_PREPACKED_FRAMES` off: a frame is decompressed into
`frame_buffer`, on its own or on top of the frame before, and streamed to the VGA.
A byte array is a function here; a window of the compressed data is a list.  `main`
is that of all builds, with `USE_PREPACKED_FRAMES` on as well. -/

namespace MyCpu

namespace Nyancat

open RunLength VgaUpload

def FRAME_SIZE : ℕ := 64 * 64
def FRAME_COUNT : ℕ := 12

def OPCODE_MASK : Byte := 0xf0#8
def PARAM_MASK : Byte := 0x0f#8
def END_OF_FRAME : Byte := 0xff#8

def OP_SET_COLOR : Byte := 0x00#8
def OP_SKIP_1 : Byte := 0x10#8
def OP_REPEAT_1 : Byte := 0x20#8
def OP_SKIP_16 : Byte := 0x30#8
def OP_REPEAT_16 : Byte := 0x30#8
def OP_REPEAT_16_DELTA : Byte := 0x40#8
def OP_SKIP_64 : Byte := 0x50#8

/-! ## Opcodes -/

/-- The variables of a decompression loop; `pos` is `output_index` in the baseline form. -/
structure Decoder where
  frame_buffer : ℕ → Byte
  pos : ℕ
  current_color : Byte

namespace Decoder

/-- `for (i = 0; i < count && pos < FRAME_SIZE; i++) frame_buffer[pos++] = current_color` -/
def repeatColor (decoder : Decoder) : ℕ → Decoder
  | 0 => decoder
  | count + 1 =>
    if decoder.pos < FRAME_SIZE then
      repeatColor
        { decoder with
          frame_buffer := Function.update decoder.frame_buffer decoder.pos decoder.current_color
          pos := decoder.pos + 1 } count
    else decoder

variable (opcode : Byte) (decoder : Decoder)

/-- The parameter of an opcode, plus one. -/
def count : ℕ := (opcode &&& PARAM_MASK).toNat + 1

/-- An opcode of a baseline frame. -/
def baselineStep : Decoder :=
  if opcode &&& OPCODE_MASK = OP_SET_COLOR then
    { decoder with current_color := opcode &&& PARAM_MASK }
  else if opcode &&& OPCODE_MASK = OP_REPEAT_1 then decoder.repeatColor (count opcode)
  else if opcode &&& OPCODE_MASK = OP_REPEAT_16 then decoder.repeatColor (count opcode * 16)
  else decoder

/-- An opcode of a delta frame. -/
def deltaStep : Decoder :=
  if opcode &&& OPCODE_MASK = OP_SET_COLOR then
    { decoder with current_color := opcode &&& PARAM_MASK }
  else if opcode &&& OPCODE_MASK = OP_SKIP_1 then { decoder with pos := decoder.pos + count opcode }
  else if opcode &&& OPCODE_MASK = OP_REPEAT_1 then decoder.repeatColor (count opcode)
  else if opcode &&& OPCODE_MASK = OP_SKIP_16 then
    { decoder with pos := decoder.pos + count opcode * 16 }
  else if opcode &&& OPCODE_MASK = OP_REPEAT_16_DELTA then decoder.repeatColor (count opcode * 16)
  else if opcode &&& OPCODE_MASK = OP_SKIP_64 then
    { decoder with pos := decoder.pos + count opcode * 64 }
  else decoder

/-- `while (pos < FRAME_SIZE && p < data_end)` -/
def loop (step : Byte → Decoder → Decoder) : Decoder → List Byte → Decoder :=
  readLoop (fun decoder => decoder.pos < FRAME_SIZE) (fun opcode => opcode = END_OF_FRAME) step

/-- The pixels behind the last one are background. -/
def fillBackground : Decoder := repeatColor { decoder with current_color := 0#8 } FRAME_SIZE

end Decoder

/-- A baseline frame, decompressed over what the buffer holds. -/
def decompressBaseline (frame_buffer : ℕ → Byte) (window : List Byte) : ℕ → Byte :=
  (Decoder.loop Decoder.baselineStep ⟨frame_buffer, 0, 0#8⟩ window).fillBackground.frame_buffer

/-- A delta frame, decompressed over the frame before. -/
def decompressDelta (prev_frame_buffer : ℕ → Byte) (window : List Byte) : ℕ → Byte :=
  (Decoder.loop Decoder.deltaStep ⟨prev_frame_buffer, 0, 0#8⟩ window).frame_buffer

/-! ## Frames -/

section Frames

variable (data : NyancatData) (frame_index : ℕ)

def offset : BitVec 16 := data.nyancat_frame_offsets.getD frame_index 0#16

/-- The size of the array is converted to 16 bits as well. -/
def next_offset : BitVec 16 :=
  if frame_index < FRAME_COUNT - 1 then data.nyancat_frame_offsets.getD (frame_index + 1) 0#16
  else BitVec.ofNat 16 data.nyancat_compressed_data.length

/-- The bytes from `compressed_data` to `data_end`. -/
def window : List Byte :=
  (data.nyancat_compressed_data.drop (offset data frame_index).toNat).take
    ((next_offset data frame_index).toNat - (offset data frame_index).toNat)

/-- The static buffers. -/
structure Buffers where
  frame_buffer : ℕ → Byte
  prev_frame_buffer : ℕ → Byte

/-- `copy_buffer(dest, src, FRAME_SIZE)` -/
def copy_buffer (dest src : ℕ → Byte) : ℕ → Byte :=
  fun i => if i < FRAME_SIZE then src i else dest i

/-- The writes of an upload: the upload address and the packed pixels. -/
def uploadWrites (frame_buffer : ℕ → Byte) : List RegisterWrite :=
  (VgaReg.UPLOAD_ADDR, BitVec.ofNat 32 (frame_index % 16) <<< 16) :: streamWrites frame_buffer 512

def vga_upload_frame_delta (buffers : Buffers) : Buffers × List RegisterWrite :=
  let frame_buffer :=
    if frame_index = 0 then decompressBaseline buffers.frame_buffer (window data frame_index)
    else decompressDelta (copy_buffer buffers.frame_buffer buffers.prev_frame_buffer)
      (window data frame_index)
  (⟨frame_buffer, copy_buffer buffers.prev_frame_buffer frame_buffer⟩,
  uploadWrites frame_index frame_buffer)

def vga_upload_frame_rle (buffers : Buffers) : Buffers × List RegisterWrite :=
  let frame_buffer := decompressBaseline buffers.frame_buffer (window data frame_index)
  (⟨frame_buffer, buffers.prev_frame_buffer⟩, uploadWrites frame_index frame_buffer)

end Frames

/-- The buffers in front of frame `count`, after the frames before it, from zeroed buffers. -/
def buffersBefore (data : NyancatData) : ℕ → Buffers
  | 0 => ⟨fun _ => 0#8, fun _ => 0#8⟩
  | count + 1 => (vga_upload_frame_delta data count (buffersBefore data count)).1

/-! ## The program -/

def VGA_EXPECTED_ID : Word := 0x56474131#32

def PALETTE_SIZE : ℕ := 14
def PALETTE_MAX : ℕ := 16

def nyancat_palette : List Byte :=
  [0x01#8, 0x3f#8, 0x00#8, 0x3e#8, 0x3b#8, 0x36#8, 0x30#8, 0x38#8, 0x3c#8, 0x0c#8, 0x0b#8,
  0x17#8, 0x2a#8, 0x3a#8]

def vga_init_palette : List RegisterWrite :=
  (List.range PALETTE_SIZE).map
    (fun i => (paletteAddr i, (nyancat_palette.getD i 0#8 &&& 0x3f#8).zeroExtend 32)) ++
    (List.range' PALETTE_SIZE (PALETTE_MAX - PALETTE_SIZE)).map fun i => (paletteAddr i, 0x00#32)

/-- What a build has of the frames: their words, or the header of the generator. -/
inductive FrameData where
  | prepacked (nyancat_frames : ℕ → ℕ → Word)
  | compressed (data : NyancatData)

/-- `vga_upload_frame_delta`, or `vga_upload_frame_rle` without `NYANCAT_COMPRESSION_DELTA`. -/
def vga_upload_frame (source : FrameData) (frame_index : ℕ) (buffers : Buffers) :
    Buffers × List RegisterWrite :=
  match source with
  | .prepacked nyancat_frames =>
    (buffers, (VgaReg.UPLOAD_ADDR, BitVec.ofNat 32 (frame_index % 16) <<< 16) ::
      (List.range 512).map fun i => (VgaReg.STREAM_DATA, nyancat_frames frame_index i))
  | .compressed data =>
    if data.NYANCAT_COMPRESSION_DELTA then vga_upload_frame_delta data frame_index buffers
    else vga_upload_frame_rle data frame_index buffers

section Program

variable (source : FrameData)

/-- The buffers in front of frame `count`, whatever the build. -/
def buffersAt : ℕ → Buffers
  | 0 => ⟨fun _ => 0#8, fun _ => 0#8⟩
  | count + 1 => (vga_upload_frame source count (buffersAt count)).1

/-- The upload of a frame in the first loop of `main`. -/
def upload (frame : ℕ) : List RegisterWrite :=
  (vga_upload_frame source frame (buffersAt source frame)).2

/-- `frame` in the second loop, after so many rounds. -/
def frameAfter : ℕ → ℕ
  | 0 => 0
  | rounds + 1 => if frameAfter rounds + 1 < FRAME_COUNT then frameAfter rounds + 1 else 0

/-- The first rounds of the second loop. -/
def animate (rounds : ℕ) : List RegisterWrite :=
  (List.range rounds).map fun round =>
    (VgaReg.CTRL, BitVec.ofNat 32 (frameAfter round) <<< 4 ||| 0x01#32)

/-- The register writes of `main` up to a round of its second loop, if `id` is what the VGA
    answers. -/
def main (id : Word) (rounds : ℕ) : List RegisterWrite :=
  if id ≠ VGA_EXPECTED_ID then []
  else
    vga_init_palette ++ (VgaReg.CTRL, 0x01#32) ::
      ((List.range FRAME_COUNT).flatMap (upload source) ++ animate rounds)

end Program

end Nyancat

end MyCpu
