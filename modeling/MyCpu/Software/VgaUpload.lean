import MyCpu.Peripheral.Uart
import MyCpu.Peripheral.Vga

/-! # Uploading a frame

The writes with which a program shows a frame: the upload address, the packed
pixels as in `vga_upload_frame_delta` of `nyancat.c`, the palette, and the control
register.  `vga_pack8_pixels` is the function of `mmio.h`. -/

namespace MyCpu

namespace VgaUpload

/-- An offset in the peripheral and the word written there. -/
abbrev RegisterWrite := BitVec 8 × Word

/-- `VGA_ADDR_PALETTE(n)` -/
def paletteAddr (n : ℕ) : BitVec 8 := VgaReg.PALETTE_BASE + BitVec.ofNat 8 n <<< 2

/-- Eight bytes from `pixels` on, of which the low nibbles count. -/
def vga_pack8_pixels (pixels : ℕ → Byte) : Word :=
  (pixels 0 &&& 0xf#8).zeroExtend 32 ||| (pixels 1 &&& 0xf#8).zeroExtend 32 <<< 4 |||
    (pixels 2 &&& 0xf#8).zeroExtend 32 <<< 8 |||
    (pixels 3 &&& 0xf#8).zeroExtend 32 <<< 12 |||
    (pixels 4 &&& 0xf#8).zeroExtend 32 <<< 16 |||
    (pixels 5 &&& 0xf#8).zeroExtend 32 <<< 20 |||
    (pixels 6 &&& 0xf#8).zeroExtend 32 <<< 24 |||
    (pixels 7 &&& 0xf#8).zeroExtend 32 <<< 28

/-- The word with pixels `8 * i` to `8 * i + 7`. -/
def packed (frame_buffer : ℕ → Byte) (i : ℕ) : Word :=
  vga_pack8_pixels fun k => frame_buffer (8 * i + k)

variable (frame_index : ℕ) (frame_buffer : ℕ → Byte) (palette : BitVec 4 → Colour)

/-- The first `words` words of the frame. -/
def streamWrites (words : ℕ) : List RegisterWrite :=
  (List.range words).map fun i => (VgaReg.STREAM_DATA, packed frame_buffer i)

/-- `words` words from word `first` on. -/
def streamFrom (first words : ℕ) : List RegisterWrite :=
  (List.range' first words).map fun i => (VgaReg.STREAM_DATA, packed frame_buffer i)

theorem streamWrites_eq (words : ℕ) :
    streamWrites frame_buffer words = streamFrom frame_buffer 0 words := by
  rw [streamWrites, streamFrom, List.range_eq_range']

/-- The first `entries` entries of the palette. -/
def paletteWrites (entries : ℕ) : List RegisterWrite :=
  (List.range entries).map fun i => (paletteAddr i, (palette (BitVec.ofNat 4 i)).zeroExtend 32)

/-- Upload address, 512 words, palette, control register. -/
def showFrame : List RegisterWrite :=
  (VgaReg.UPLOAD_ADDR, BitVec.ofNat 32 frame_index <<< 16) :: streamWrites frame_buffer 512 ++
    paletteWrites palette 16 ++ [(VgaReg.CTRL, BitVec.ofNat 32 frame_index <<< 4 ||| 1#32)]

/-- The colour of a pixel of the frame. -/
def pixel (k : ℕ) : BitVec 4 := (frame_buffer k).setWidth 4

end VgaUpload

/-! ## The VGA as the writes see it -/

/-- What scan-out reads. -/
structure VgaStore where
  registers : VgaRegisters
  mem : Framebuffer

def VgaStore.write (store : VgaStore) (access : VgaUpload.RegisterWrite) : VgaStore where
  registers := store.registers.write access.1 access.2
  mem := store.mem.write (access.1 = VgaReg.STREAM_DATA) store.registers.fb_addr access.2

end MyCpu
