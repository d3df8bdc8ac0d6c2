import MyCpu.Bus.Axi4Lite

/-! # VGA

`VGA.scala` and `TrueDualPortRAM32.v`: the registers and the framebuffer in the
clock domain of the CPU, and the scan-out of the frame in the domain of the pixel
clock.  The two clocks tick independently: an edge of the model is an edge of one of
them, or of both at once, and every register takes the values from before the edge. -/

namespace MyCpu

abbrev Colour := BitVec 6

/-! ## Parameters -/

namespace VgaConstants

def H_ACTIVE : ℕ := 640
def H_FP : ℕ := 24
def H_SYNC : ℕ := 40
def H_BP : ℕ := 128
def H_TOTAL : ℕ := H_ACTIVE + H_FP + H_SYNC + H_BP

def V_ACTIVE : ℕ := 480
def V_FP : ℕ := 9
def V_SYNC : ℕ := 3
def V_BP : ℕ := 28
def V_TOTAL : ℕ := V_ACTIVE + V_FP + V_SYNC + V_BP

def FRAME_WIDTH : ℕ := 64
def FRAME_HEIGHT : ℕ := 64
def SCALE_FACTOR : ℕ := 6
def DISPLAY_WIDTH : ℕ := FRAME_WIDTH * SCALE_FACTOR
def DISPLAY_HEIGHT : ℕ := FRAME_HEIGHT * SCALE_FACTOR
def LEFT_MARGIN : ℕ := (H_ACTIVE - DISPLAY_WIDTH) / 2
def TOP_MARGIN : ℕ := (V_ACTIVE - DISPLAY_HEIGHT) / 2

def DIV_BY_SCALE_MULT : ℕ := 10923

def NUM_FRAMES : ℕ := 12
def PIXELS_PER_FRAME : ℕ := 4096
def WORDS_PER_FRAME : ℕ := PIXELS_PER_FRAME / 8
def TOTAL_WORDS : ℕ := NUM_FRAMES * WORDS_PER_FRAME

def VGA_ID : Word := 0x56474131#32

end VgaConstants

namespace VgaReg

def ID : BitVec 8 := 0x00#8
def STATUS : BitVec 8 := 0x04#8
def INTR_STATUS : BitVec 8 := 0x08#8
def UPLOAD_ADDR : BitVec 8 := 0x10#8
def STREAM_DATA : BitVec 8 := 0x14#8
def CTRL : BitVec 8 := 0x20#8
def PALETTE_BASE : BitVec 8 := 0x24#8
def PALETTE_END : BitVec 8 := 0x64#8

end VgaReg

open VgaConstants

/-! ## Framebuffer -/

/-- The array of `TrueDualPortRAM32`; the words behind `DEPTH` are never written. -/
abbrev Framebuffer := BitVec 13 → Word

/-- Port A at a clock edge. -/
def Framebuffer.write (mem : Framebuffer) (wea : Bool) (addra : BitVec 13) (dina : Word) :
    Framebuffer :=
  if wea && addra.toNat < TOTAL_WORDS then Function.update mem addra dina else mem

/-! ## The domain of the CPU -/

/-- The registers that the CPU writes. -/
structure VgaRegisters where
  ctrlReg : Word
  uploadAddrReg : Word
  paletteReg : BitVec 4 → Colour

namespace VgaRegisters

def reset : VgaRegisters := ⟨0#32, 0#32, fun _ => 0#6⟩

variable (registers : VgaRegisters)

def ctrl_en : Bool := registers.ctrlReg.getLsbD 0
def ctrl_blank : Bool := registers.ctrlReg.getLsbD 1
def ctrl_frame_sel : BitVec 4 := registers.ctrlReg.extractLsb' 4 4
def ctrl_vblank_ie : Bool := registers.ctrlReg.getLsbD 8

def upload_pix_addr : BitVec 16 := registers.uploadAddrReg.extractLsb' 0 16

/-- The frame index is clamped. -/
def upload_frame : BitVec 4 :=
  let upload_frame_raw := registers.uploadAddrReg.extractLsb' 16 4
  if NUM_FRAMES ≤ upload_frame_raw.toNat then BitVec.ofNat 4 (NUM_FRAMES - 1) else upload_frame_raw

/-- The sum has 14 bits and the port 13. -/
def fb_addr : BitVec 13 :=
  let word_offset := (registers.upload_pix_addr >>> 3).setWidth 14
  let frame_base := registers.upload_frame.zeroExtend 14 * BitVec.ofNat 14 WORDS_PER_FRAME
  (frame_base + word_offset).setWidth 13

/-- `uploadAddrReg` after a word: the next pixel address, back at 0 behind the frame. -/
def nextUploadAddr : Word :=
  let next_addr := registers.upload_pix_addr + 8#16
  let wrapped_addr := if PIXELS_PER_FRAME ≤ next_addr.toNat then 0#16 else next_addr
  (registers.upload_frame ++ wrapped_addr).zeroExtend 32

def addr_palette (addr : BitVec 8) : Bool := VgaReg.PALETTE_BASE ≤ addr && addr < VgaReg.PALETTE_END

def palette_idx (addr : BitVec 8) : BitVec 4 := ((addr - VgaReg.PALETTE_BASE) >>> 2).setWidth 4

/-- A write; `addr` holds the offset in the peripheral. -/
def write (addr : BitVec 8) (write_data : Word) : VgaRegisters :=
  if addr = VgaReg.CTRL then
    let requested_frame := write_data.extractLsb' 4 4
    let display_enable := write_data.extractLsb' 0 1
    if requested_frame.toNat < 12 then { registers with ctrlReg := write_data }
    else
      { registers with
        ctrlReg := registers.ctrlReg.extractLsb' 8 24 ++ registers.ctrlReg.extractLsb' 4 4 ++
          0#3 ++ display_enable }
  else if addr = VgaReg.INTR_STATUS then registers
  else if addr = VgaReg.UPLOAD_ADDR then { registers with uploadAddrReg := write_data }
  else if addr = VgaReg.STREAM_DATA then
    { registers with uploadAddrReg := registers.nextUploadAddr }
  else if addr_palette addr then
    { registers with paletteReg := Function.update registers.paletteReg (palette_idx addr) (write_data.setWidth 6) }
  else registers

end VgaRegisters

/-- What comes from the pixel domain. -/
structure VgaStatusWires where
  in_vblank : Bool
  curr_frame : BitVec 4
  timing_err_flag : Bool
deriving DecidableEq, Repr

structure VgaCpuSide where
  slave : AXI4LiteSlave 8
  registers : VgaRegisters
  intrStatusReg : Word
  vblank_sync1 : Bool
  vblank_synced : Bool
  vblank_prev : Bool
  curr_frame_sync1 : BitVec 4
  curr_frame_synced : BitVec 4
  timing_err_sync1 : Bool
  timing_err_sync2 : Bool
  timing_err_sync3 : Bool
  timing_error_count : BitVec 16

namespace VgaCpuSide

variable (cpu : VgaCpuSide)

def addr : BitVec 8 := cpu.slave.addr &&& 0xff#8

def vblank_rising_edge : Bool := cpu.vblank_synced && !cpu.vblank_prev

def intr : Bool := cpu.intrStatusReg ≠ 0#32 && cpu.registers.ctrl_vblank_ie

def read_data_prepared : Word :=
  if cpu.addr = VgaReg.ID then VGA_ID
  else if cpu.addr = VgaReg.CTRL then cpu.registers.ctrlReg
  else if cpu.addr = VgaReg.STATUS then
    cpu.timing_error_count ++ 0#8 ++ cpu.curr_frame_synced ++ 0#1 ++ 0#1 ++
      BitVec.ofBool cpu.vblank_synced ++
      BitVec.ofBool cpu.vblank_synced
  else if cpu.addr = VgaReg.INTR_STATUS then cpu.intrStatusReg
  else if cpu.addr = VgaReg.UPLOAD_ADDR then cpu.registers.uploadAddrReg
  else if VgaRegisters.addr_palette cpu.addr then
    (cpu.registers.paletteReg (VgaRegisters.palette_idx cpu.addr)).zeroExtend 32
  else 0#32

/-- A read is answered in the cycle in which it is seen. -/
def device : AXI4LiteDevice := ⟨cpu.read_data_prepared, cpu.slave.read⟩

def fb_write_en : Bool := cpu.slave.write && cpu.addr = VgaReg.STREAM_DATA

/-- The write to `INTR_STATUS` is the later assignment and wins. -/
def nextIntrStatus : Word :=
  if cpu.slave.write && cpu.addr = VgaReg.INTR_STATUS then
    cpu.intrStatusReg &&& ~~~cpu.slave.writeData
  else if cpu.vblank_rising_edge && cpu.registers.ctrl_vblank_ie then 1#32
  else cpu.intrStatusReg

def step (channels : AXI4LiteMasterChannels 8) (wires : VgaStatusWires) : VgaCpuSide where
  slave := cpu.slave.step channels cpu.device
  registers := if cpu.slave.write then
    cpu.registers.write cpu.addr cpu.slave.writeData else cpu.registers
  intrStatusReg := cpu.nextIntrStatus
  vblank_sync1 := wires.in_vblank
  vblank_synced := cpu.vblank_sync1
  vblank_prev := cpu.vblank_synced
  curr_frame_sync1 := wires.curr_frame
  curr_frame_synced := cpu.curr_frame_sync1
  timing_err_sync1 := wires.timing_err_flag
  timing_err_sync2 := cpu.timing_err_sync1
  timing_err_sync3 := cpu.timing_err_sync2
  timing_error_count :=
    if cpu.timing_err_sync2 ≠ cpu.timing_err_sync3 && cpu.timing_error_count < 0xffff#16 then
      cpu.timing_error_count + 1#16
    else cpu.timing_error_count

end VgaCpuSide

/-! ## The domain of the pixel clock -/

namespace VgaScan

def h_sync_pulse (h_count : BitVec 10) : Bool :=
  H_ACTIVE + H_FP ≤ h_count.toNat && h_count.toNat < H_ACTIVE + H_FP + H_SYNC

def v_sync_pulse (v_count : BitVec 10) : Bool :=
  V_ACTIVE + V_FP ≤ v_count.toNat && v_count.toNat < V_ACTIVE + V_FP + V_SYNC

def h_active (h_count : BitVec 10) : Bool := h_count.toNat < H_ACTIVE

def v_active (v_count : BitVec 10) : Bool := v_count.toNat < V_ACTIVE

variable (x_px y_px : BitVec 10)

def in_display_x : Bool := LEFT_MARGIN ≤ x_px.toNat && x_px.toNat < LEFT_MARGIN + DISPLAY_WIDTH

def in_display_y : Bool := TOP_MARGIN ≤ y_px.toNat && y_px.toNat < TOP_MARGIN + DISPLAY_HEIGHT

def in_display : Bool := in_display_x x_px && in_display_y y_px

def rel_x : BitVec 10 :=
  if LEFT_MARGIN ≤ x_px.toNat then x_px - BitVec.ofNat 10 LEFT_MARGIN else 0#10

def rel_y : BitVec 10 := if TOP_MARGIN ≤ y_px.toNat then y_px - BitVec.ofNat 10 TOP_MARGIN else 0#10

/-- Division by the scale factor, by a multiplication and a shift; the product has 24 bits. -/
def div_by_scale (rel : BitVec 10) : BitVec 8 :=
  (rel.zeroExtend 24 * BitVec.ofNat 24 DIV_BY_SCALE_MULT).extractLsb' 16 8

def frame_x : BitVec 6 :=
  let frame_x_div := div_by_scale (rel_x x_px)
  if FRAME_WIDTH ≤ frame_x_div.toNat then BitVec.ofNat 6 (FRAME_WIDTH - 1)
    else frame_x_div.extractLsb' 0 6

def frame_y : BitVec 6 :=
  let frame_y_div := div_by_scale (rel_y y_px)
  if FRAME_HEIGHT ≤ frame_y_div.toNat then BitVec.ofNat 6 (FRAME_HEIGHT - 1)
    else frame_y_div.extractLsb' 0 6

def pixel_idx : BitVec 13 :=
  (frame_y y_px).zeroExtend 13 * BitVec.ofNat 13 FRAME_WIDTH + (frame_x x_px).zeroExtend 13

def pixel_in_word : BitVec 3 := (pixel_idx x_px y_px).extractLsb' 0 3

/-- The sum has 14 bits and the port 13. -/
def fb_read_addr (curr_frame : BitVec 4) : BitVec 13 :=
  let word_offset := (pixel_idx x_px y_px >>> 3).zeroExtend 14
  let frame_base := curr_frame.zeroExtend 14 * BitVec.ofNat 14 WORDS_PER_FRAME
  (frame_base + word_offset).setWidth 13

/-- The lookup of one of the eight nibbles. -/
def pixel_4bit (fb_word : Word) (pixel_in_word_d1 : BitVec 3) : BitVec 4 :=
  fb_word.extractLsb' (4 * pixel_in_word_d1.toNat) 4

end VgaScan

open VgaScan

structure VgaPixelSide where
  h_count : BitVec 10
  v_count : BitVec 10
  frame_count : BitVec 2
  hsync_d1 : Bool
  hsync : Bool
  vsync_d1 : Bool
  vsync : Bool
  x_px : BitVec 10
  y_px : BitVec 10
  curr_frame_sync1 : BitVec 4
  curr_frame : BitVec 4
  display_enabled_sync1 : Bool
  display_enabled : Bool
  blanking_sync1 : Bool
  blanking : Bool
  palette_sync1 : BitVec 4 → Colour
  palette_sync : BitVec 4 → Colour
  in_display_d1 : Bool
  h_active_d1 : Bool
  v_active_d1 : Bool
  h_active_d2 : Bool
  v_active_d2 : Bool
  pixel_in_word_d1 : BitVec 3
  x_px_d1 : BitVec 10
  y_px_d1 : BitVec 10
  timing_err_toggle : Bool
  /-- The output register of port B. -/
  doutb : Word

namespace VgaPixelSide

variable (pixel : VgaPixelSide)

def lastColumn : Bool := pixel.h_count.toNat = H_TOTAL - 1
def lastLine : Bool := pixel.v_count.toNat = V_TOTAL - 1

def first_frame : Bool := pixel.frame_count = 0#2

def timing_anomaly : Bool := H_TOTAL ≤ pixel.h_count.toNat || V_TOTAL ≤ pixel.v_count.toNat

def wires : VgaStatusWires where
  in_vblank := V_ACTIVE ≤ pixel.v_count.toNat
  curr_frame := pixel.curr_frame
  timing_err_flag := pixel.timing_err_toggle

def step (registers : VgaRegisters) (mem : Framebuffer) : VgaPixelSide where
  h_count := if pixel.lastColumn then 0#10 else pixel.h_count + 1#10
  v_count :=
    if pixel.lastColumn then if pixel.lastLine then 0#10
      else pixel.v_count + 1#10 else pixel.v_count
  frame_count :=
    if pixel.lastColumn && pixel.lastLine && pixel.frame_count < 2#2 then pixel.frame_count + 1#2
    else pixel.frame_count
  hsync_d1 := !h_sync_pulse pixel.h_count
  hsync := pixel.hsync_d1
  vsync_d1 := !v_sync_pulse pixel.v_count
  vsync := pixel.vsync_d1
  x_px := pixel.h_count
  y_px := pixel.v_count
  curr_frame_sync1 := registers.ctrl_frame_sel
  curr_frame := pixel.curr_frame_sync1
  display_enabled_sync1 := registers.ctrl_en
  display_enabled := pixel.display_enabled_sync1
  blanking_sync1 := registers.ctrl_blank
  blanking := pixel.blanking_sync1
  palette_sync1 := registers.paletteReg
  palette_sync := pixel.palette_sync1
  in_display_d1 := in_display pixel.x_px pixel.y_px
  h_active_d1 := h_active pixel.h_count
  v_active_d1 := v_active pixel.v_count
  h_active_d2 := pixel.h_active_d1
  v_active_d2 := pixel.v_active_d1
  pixel_in_word_d1 := pixel_in_word pixel.x_px pixel.y_px
  x_px_d1 := pixel.x_px
  y_px_d1 := pixel.y_px
  timing_err_toggle := if pixel.timing_anomaly then !pixel.timing_err_toggle
    else pixel.timing_err_toggle
  doutb := mem (fb_read_addr pixel.x_px pixel.y_px pixel.curr_frame)

def output_color : Colour :=
  if pixel.blanking then 0#6
  else if pixel.display_enabled && pixel.in_display_d1 then
    pixel.palette_sync (pixel_4bit pixel.doutb pixel.pixel_in_word_d1)
  else 0x01#6

def activevideo : Bool := pixel.h_active_d2 && pixel.v_active_d2

def rrggbb : Colour := if pixel.activevideo && !pixel.first_frame then pixel.output_color else 0#6

def x_pos : BitVec 10 := pixel.x_px_d1

def y_pos : BitVec 10 := pixel.y_px_d1

end VgaPixelSide

/-! ## The peripheral -/

structure Vga where
  cpu : VgaCpuSide
  mem : Framebuffer
  pixel : VgaPixelSide

/-- The clocks that tick, with the bus if it is the clock of the CPU. -/
structure VgaEdge where
  sysClk : Option (AXI4LiteMasterChannels 8)
  pixClock : Bool

namespace Vga

variable (vga : Vga)

def step (edge : VgaEdge) : Vga where
  cpu := match edge.sysClk with
    | some channels => vga.cpu.step channels vga.pixel.wires
    | none => vga.cpu
  mem := match edge.sysClk with
    | some _ => vga.mem.write vga.cpu.fb_write_en vga.cpu.registers.fb_addr vga.cpu.slave.writeData
    | none => vga.mem
  pixel := if edge.pixClock then vga.pixel.step vga.cpu.registers vga.mem else vga.pixel

/-- A state after reset: registers without a reset value and without an initial value may hold
    anything. -/
structure Reset : Prop where
  slave : vga.cpu.slave = AXI4LiteSlave.reset 8
  registers : vga.cpu.registers = VgaRegisters.reset
  intrStatusReg : vga.cpu.intrStatusReg = 0#32
  timing_error_count : vga.cpu.timing_error_count = 0#16
  mem : vga.mem = fun _ => 0#32
  h_count : vga.pixel.h_count = 0#10
  v_count : vga.pixel.v_count = 0#10
  frame_count : vga.pixel.frame_count = 0#2
  timing_err_toggle : vga.pixel.timing_err_toggle = false

end Vga

end MyCpu
