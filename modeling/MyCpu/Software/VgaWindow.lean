import MyCpu.Peripheral.Vga

/-! # The window of the simulator

`VGADisplay` of `vga_display.h`, and what the loop of `sim.cpp` does with the outputs of the VGA at
each rising edge of the pixel clock.  The window is opened by the first visible colour other than
black and the default blue, and it is rendered when the vertical synchronisation ends.  The calls of
SDL always succeed here. -/

namespace MyCpu

/-- The ARGB words of a picture, by line and column. -/
abbrev Picture := ℕ × ℕ → BitVec 32

structure VgaWindow where
  vga_initialized : Bool
  framebuffer : Picture
  /-- What the last `render` has put on the screen. -/
  rendered : Option Picture
  prev_vsync : Bool
  first_vsync : Bool

namespace VgaWindow

def VGA_WIDTH : ℕ := 640

def VGA_HEIGHT : ℕ := 480

/-- Before the loop; the framebuffer is that of the constructor, which runs when the window is
    opened. -/
def start : VgaWindow where
  vga_initialized := false
  framebuffer := fun _ => 0xff000000#32
  rendered := none
  prev_vsync := false
  first_vsync := true

/-- Two bits of a colour as eight bits. -/
def scale (channel : BitVec 8) : BitVec 8 := .ofNat 8 (channel.toNat * 255 / 3)

def rrggbb_to_argb (rrggbb : Colour) : BitVec 32 :=
  let rr := rrggbb.zeroExtend 8 >>> 4 &&& 0x3#8
  let gg := rrggbb.zeroExtend 8 >>> 2 &&& 0x3#8
  let bb := rrggbb.zeroExtend 8 &&& 0x3#8
  0xff000000#32 ||| (scale rr).zeroExtend 32 <<< 16 ||| (scale gg).zeroExtend 32 <<< 8 |||
    (scale bb).zeroExtend 32

variable (window : VgaWindow)

def update_pixel (x y : ℕ) (rrggbb : Colour) (active : Bool) : VgaWindow :=
  if active && x < VGA_WIDTH && y < VGA_HEIGHT then
    { window with framebuffer := Function.update window.framebuffer (y, x) (rrggbb_to_argb rrggbb) }
  else window

def render : VgaWindow := { window with rendered := some window.framebuffer }

/-- The end of a synchronisation pulse; the first one is not rendered. -/
def vsync (vga_vsync : Bool) : VgaWindow :=
  if !window.prev_vsync && vga_vsync then
    if window.first_vsync then { window with first_vsync := false } else window.render
  else window

/-- The outputs of the VGA before a rising edge of the pixel clock. -/
def sample (pixel : VgaPixelSide) : VgaWindow :=
  let opened :=
    if pixel.activevideo && 1#6 < pixel.rrggbb && !window.vga_initialized then
      { window with vga_initialized := true }
    else window
  if opened.vga_initialized then
    { (opened.update_pixel pixel.x_pos.toNat pixel.y_pos.toNat pixel.rrggbb pixel.activevideo).vsync pixel.vsync with
      prev_vsync := pixel.vsync }
  else opened

/-- An edge as the loop sees it. -/
def observe (window : VgaWindow) (vga : Vga) (edge : VgaEdge) : VgaWindow :=
  if edge.pixClock then window.sample vga.pixel else window

end VgaWindow

end MyCpu
