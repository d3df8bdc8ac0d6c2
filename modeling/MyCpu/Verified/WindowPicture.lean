import MyCpu.Software.VgaWindow
import MyCpu.Verified.VgaDisplay

/-! # From the upload to the window

The loop looks at the VGA once in every cycle of the pixel clock, so that a scan of the screen
passes every position once.  When a frame has been uploaded and stays, the window is opened within
one scan, its framebuffer is the frame within another, and it has been rendered after two more. -/

namespace MyCpu

open VgaConstants VgaScan VgaUpload

/-! ## What the loop sees -/

/-- The vertical synchronisation, which is low during the pulse, for a position of the scan. -/
def syncAt (s : ℕ) : Bool := !decide (489 ≤ s / H_TOTAL % V_TOTAL ∧ s / H_TOTAL % V_TOTAL < 492)

/-- The synchronisation after `t` edges of the pixel clock; it has two registers, like the
    positions. -/
structure Synced (t : ℕ) (pixel : VgaPixelSide) : Prop where
  vsync_d1 : ∀ s, t = s + 1 → pixel.vsync_d1 = syncAt s
  vsync : ∀ s, t = s + 2 → pixel.vsync = syncAt s

theorem synced_step {t : ℕ} {pixel : VgaPixelSide} (synced : Synced t pixel)
    (scanned : Scanned t pixel)
    (registers : VgaRegisters) (mem : Framebuffer) : Synced (t + 1) (pixel.step registers mem) := by
  constructor
  · intro s now
    obtain rfl : t = s := by omega
    have pulse : v_sync_pulse pixel.v_count =
        decide (489 ≤ t / H_TOTAL % V_TOTAL ∧ t / H_TOTAL % V_TOTAL < 492) := by
      rw [v_sync_pulse, scanned.v_count, Bool.decide_and]
      rfl
    exact congrArg Bool.not pulse
  · intro s now
    exact synced.vsync_d1 s (by omega)

namespace Vga

variable {start : Vga} {edges : ℕ → VgaEdge}

theorem synced_run (reset : start.Reset) (n : ℕ) :
    Synced (pixelEdges edges n) (stateAt start edges n).pixel := by
  induction n with
  | zero => exact ⟨fun s none => absurd none (Nat.succ_ne_zero s).symm,
      fun s none => absurd none (by simp [pixelEdges])⟩
  | succ n inductionHypothesis =>
    have same : (stateAt start edges (n + 1)).pixel = if (edges n).pixClock then
        (stateAt start edges n).pixel.step (stateAt start edges n).cpu.registers
          (stateAt start edges n).mem
        else (stateAt start edges n).pixel := rfl
    rw [same, pixelEdges]
    cases (edges n).pixClock with
    | false => exact inductionHypothesis
    | true => exact synced_step inductionHypothesis (scanned_run reset n) _ _

/-- The number of pixel cycles of a scan. -/
def scanCycles : ℕ := H_TOTAL * V_TOTAL

/-- The outputs for position `s` of the scan while a frame is shown. -/
structure Sampled (frame_buffer : ℕ → Byte) (palette : BitVec 4 → Colour) (s : ℕ)
    (pixel : VgaPixelSide) : Prop where
  column : pixel.x_pos.toNat = s % H_TOTAL
  line : pixel.y_pos.toNat = s / H_TOTAL % V_TOTAL
  active : pixel.activevideo = decide (s % H_TOTAL < H_ACTIVE ∧ s / H_TOTAL % V_TOTAL < V_ACTIVE)
  colour : pixel.activevideo = true →
    pixel.rrggbb = shownColour frame_buffer palette (s % H_TOTAL) (s / H_TOTAL % V_TOTAL)
  vsync : pixel.vsync = syncAt s

theorem sampled_run {frame_index : ℕ} {frame_buffer : ℕ → Byte}
    {palette : BitVec 4 → Colour} (reset : start.Reset)
    (valid : frame_index < NUM_FRAMES) {n k : ℕ} (later : n ≤ k)
    (uploaded : ∀ j, n ≤ j → j < k →
      Uploaded frame_index frame_buffer palette (stateAt start edges j).store)
    (synchronised : pixelEdges edges n + 3 ≤ pixelEdges edges k)
    (scannedOut : scanCycles ≤ pixelEdges edges k) :
    Sampled frame_buffer palette (pixelEdges edges k - 2) (stateAt start edges k).pixel := by
  have scanned := @scanned_run start edges reset k
  obtain ⟨s, two⟩ : ∃ s, pixelEdges edges k = s + 2 := ⟨pixelEdges edges k - 2, by omega⟩
  obtain ⟨column, across⟩ := scanned.x_pos s two
  obtain ⟨line, down⟩ := scanned.y_pos s two
  have active : (stateAt start edges k).pixel.activevideo =
      decide (s % H_TOTAL < H_ACTIVE ∧ s / H_TOTAL % V_TOTAL < V_ACTIVE) := by
    rw [VgaPixelSide.activevideo, across, down, h_active, v_active, column, line, Bool.decide_and]
  have notFirst : (stateAt start edges k).pixel.first_frame = false := by
    have size : scanCycles = 432640 := rfl
    have width : H_TOTAL = 832 := rfl
    have height : V_TOTAL = 520 := rfl
    have count := scanned.frame_count
    rw [width, height] at count
    refine decide_eq_false fun none => ?_
    rw [none, BitVec.toNat_ofNat] at count
    omega
  have settled := settled_run valid later uploaded
  rw [two, Nat.add_sub_cancel]
  refine ⟨column, line, active, fun visible => ?_, (synced_run reset k).vsync s two⟩
  rw [VgaPixelSide.rrggbb, visible, notFirst, ← column, ← line]
  exact output_color_settled settled (by omega)

end Vga

/-! ## What the loop does with it -/

namespace VgaWindow

variable {window : VgaWindow} {frame_buffer : ℕ → Byte} {palette : BitVec 4 → Colour} {s : ℕ}
    {pixel : VgaPixelSide}

/-- The colour of a position in the window. -/
def screen (frame_buffer : ℕ → Byte) (palette : BitVec 4 → Colour) (x y : ℕ) : BitVec 32 :=
  rrggbb_to_argb (shownColour frame_buffer palette x y)

/-- A picture is the frame. -/
def IsFrame (frame_buffer : ℕ → Byte) (palette : BitVec 4 → Colour) (picture : Picture) : Prop :=
  ∀ x < VGA_WIDTH, ∀ y < VGA_HEIGHT, picture (y, x) = screen frame_buffer palette x y

/-- What is on the screen is the frame. -/
def Presents (frame_buffer : ℕ → Byte) (palette : BitVec 4 → Colour) (window : VgaWindow) : Prop :=
  ∃ picture, window.rendered = some picture ∧ IsFrame frame_buffer palette picture

theorem vsync_fields (window : VgaWindow) (vga_vsync : Bool) :
    (window.vsync vga_vsync).vga_initialized = window.vga_initialized ∧
      (window.vsync vga_vsync).framebuffer = window.framebuffer ∧
      (window.first_vsync = false → (window.vsync vga_vsync).first_vsync = false) := by
  rw [vsync]
  split_ifs <;> simp [render]

theorem update_fields (window : VgaWindow) (x y : ℕ) (rrggbb : Colour) (active : Bool) :
    (window.update_pixel x y rrggbb active).vga_initialized = window.vga_initialized ∧
      (window.update_pixel x y rrggbb active).rendered = window.rendered ∧
      (window.update_pixel x y rrggbb active).prev_vsync = window.prev_vsync ∧
      (window.update_pixel x y rrggbb active).first_vsync = window.first_vsync := by
  rw [update_pixel]
  split_ifs <;> simp

/-- What a sample does to a window that is open. -/
theorem sample_open (opened : window.vga_initialized = true) (pixel : VgaPixelSide) :
    window.sample pixel =
      { (window.update_pixel pixel.x_pos.toNat pixel.y_pos.toNat pixel.rrggbb pixel.activevideo).vsync pixel.vsync with
        prev_vsync := pixel.vsync } := by
  simp [sample, opened]

theorem sample_stays_open (opened : window.vga_initialized = true) (pixel : VgaPixelSide) :
    (window.sample pixel).vga_initialized = true := by
  rw [sample_open opened]
  simp only
  rw [(vsync_fields _ _).1, (update_fields _ _ _ _ _).1, opened]

/-- A visible colour other than black and the default one opens the window. -/
theorem sample_opens (visible : pixel.activevideo = true) (bright : 1#6 < pixel.rrggbb) :
    (window.sample pixel).vga_initialized = true := by
  cases opened : window.vga_initialized with
  | true => exact sample_stays_open opened pixel
  | false =>
    simp only [sample, visible, bright, opened, decide_true, Bool.not_false, Bool.and_self, if_true]
    rw [(vsync_fields _ _).1, (update_fields _ _ _ _ _).1]

theorem sample_framebuffer (opened : window.vga_initialized = true) (pixel : VgaPixelSide) :
    (window.sample pixel).framebuffer =
      (window.update_pixel pixel.x_pos.toNat pixel.y_pos.toNat pixel.rrggbb pixel.activevideo).framebuffer := by
  rw [sample_open opened]
  simp only
  rw [(vsync_fields _ _).2.1]

section Sampled

variable (sampled : Vga.Sampled frame_buffer palette s pixel)
    (opened : window.vga_initialized = true) {x y : ℕ}

include sampled opened

/-- The position of the sample has its colour afterwards, and the others are as before. -/
theorem sample_pixel (column : x < VGA_WIDTH) (line : y < VGA_HEIGHT) :
    (window.sample pixel).framebuffer (y, x) =
      if s % H_TOTAL = x ∧ s / H_TOTAL % V_TOTAL = y then screen frame_buffer palette x y
      else window.framebuffer (y, x) := by
  rw [sample_framebuffer opened, update_pixel, sampled.column, sampled.line]
  cases visible : pixel.activevideo with
  | false =>
    have hidden : ¬ (s % H_TOTAL = x ∧ s / H_TOTAL % V_TOTAL = y) := by
      rintro ⟨rfl, rfl⟩
      have active := sampled.active
      rw [visible] at active
      exact of_decide_eq_false active.symm ⟨column, line⟩
    simp [hidden]
  | true =>
    have active := sampled.active
    rw [visible] at active
    obtain ⟨across, down⟩ := of_decide_eq_true active.symm
    have inside : s % H_TOTAL < VGA_WIDTH ∧ s / H_TOTAL % V_TOTAL < VGA_HEIGHT := ⟨across, down⟩
    simp only [inside.1, inside.2, decide_true, Bool.and_self, if_true, sampled.colour visible]
    by_cases here : s % H_TOTAL = x ∧ s / H_TOTAL % V_TOTAL = y
    · rw [if_pos here, ← here.1, ← here.2, Function.update_self, screen]
    · have other : (y, x) ≠ (s / H_TOTAL % V_TOTAL, s % H_TOTAL) := fun same =>
        here ⟨(congrArg Prod.snd same).symm, (congrArg Prod.fst same).symm⟩
      rw [if_neg here, Function.update_of_ne other]

theorem sample_keeps (column : x < VGA_WIDTH) (line : y < VGA_HEIGHT)
    (right : window.framebuffer (y, x) = screen frame_buffer palette x y) :
    (window.sample pixel).framebuffer (y, x) = screen frame_buffer palette x y := by
  rw [sample_pixel sampled opened column line]
  split_ifs
  · rfl
  · exact right

theorem sample_isFrame (frame : IsFrame frame_buffer palette window.framebuffer) :
    IsFrame frame_buffer palette (window.sample pixel).framebuffer := fun x column y line =>
  sample_keeps sampled opened column line (frame x column y line)

end Sampled

theorem sample_prev (opened : window.vga_initialized = true) (pixel : VgaPixelSide) :
    (window.sample pixel).prev_vsync = pixel.vsync := by
  rw [sample_open opened]

theorem sample_first (opened : window.vga_initialized = true) (pixel : VgaPixelSide)
    (past : window.first_vsync = false) : (window.sample pixel).first_vsync = false := by
  rw [sample_open opened]
  exact (vsync_fields _ _).2.2 ((update_fields _ _ _ _ _).2.2.2.trans past)

theorem sample_rendered (opened : window.vga_initialized = true) (pixel : VgaPixelSide) :
    (window.sample pixel).rendered = window.rendered ∨
      (window.sample pixel).rendered = some (window.sample pixel).framebuffer := by
  have kept :=
    (update_fields window pixel.x_pos.toNat pixel.y_pos.toNat pixel.rrggbb pixel.activevideo).2.1
  rw [sample_open opened]
  simp only [vsync]
  split_ifs
  · exact .inl kept
  · exact .inr rfl
  · exact .inl kept

/-- At the end of a pulse, except for the first one, the framebuffer is rendered. -/
theorem sample_rising (opened : window.vga_initialized = true) (low : window.prev_vsync = false)
    (high : pixel.vsync = true) :
    (window.sample pixel).first_vsync = false ∧
      (window.first_vsync = false → (window.sample pixel).rendered =
        some (window.sample pixel).framebuffer) := by
  have fields :=
    update_fields window pixel.x_pos.toNat pixel.y_pos.toNat pixel.rrggbb pixel.activevideo
  rw [sample_open opened]
  simp only [vsync, fields.2.2.1, fields.2.2.2, low, high, Bool.not_false, Bool.and_self, if_true]
  cases first : window.first_vsync with
  | true => simp
  | false => simp [render, fields.2.2.2, first]

/-! ## The run -/

/-- The window after `n` edges. -/
def windowAt (start : Vga) (edges : ℕ → VgaEdge) (n : ℕ) : VgaWindow :=
  Clocked.observedAt Vga.step observe start VgaWindow.start edges n

section Run

variable {start : Vga} {edges : ℕ → VgaEdge} {k : ℕ}

theorem windowAt_tick (ticks : (edges k).pixClock = true) :
    windowAt start edges (k + 1) =
      (windowAt start edges k).sample (Vga.stateAt start edges k).pixel := by
  change observe (windowAt start edges k) _ _ = _
  rw [observe, if_pos ticks]
  rfl

theorem windowAt_idle (idle : (edges k).pixClock = false) :
    windowAt start edges (k + 1) = windowAt start edges k := by
  change observe (windowAt start edges k) _ _ = _
  rw [observe, idle]
  rfl

/-- What every sample of a window keeps, an edge keeps. -/
theorem edge_keeps {Holds : VgaWindow → Prop} (holds : Holds (windowAt start edges k))
    (kept : Holds (windowAt start edges k) →
      Holds ((windowAt start edges k).sample (Vga.stateAt start edges k).pixel)) :
    Holds (windowAt start edges (k + 1)) := by
  cases ticks : (edges k).pixClock with
  | true =>
    rw [windowAt_tick ticks]
    exact kept holds
  | false =>
    rw [windowAt_idle ticks]
    exact holds

/-- The pixel cycle in which a position is seen, counted from any scan. -/
theorem seen_at {t x y : ℕ} (column : x < H_TOTAL) (line : y < V_TOTAL) (late : 2 ≤ t)
    (phase : t % Vga.scanCycles = (y * H_TOTAL + x + 2) % Vga.scanCycles) :
    (t - 2) % H_TOTAL = x ∧ (t - 2) / H_TOTAL % V_TOTAL = y := by
  have width : H_TOTAL = 832 := rfl
  have height : V_TOTAL = 520 := rfl
  have size : Vga.scanCycles = 432640 := rfl
  rw [width] at column phase ⊢
  rw [height] at line ⊢
  rw [size] at phase
  omega

/-- The end of the pulse is at the beginning of line 492. -/
theorem rises_at {t : ℕ} (late : 3 ≤ t) (phase : t % Vga.scanCycles = 409346) :
    syncAt (t - 3) = false ∧ syncAt (t - 2) = true := by
  have width : H_TOTAL = 832 := rfl
  have height : V_TOTAL = 520 := rfl
  have size : Vga.scanCycles = 432640 := rfl
  rw [size] at phase
  rw [syncAt, syncAt, width, height, Bool.not_eq_false', decide_eq_true_eq, Bool.not_eq_true',
    decide_eq_false_iff_not]
  omega

section Scans

variable {frame_buffer : ℕ → Byte} {palette : BitVec 4 → Colour} {n m since : ℕ}
  (before : pixelEdges edges n ≤ since) (late : 3 ≤ since)
  (sampled : ∀ k, n ≤ k → k < m → since ≤ pixelEdges edges k →
    Vga.Sampled frame_buffer palette (pixelEdges edges k - 2) (Vga.stateAt start edges k).pixel)

include before late sampled

/-- Within one scan a frame with a bright pixel opens the window. -/
theorem opens {x y : ℕ} (column : x < VGA_WIDTH) (line : y < VGA_HEIGHT)
    (bright : 1#6 < shownColour frame_buffer palette x y) (later : n ≤ k) (inside : k ≤ m)
    (scanned : since + Vga.scanCycles ≤ pixelEdges edges k) :
    (windowAt start edges k).vga_initialized = true := by
  simp only [VGA_WIDTH] at column
  simp only [VGA_HEIGHT] at line
  refine @Clocked.within_period (fun k => (windowAt start edges k).vga_initialized = true)
    (pixelEdges edges)
    (fun k => (edges k).pixClock) n m since Vga.scanCycles
      ((y * H_TOTAL + x + 2) % Vga.scanCycles) (fun _ => rfl)
    (Nat.mod_lt _ (by decide)) before ?_ ?_ k later inside scanned
  · intro k _ _ _ opened
    exact @edge_keeps start edges k
      (fun window => window.vga_initialized = true) opened fun opened =>
      sample_stays_open opened _
  intro k after within reached ticks phase
  obtain ⟨across, down⟩ :=
    seen_at (column.trans (by decide)) (line.trans (by decide)) (by omega) phase
  have sample := sampled k after within reached
  have visible : (Vga.stateAt start edges k).pixel.activevideo = true := by
    rw [sample.active, across, down]
    exact decide_eq_true ⟨column, line⟩
  rw [windowAt_tick ticks]
  refine sample_opens visible ?_
  rw [sample.colour visible, across, down]
  exact bright

variable (opened : ∀ k, n ≤ k → k ≤ m → since ≤ pixelEdges edges k →
    (windowAt start edges k).vga_initialized = true)

include opened

/-- After one scan the framebuffer is the frame. -/
theorem completes (later : n ≤ k) (inside : k ≤ m)
    (scanned : since + Vga.scanCycles ≤ pixelEdges edges k) :
    IsFrame frame_buffer palette (windowAt start edges k).framebuffer := by
  intro x column y line
  refine @Clocked.within_period
    (fun k => (windowAt start edges k).framebuffer (y, x) = screen frame_buffer palette x y)
    (pixelEdges edges)
    (fun k => (edges k).pixClock) n m since Vga.scanCycles
      ((y * H_TOTAL + x + 2) % Vga.scanCycles) (fun _ => rfl)
    (Nat.mod_lt _ (by decide)) before ?_ ?_ k later inside scanned
  · intro k after within reached right
    exact @edge_keeps start edges k
      (fun window => window.framebuffer (y, x) = screen frame_buffer palette x y) right
      fun right => sample_keeps (sampled k after within reached)
        (opened k after within.le reached) column line right
  · intro k after within reached ticks phase
    simp only [VGA_WIDTH] at column
    simp only [VGA_HEIGHT] at line
    have here := seen_at (column.trans (by decide)) (line.trans (by decide)) (by omega) phase
    rw [windowAt_tick ticks, sample_pixel (sampled k after within reached)
      (opened k after within.le reached) column line, if_pos here]

omit late in
/-- The loop remembers the synchronisation of the pixel cycle before. -/
theorem remembers (later : n ≤ k) (inside : k ≤ m) (scanned : since < pixelEdges edges k) :
    (windowAt start edges k).prev_vsync = syncAt (pixelEdges edges k - 3) := by
  induction k, later using Nat.le_induction with
  | base => exact absurd scanned (by omega)
  | succ k after inductionHypothesis =>
    cases ticks : (edges k).pixClock with
    | true =>
      have count : pixelEdges edges (k + 1) = pixelEdges edges k + 1 := by
        rw [pixelEdges, ticks, Bool.toNat_true]
      have reached : since ≤ pixelEdges edges k := by omega
      rw [windowAt_tick ticks, sample_prev (opened k after (by omega) reached),
        (sampled k after inside reached).vsync, count]
      rfl
    | false =>
      have count : pixelEdges edges (k + 1) = pixelEdges edges k := by
        rw [pixelEdges, ticks, Bool.toNat_false, Nat.add_zero]
      rw [windowAt_idle ticks, count]
      exact inductionHypothesis (by omega) (count ▸ scanned)

/-- After one scan the first end of a pulse is over. -/
theorem first_over (later : n ≤ k) (inside : k ≤ m)
    (scanned : since + 1 + Vga.scanCycles ≤ pixelEdges edges k) :
    (windowAt start edges k).first_vsync = false := by
  refine @Clocked.within_period (fun k => (windowAt start edges k).first_vsync = false)
    (pixelEdges edges)
    (fun k => (edges k).pixClock) n m (since + 1) Vga.scanCycles 409346 (fun _ => rfl)
    (by decide) (by omega) ?_ ?_ k
    later inside scanned
  · intro k after within reached past
    exact @edge_keeps start edges k (fun window => window.first_vsync = false) past fun past =>
      sample_first (opened k after within.le (by omega)) _ past
  · intro k after within reached ticks phase
    have rises := rises_at (show 3 ≤ pixelEdges edges k by omega) phase
    have low := remembers before sampled opened after within.le (by omega)
    have high := (sampled k after within (by omega)).vsync
    rw [windowAt_tick ticks]
    exact (sample_rising (opened k after within.le (by omega)) (low.trans rises.1)
      (high.trans rises.2)).1

/-- When the framebuffer is the frame and the first pulse is over, one more scan renders it. -/
theorem presents (complete : ∀ k, n ≤ k → k ≤ m → since ≤ pixelEdges edges k →
      IsFrame frame_buffer palette (windowAt start edges k).framebuffer)
    (past : ∀ k, n ≤ k → k ≤ m → since + 1 ≤ pixelEdges edges k →
      (windowAt start edges k).first_vsync = false)
    (later : n ≤ k) (inside : k ≤ m) (scanned : since + 1 + Vga.scanCycles ≤ pixelEdges edges k) :
    Presents frame_buffer palette (windowAt start edges k) := by
  refine @Clocked.within_period (fun k => Presents frame_buffer palette (windowAt start edges k))
    (pixelEdges edges)
    (fun k => (edges k).pixClock) n m (since + 1) Vga.scanCycles 409346 (fun _ => rfl)
    (by decide) (by omega) ?_ ?_ k
    later inside scanned
  · intro k after within reached presented
    refine @edge_keeps start edges k (Presents frame_buffer palette) presented fun presented => ?_
    obtain ⟨picture, rendered, frame⟩ := presented
    have isOpen := opened k after within.le (by omega)
    cases sample_rendered isOpen (Vga.stateAt start edges k).pixel with
    | inl same => exact ⟨picture, same.trans rendered, frame⟩
    | inr anew =>
      exact ⟨_, anew, sample_isFrame (sampled k after within (by omega)) isOpen
        (complete k after within.le (by omega))⟩
  · intro k after within reached ticks phase
    have isOpen := opened k after within.le (by omega)
    have rises := rises_at (show 3 ≤ pixelEdges edges k by omega) phase
    have low := remembers before sampled opened after within.le (by omega)
    have high := (sampled k after within (by omega)).vsync
    have anew := (sample_rising isOpen (low.trans rises.1) (high.trans rises.2)).2
      (past k after within.le reached)
    rw [windowAt_tick ticks]
    exact ⟨_, anew, sample_isFrame (sampled k after within (by omega)) isOpen
      (complete k after within.le (by omega))⟩

end Scans

/-- Three scans after a frame has settled in the VGA it is on the screen, and stays there while it
    stays in the VGA, if it has a pixel that opens the window.  The first scan after reset is black
    and does not count. -/
theorem frame_presented (start : Vga) (edges : ℕ → VgaEdge) (reset : start.Reset) (frame_index : ℕ)
    (valid : frame_index < 12) (frame_buffer : ℕ → Byte) (palette : BitVec 4 → Colour)
    (n m : ℕ) (later : n ≤ m)
    (uploaded : ∀ k, n ≤ k → k < m →
      Uploaded frame_index frame_buffer palette (Vga.stateAt start edges k).store)
    (x y : ℕ) (column : x < VGA_WIDTH) (line : y < VGA_HEIGHT)
    (bright : 1#6 < shownColour frame_buffer palette x y)
    (scanned : max (pixelEdges edges n + 3) Vga.scanCycles + 3 * Vga.scanCycles +
      1 ≤ pixelEdges edges m) :
    Presents frame_buffer palette (windowAt start edges m) := by
  have size : Vga.scanCycles = 432640 := rfl
  have sampled : ∀ since, max (pixelEdges edges n + 3) Vga.scanCycles ≤ since →
      ∀ k, n ≤ k → k < m → since ≤ pixelEdges edges k →
        Vga.Sampled frame_buffer palette (pixelEdges edges k - 2)
          (Vga.stateAt start edges k).pixel :=
    fun since settled k after within reached => Vga.sampled_run reset valid after
      (fun j first second => uploaded j first (second.trans within)) (by omega) (by omega)
  have opened : ∀ since, max (pixelEdges edges n + 3) Vga.scanCycles + Vga.scanCycles ≤ since →
      ∀ k, n ≤ k → k ≤ m → since ≤ pixelEdges edges k →
      (windowAt start edges k).vga_initialized = true :=
    fun since enough k after within reached =>
      opens (by omega) (by omega) (sampled _ le_rfl) column line bright after within
        (enough.trans reached)
  have complete : ∀ k, n ≤ k → k ≤ m →
      max (pixelEdges edges n + 3) Vga.scanCycles + 2 * Vga.scanCycles ≤ pixelEdges edges k →
      IsFrame frame_buffer palette (windowAt start edges k).framebuffer :=
        fun k after within reached =>
    completes (by omega) (by omega)
      (sampled (max (pixelEdges edges n + 3) Vga.scanCycles + Vga.scanCycles) (by omega))
      (opened _ le_rfl) after within (by omega)
  have past : ∀ k, n ≤ k → k ≤ m →
      max (pixelEdges edges n + 3) Vga.scanCycles + 2 * Vga.scanCycles + 1 ≤ pixelEdges edges k →
      (windowAt start edges k).first_vsync = false := fun k after within reached =>
    first_over (by omega) (by omega)
      (sampled (max (pixelEdges edges n + 3) Vga.scanCycles + Vga.scanCycles) (by omega))
      (opened _ le_rfl) after within (by omega)
  exact presents (by omega) (by omega) (sampled _ (Nat.le_add_right _ _))
    (opened _ (by omega)) complete past later le_rfl
    (by omega)

end Run

/-- The stripes that are uploaded after power-up, in the fourth scan. -/
theorem stripes_presented :
    Presents (fun k => BitVec.ofNat 8 (k % 16)) (fun colour => colour.zeroExtend 6)
      (windowAt Vga.powerUp (Vga.drive Vga.stripes)
        (5 * Vga.stripes.length + (4 * Vga.scanCycles + 1))) := by
  have first : Uploaded 3 (fun k => BitVec.ofNat 8 (k % 16)) (fun colour => colour.zeroExtend 6)
      (Vga.stateAt Vga.powerUp (Vga.drive Vga.stripes) (5 * Vga.stripes.length)).store := by
    rw [Vga.store_run, Vga.drive_uploaded, Vga.stripes_eq, List.nil_append]
    exact showFrame_uploaded _ _ (by decide) _
  have start := Vga.drive_pixelEdges Vga.stripes 0
  rw [Nat.add_zero] at start
  refine frame_presented Vga.powerUp (Vga.drive Vga.stripes) Vga.powerUp_reset 3 (by decide) _ _
    (5 * Vga.stripes.length) _ (Nat.le_add_right _ _)
    (fun k after _ => Vga.uploaded_stable first (Vga.drive_stable Vga.stripes 3 k after)) 140 48
      (by decide) (by decide)
    (by decide) ?_
  rw [Vga.drive_pixelEdges, start]
  decide

end VgaWindow

end MyCpu
