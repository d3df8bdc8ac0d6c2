import MyCpu.Verified.VgaDisplay

/-! # The interrupt of the vertical blanking

A rising edge of the synchronised blanking signal sets bit 0 of `INTR_STATUS`, and a write of 1
clears it.  In the cycle in which both happen, the write is the later assignment, and the event is
lost unless the write leaves a bit alone that is already set.  In a run without such a cycle no
event is lost. -/

namespace MyCpu

open VgaConstants

namespace VgaCpuSide

variable (cpu : VgaCpuSide)

/-- The synchronised blanking signal rises while its interrupt is enabled. -/
def vblankEvent : Bool := cpu.vblank_rising_edge && cpu.registers.ctrl_vblank_ie

def writesIntrStatus : Bool := cpu.slave.write && cpu.addr = VgaReg.INTR_STATUS

/-- Bit 0 is the only one that is ever set. -/
def OnlyVblank : Prop := ∀ i, i ≠ 0 → cpu.intrStatusReg.getLsbD i = false

/-- An event meets a write to `INTR_STATUS` that clears bit 0, or finds it clear. -/
def LosesEvent : Prop :=
  cpu.vblankEvent = true ∧ cpu.writesIntrStatus = true ∧
    (cpu.intrStatusReg.getLsbD 0 = true → cpu.slave.writeData.getLsbD 0 = true)

variable {cpu}

theorem nextIntrStatus_bit (i : ℕ) : cpu.nextIntrStatus.getLsbD i =
    if cpu.writesIntrStatus then cpu.intrStatusReg.getLsbD i && !cpu.slave.writeData.getLsbD i
    else if cpu.vblankEvent then decide (i = 0)
    else cpu.intrStatusReg.getLsbD i := by
  rw [nextIntrStatus, writesIntrStatus, vblankEvent]
  split_ifs
  · by_cases inside : i < 32
    · simp [inside]
    · simp [BitVec.getLsbD_of_ge _ i (Nat.le_of_not_lt inside)]
  · simp
  · rfl

theorem onlyVblank_next (only : cpu.OnlyVblank) (i : ℕ) (other : i ≠ 0) :
    cpu.nextIntrStatus.getLsbD i = false := by
  rw [nextIntrStatus_bit, only i other]
  simp [other]

/-- A bit that is set is cleared by a write of 1 to it only. -/
theorem cleared_next (only : cpu.OnlyVblank) {i : ℕ} (before : cpu.intrStatusReg.getLsbD i = true)
    (after : cpu.nextIntrStatus.getLsbD i = false) :
    cpu.writesIntrStatus = true ∧ cpu.slave.writeData.getLsbD i = true := by
  obtain rfl : i = 0 := by
    by_contra other
    exact Bool.noConfusion ((only i other).symm.trans before)
  rw [nextIntrStatus_bit, before] at after
  cases writes : cpu.writesIntrStatus with
  | true => simpa [writes] using after
  | false =>
    rw [writes] at after
    cases event : cpu.vblankEvent <;> simp [event] at after

/-- An event sets bit 0, or is lost. -/
theorem set_next (event : cpu.vblankEvent = true) :
    cpu.nextIntrStatus.getLsbD 0 = true ↔ ¬ cpu.LosesEvent := by
  rw [nextIntrStatus_bit, LosesEvent, event]
  cases cpu.writesIntrStatus <;> cases cpu.intrStatusReg.getLsbD 0 <;> cases cpu.slave.writeData.getLsbD 0 <;> simp

end VgaCpuSide

namespace Vga

/-! ## The run -/

/-- One edge: an event is recorded, and a bit is cleared by a write of 1 to it only. -/
structure KeepsEvents (vga : Vga) (edge : VgaEdge) : Prop where
  set : edge.sysClk.isSome = true → vga.cpu.vblankEvent = true →
    (vga.step edge).cpu.intrStatusReg.getLsbD 0 = true
  cleared : ∀ i, vga.cpu.intrStatusReg.getLsbD i = true →
    (vga.step edge).cpu.intrStatusReg.getLsbD i = false →
    edge.sysClk.isSome = true ∧ vga.cpu.writesIntrStatus = true ∧
    vga.cpu.slave.writeData.getLsbD i = true

theorem onlyVblank_step {vga : Vga} (edge : VgaEdge) (only : vga.cpu.OnlyVblank) :
    (vga.step edge).cpu.OnlyVblank := by
  obtain ⟨sysClk, pixClock⟩ := edge
  cases sysClk with
  | none => exact only
  | some channels => exact VgaCpuSide.onlyVblank_next only

theorem keepsEvents_iff {vga : Vga} (edge : VgaEdge) (only : vga.cpu.OnlyVblank) :
    vga.KeepsEvents edge ↔ ¬ (edge.sysClk.isSome = true ∧ vga.cpu.LosesEvent) := by
  obtain ⟨sysClk, pixClock⟩ := edge
  cases sysClk with
  | none =>
    refine iff_of_true ⟨fun ticks => Bool.noConfusion ticks, fun i before after => ?_⟩ fun loses =>
      Bool.noConfusion loses.1
    exact Bool.noConfusion (before.symm.trans after)
  | some channels =>
    constructor
    · intro keeps loses
      exact (VgaCpuSide.set_next loses.2.1).mp (keeps.set rfl loses.2.1) loses.2
    · intro kept
      exact ⟨fun _ event => (VgaCpuSide.set_next event).mpr fun loses => kept ⟨rfl, loses⟩,
        fun _ before after => ⟨rfl, VgaCpuSide.cleared_next only before after⟩⟩

theorem onlyVblank_always {start : Vga} (reset : start.Reset) (edges : ℕ → VgaEdge) (n : ℕ) :
    (stateAt start edges n).cpu.OnlyVblank := by
  induction n with
  | zero =>
    intro i _
    have zero : start.cpu.intrStatusReg.getLsbD i = false := by
      rw [reset.intrStatusReg, BitVec.getLsbD_zero]
    exact zero
  | succ n inductionHypothesis => exact onlyVblank_step (edges n) inductionHypothesis

/-- A run keeps every event exactly if in none of its cycles an event meets a write that clears bit
    0 or finds it clear. -/
theorem keeps_events_iff (start : Vga) (reset : start.Reset) (edges : ℕ → VgaEdge) :
    (∀ n, (stateAt start edges n).KeepsEvents (edges n)) ↔
      ∀ n, ¬ ((edges n).sysClk.isSome = true ∧ (stateAt start edges n).cpu.LosesEvent) :=
  forall_congr' fun n => keepsEvents_iff (edges n) (onlyVblank_always reset edges n)

/-- After the interrupt is enabled, only the pixel clock ticks. -/
theorem keeps_events_enabled :
    powerUp.Reset ∧ ∀ n, (stateAt powerUp (drive [(VgaReg.CTRL, 0x101#32)]) n).KeepsEvents
      (drive [(VgaReg.CTRL, 0x101#32)] n) := by
  refine ⟨powerUp_reset, (keeps_events_iff powerUp powerUp_reset _).mpr fun n loses => ?_⟩
  obtain early | late := Nat.lt_or_ge n 5
  · have quiet :
        ∀ n < 5, (stateAt powerUp (drive [(VgaReg.CTRL, 0x101#32)]) n).cpu.vblankEvent = false := by
      decide
    exact Bool.noConfusion ((quiet n early).symm.trans loses.2.1)
  · have behind : [(VgaReg.CTRL, 0x101#32)][n / 5]? = none :=
      List.getElem?_eq_none (Nat.div_pos late (by decide))
    rw [drive, behind] at loses
    exact Bool.noConfusion loses.1

/-! ### An acknowledgement that comes with the event -/

/-- The edges of the pixel clock from reset to the first blanking. -/
@[irreducible] def blankingStart : ℕ := H_TOTAL * V_ACTIVE

/-- The interrupt is enabled, a write of 1 to `INTR_STATUS` is begun, and it is finished when the
    blanking has begun. -/
def acknowledgement (n : ℕ) : VgaEdge :=
  if n < 5 then ⟨some (writeChannels (VgaReg.CTRL, 0x101#32)), false⟩
  else if n = 5 then ⟨some (writeChannels (VgaReg.INTR_STATUS, 1#32)), false⟩
  else if n < 6 + blankingStart then ⟨none, true⟩
  else ⟨some (writeChannels (VgaReg.INTR_STATUS, 1#32)), false⟩

theorem acknowledgement_pixels {k : ℕ} (inside : k < blankingStart) :
    acknowledgement (6 + k) = ⟨none, true⟩ := by
  rw [acknowledgement, if_neg (by omega), if_neg (by omega), if_pos (by omega)]

theorem acknowledgement_ends (k : ℕ) :
    acknowledgement (6 + blankingStart + k) =
      ⟨some (writeChannels (VgaReg.INTR_STATUS, 1#32)), false⟩ := by
  rw [acknowledgement, if_neg (by omega), if_neg (by omega), if_neg (by omega)]

/-- The CPU's side waits for the pixels. -/
theorem acknowledgement_waits {k : ℕ} (inside : k ≤ blankingStart) :
    (stateAt powerUp acknowledgement (6 + k)).cpu = (stateAt powerUp acknowledgement 6).cpu ∧
      pixelEdges acknowledgement (6 + k) = k := by
  induction k with
  | zero => exact ⟨rfl, by decide⟩
  | succ k inductionHypothesis =>
    obtain ⟨same, counted⟩ := inductionHypothesis (Nat.le_of_succ_le inside)
    rw [← Nat.add_assoc, stateAt, Clocked.stateAt_succ, ← stateAt, pixelEdges,
      acknowledgement_pixels inside, counted]
    exact ⟨same, rfl⟩

theorem acknowledgement_blanks :
    (stateAt powerUp acknowledgement (6 + blankingStart)).pixel.wires.in_vblank = true := by
  have line := (@scanned_run powerUp acknowledgement powerUp_reset (6 + blankingStart)).v_count
  rw [(acknowledgement_waits le_rfl).2] at line
  rw [VgaPixelSide.wires, line, blankingStart]
  decide

/-- The CPU's side while it waits: the interrupt is enabled, and the slave expects an address. -/
structure Begun (cpu : VgaCpuSide) : Prop where
  enabled : cpu.registers.ctrl_vblank_ie = true
  unsynced : cpu.vblank_sync1 = false
  state : cpu.slave.state = .writeAddr
  ready : cpu.slave.AWREADY = true
  unwritten : cpu.slave.write = false

theorem acknowledgement_begun : Begun (stateAt powerUp acknowledgement 6).cpu :=
  ⟨by decide, by decide, by decide, by decide, by decide⟩

/-- Two more edges of the CPU's clock bring the event and the write together. -/
theorem Begun.meets {cpu : VgaCpuSide} (begun : Begun cpu) (wires wires' : VgaStatusWires)
    (blanks : wires.in_vblank = true) :
    ((cpu.step (writeChannels (VgaReg.INTR_STATUS, 1#32)) wires).step
      (writeChannels (VgaReg.INTR_STATUS, 1#32)) wires').LosesEvent := by
  obtain ⟨enabled, unsynced, state, ready, unwritten⟩ := begun
  refine ⟨?_, ?_, fun _ => ?_⟩
  · simp [VgaCpuSide.vblankEvent, VgaCpuSide.vblank_rising_edge, VgaCpuSide.step,
      AXI4LiteSlave.step, state, ready, unwritten, unsynced, enabled, blanks, writeChannels]
  · simp [VgaCpuSide.writesIntrStatus, VgaCpuSide.addr, VgaCpuSide.step,
      AXI4LiteSlave.step, state, ready, writeChannels, VgaReg.INTR_STATUS]
  · simp [VgaCpuSide.step, AXI4LiteSlave.step, state, ready, writeChannels]

theorem cpu_succ {start : Vga} {edges : ℕ → VgaEdge} {n : ℕ}
    {channels : AXI4LiteMasterChannels 8} {pixClock : Bool}
    (edge : edges n = ⟨some channels, pixClock⟩) :
    (stateAt start edges (n + 1)).cpu =
      (stateAt start edges n).cpu.step channels (stateAt start edges n).pixel.wires := by
  rw [stateAt, Clocked.stateAt_succ, edge]
  rfl

theorem acknowledgement_loses :
    (stateAt powerUp acknowledgement (6 + blankingStart + 1 + 1)).cpu.LosesEvent := by
  rw [cpu_succ (acknowledgement_ends 1), cpu_succ (acknowledgement_ends 0), Nat.add_zero,
    (acknowledgement_waits le_rfl).1]
  exact acknowledgement_begun.meets _ _ acknowledgement_blanks

/-- The event of this run is lost. -/
theorem acknowledgement_lost :
    ¬ ∀ n, (stateAt powerUp acknowledgement n).KeepsEvents (acknowledgement n) := by
  intro keeps
  have ticks : (acknowledgement (6 + blankingStart + 1 + 1)).sysClk.isSome = true := by
    rw [Nat.add_assoc, acknowledgement_ends]
    rfl
  have only := onlyVblank_always powerUp_reset acknowledgement (6 + blankingStart + 1 + 1)
  exact (keepsEvents_iff _ only).mp (keeps _) ⟨ticks, acknowledgement_loses⟩

end Vga

end MyCpu
