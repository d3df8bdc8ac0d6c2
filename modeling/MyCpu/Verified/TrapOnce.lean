import Mathlib.Tactic.IntervalCases
import MyCpu.Verified.FetchStage

/-! # Trap entry and return

CLINT decides the trap from the word in ID and applies it to the CSR file in every
cycle that the word spends there.  The three trap registers after the stay are
those of one application when the later applications find nothing left to change:
entry has already cleared MIE for an environment call, MRET has already copied a
set MPIE, and an interrupted instruction is not MRET.

The steps on `mstatus` are stated here on its two interrupt bits, and the
concatenations of `CLINT.scala` are shown to compute them. -/

namespace MyCpu

/-! ## The trap steps on the registers -/

structure TrapRegisters where
  mstatus : Word
  mepc : Word
  mcause : Word
deriving DecidableEq, Repr

namespace TrapRegisters

/-- Bits MIE and MPIE of `mstatus`. -/
def mie (registers : TrapRegisters) : Bool := registers.mstatus.getLsbD 3

def mpie (registers : TrapRegisters) : Bool := registers.mstatus.getLsbD 7

/-- `mstatus` with other values of MIE and MPIE. -/
def withInterruptBits (mstatus : Word) (mie mpie : Bool) : Word :=
  (mstatus &&& 0xFFFFFF77#32) ||| (if mie then 0x8#32 else 0#32) |||
    (if mpie then 0x80#32 else 0#32)

/-- MPIE := MIE and MIE := 0; `mepc` and `mcause` are recorded. -/
def enter (address cause : Word) (registers : TrapRegisters) : TrapRegisters where
  mstatus := withInterruptBits registers.mstatus false registers.mie
  mepc := address
  mcause := cause

/-- MIE := MPIE and MPIE := 1. -/
def leave (registers : TrapRegisters) : TrapRegisters where
  mstatus := withInterruptBits registers.mstatus registers.mpie true
  mepc := registers.mepc
  mcause := registers.mcause

section Steps

variable (mstatus : Word) (mie mpie : Bool)

theorem withInterruptBits_getLsbD (i : ℕ) :
    (withInterruptBits mstatus mie mpie).getLsbD i =
      if i = 3 then mie else if i = 7 then mpie else mstatus.getLsbD i := by
  by_cases inside : i < 32
  · interval_cases i <;> cases mie <;> cases mpie <;> simp [withInterruptBits]
  · have outside : 32 ≤ i := by omega
    rw [BitVec.getLsbD_of_ge _ _ outside, BitVec.getLsbD_of_ge _ _ outside,
      if_neg (by omega), if_neg (by omega)]

theorem withInterruptBits_twice (mie' mpie' : Bool) :
    withInterruptBits (withInterruptBits mstatus mie mpie) mie' mpie' =
      withInterruptBits mstatus mie' mpie' := by
  apply BitVec.eq_of_getLsbD_eq
  intro i _
  simp only [withInterruptBits_getLsbD]
  split_ifs <;> rfl

theorem mstatusDisableInterrupt_eq :
    CLINT.mstatusDisableInterrupt mstatus =
      withInterruptBits mstatus false (mstatus.getLsbD 3) := by
  apply BitVec.eq_of_getLsbD_eq
  intro i inside
  rw [withInterruptBits_getLsbD, CLINT.mstatusDisableInterrupt]
  rw [BitVec.getLsbD_append, BitVec.getLsbD_append, BitVec.getLsbD_append, BitVec.getLsbD_append]
  interval_cases i <;> simp

theorem mstatusRecoverInterrupt_eq :
    CLINT.mstatusRecoverInterrupt mstatus = withInterruptBits mstatus (mstatus.getLsbD 7) true := by
  apply BitVec.eq_of_getLsbD_eq
  intro i inside
  rw [withInterruptBits_getLsbD, CLINT.mstatusRecoverInterrupt]
  rw [BitVec.getLsbD_append, BitVec.getLsbD_append, BitVec.getLsbD_append, BitVec.getLsbD_append]
  interval_cases i <;> simp

end Steps

variable (registers : TrapRegisters)

@[simp] theorem mie_enter (address cause : Word) : (registers.enter address cause).mie = false := by
  rw [mie, enter, withInterruptBits_getLsbD, if_pos rfl]

@[simp] theorem mpie_enter (address cause : Word) :
    (registers.enter address cause).mpie = registers.mie := by
  rw [mpie, enter, withInterruptBits_getLsbD, if_neg (by decide), if_pos rfl]

@[simp] theorem mie_leave : registers.leave.mie = registers.mpie := by
  rw [mie, leave, withInterruptBits_getLsbD, if_pos rfl]

@[simp] theorem mpie_leave : registers.leave.mpie = true := by
  rw [mpie, leave, withInterruptBits_getLsbD, if_neg (by decide), if_pos rfl]

/-- A second entry changes nothing exactly when the first found MIE clear. -/
theorem enter_enter (address cause : Word) :
    (registers.enter address cause).enter address cause = registers.enter address cause ↔
      registers.mie = false := by
  constructor
  · intro same
    rw [← mpie_enter registers address cause, ← same, mpie_enter, mie_enter]
  · intro clear
    have cleared := mie_enter registers address cause
    rw [enter, cleared, enter, withInterruptBits_twice, clear]

/-- A second return changes nothing exactly when the first found MPIE set. -/
theorem leave_leave : registers.leave.leave = registers.leave ↔ registers.mpie = true := by
  constructor
  · intro same
    rw [← mie_leave, ← same, mie_leave, mpie_leave]
  · intro set
    have kept := mpie_leave registers
    rw [leave, kept, leave, withInterruptBits_twice, set]

end TrapRegisters

namespace PipelinedCPU

/-! ## One cycle -/

section Cycle

variable (cpu : PipelinedCPU) (io : Inputs)

def trapRegisters : TrapRegisters := ⟨cpu.csrRegs.mstatus, cpu.csrRegs.mepc, cpu.csrRegs.mcause⟩

/-- The trap registers as CLINT sees them: a CSR write of the instruction in EX is visible. -/
def seen : TrapRegisters :=
  ⟨(trapView cpu io).mstatus, (trapView cpu io).mepc, (trapView cpu io).mcause⟩

def environmentTrap : Bool := CLINT.isEnvironmentTrap cpu.if2id.instruction

def interruptEnabled : Bool := CLINT.interruptEnabled (clintInputs cpu io) (trapView cpu io)

def takesEntry : Bool := environmentTrap cpu || interruptEnabled cpu io

def isMret : Bool := cpu.if2id.instruction = InstructionsRet.mret

def takesReturn : Bool := !takesEntry cpu io && isMret cpu

def trapCause : Word :=
  if environmentTrap cpu then CLINT.environmentCause cpu.if2id.instruction
  else CLINT.interruptCause (clintInputs cpu io)

/-- One application of the trap step that the word in ID asks for. -/
def applyTrap (registers : TrapRegisters) : TrapRegisters :=
  if takesEntry cpu io then registers.enter
    (CLINT.instructionAddress (clintInputs cpu io)) (trapCause cpu io)
  else if isMret cpu then registers.leave
  else registers

/-- The instruction in EX writes one of the trap registers. -/
def writesTrapRegister : Bool :=
  (csrWrite cpu io).enable &&
    ((csrWrite cpu io).address = CSRRegister.MSTATUS ||
      (csrWrite cpu io).address = CSRRegister.MEPC ||
      (csrWrite cpu io).address = CSRRegister.MCAUSE)

theorem trapRegisters_entered {cause : Word}
    (trapped : trap cpu io = CLINT.enter (clintInputs cpu io) (trapView cpu io) cause) :
    trapRegisters (step cpu io) =
      (seen cpu io).enter (CLINT.instructionAddress (clintInputs cpu io)) cause := by
  simp only [trapRegisters, step, stepWith, CSR.step, trapped, CLINT.enter, if_true,
    TrapRegisters.enter, seen, TrapRegisters.mie, TrapRegisters.mstatusDisableInterrupt_eq]

theorem trapRegisters_left (trapped : trap cpu io = CLINT.leave (trapView cpu io)) :
    trapRegisters (step cpu io) = (seen cpu io).leave := by
  simp only [trapRegisters, step, stepWith, CSR.step, trapped, CLINT.leave, if_true,
    TrapRegisters.leave, seen, TrapRegisters.mpie, TrapRegisters.mstatusRecoverInterrupt_eq]

theorem trapRegisters_idle (trapped : trap cpu io = CLINT.idle (trapView cpu io)) :
    trapRegisters (step cpu io) = seen cpu io := by
  simp [trapRegisters, step, stepWith, CSR.step, trapped, CLINT.idle, seen, trapView,
    CSR.clintAccessBundle]

/-- Every edge applies the trap step once to the registers that CLINT sees. -/
theorem trapRegisters_step : trapRegisters (step cpu io) = applyTrap cpu io (seen cpu io) := by
  by_cases environment : environmentTrap cpu = true
  · have trapped : trap cpu io = CLINT.enter (clintInputs cpu io) (trapView cpu io)
        (CLINT.environmentCause cpu.if2id.instruction) := if_pos environment
    simp only [trapRegisters_entered cpu io trapped, applyTrap, takesEntry, environment,
      Bool.true_or, if_true, trapCause]
  · by_cases enabled : interruptEnabled cpu io = true
    · have trapped : trap cpu io = CLINT.enter (clintInputs cpu io) (trapView cpu io)
          (CLINT.interruptCause (clintInputs cpu io)) := (if_neg environment).trans (if_pos enabled)
      simp only [trapRegisters_entered cpu io trapped, applyTrap, takesEntry, enabled,
        Bool.or_true, if_true, trapCause, if_neg environment]
    · have outputs : trap cpu io =
          if cpu.if2id.instruction = InstructionsRet.mret then CLINT.leave (trapView cpu io)
          else CLINT.idle (trapView cpu io) := (if_neg environment).trans (if_neg enabled)
      have noEntry : takesEntry cpu io = false := by simp [takesEntry, environment, enabled]
      by_cases mret : cpu.if2id.instruction = InstructionsRet.mret
      · rw [trapRegisters_left cpu io (outputs.trans (if_pos mret))]
        simp [applyTrap, noEntry, isMret, mret]
      · rw [trapRegisters_idle cpu io (outputs.trans (if_neg mret))]
        simp [applyTrap, noEntry, isMret, mret]

theorem seen_eq (quiet : writesTrapRegister cpu io = false) : seen cpu io = trapRegisters cpu := by
  simp only [writesTrapRegister, Bool.and_eq_false_iff, Bool.or_eq_false_iff,
    decide_eq_false_iff_not] at quiet
  obtain disabled | ⟨⟨mstatus, mepc⟩, mcause⟩ := quiet
  · simp [seen, trapView, CSR.clintAccessBundle, CSR.bypass, disabled, trapRegisters]
  · simp [seen, trapView, CSR.clintAccessBundle, CSR.bypass, mstatus, mepc, mcause, trapRegisters]

theorem mie_interruptEnabled (enabled : interruptEnabled cpu io = true) :
    (seen cpu io).mie = true := by
  simp only [interruptEnabled, CLINT.interruptEnabled, Bool.and_eq_true] at enabled
  exact enabled.1.2

theorem environmentTrap_nonBranch (environment : environmentTrap cpu = true) :
    isBranchOrJump cpu = false := by
  simp only [environmentTrap, CLINT.isEnvironmentTrap, Bool.or_eq_true,
    decide_eq_true_eq] at environment
  obtain ecall | ebreak := environment
  · rw [isBranchOrJump, ecall]
    decide
  · rw [isBranchOrJump, ebreak]
    decide

end Cycle

/-! ## A stay in ID -/

variable (contents : PowerUp) (inputs : ℕ → Inputs)

/-- The word in ID asks for a trap step in cycle `n`, is held in ID in every cycle before `m` and
    leaves at the edge of cycle `m`. -/
structure TrapStay (n m : ℕ) : Prop where
  ordered : n ≤ m
  asks : takesEntry (stateAt contents inputs n) (inputs n) = true ∨
    takesReturn (stateAt contents inputs n) (inputs n) = true
  held : ∀ k, n ≤ k → k < m → holdsId (stateAt contents inputs k) (inputs k) = true
  leaves : holdsId (stateAt contents inputs m) (inputs m) = false

/-- One application of the trap step that cycle `n` asks for, to the registers that CLINT sees
    then. -/
def TrapsOnce (n m : ℕ) : Prop :=
  trapRegisters (stateAt contents inputs (m + 1)) =
    applyTrap (stateAt contents inputs n) (inputs n) (seen (stateAt contents inputs n) (inputs n))

/-- What makes later applications of the step of cycle `n` find nothing to change: entry for an
    environment call found MIE clear, the return found MPIE set, an interrupt did not hit MRET. -/
def StepSettles (n : ℕ) : Prop :=
  (environmentTrap (stateAt contents inputs n) = true →
    (seen (stateAt contents inputs n) (inputs n)).mie = false) ∧
    (takesReturn (stateAt contents inputs n) (inputs n) = true →
      (seen (stateAt contents inputs n) (inputs n)).mpie = true) ∧
    (takesEntry (stateAt contents inputs n) (inputs n) = true →
    isMret (stateAt contents inputs n) = false)

/-- The stay is one cycle long, or its step settles, EX holds no write to a trap register after the
    first cycle, and no interrupt interferes with a return. -/
def Repeatable (n m : ℕ) : Prop :=
  n = m ∨ (StepSettles contents inputs n ∧
    ∀ k, n < k → k ≤ m → writesTrapRegister (stateAt contents inputs k) (inputs k) = false ∧
      (takesReturn (stateAt contents inputs n) (inputs n) = true →
        interruptEnabled (stateAt contents inputs k) (inputs k) = false))

variable {contents inputs} {n m : ℕ}

namespace TrapStay

section Stay

variable (stay : TrapStay contents inputs n m)

include stay

theorem id_constant {k : ℕ} (after : n ≤ k) (within : k ≤ m) :
    (stateAt contents inputs k).if2id = (stateAt contents inputs n).if2id ∧
      (stateAt contents inputs k).instFetch.pc = (stateAt contents inputs n).instFetch.pc := by
  refine Clocked.kept_until after ⟨rfl, rfl⟩ fun j later before same => ?_
  obtain ⟨sameId, samePc⟩ := same
  have held := stay.held j later (before.trans_le within)
  have stalled : fetchStall (stateAt contents inputs j) (inputs j) = true := by
    simp only [holdsId, Bool.and_eq_true] at held
    exact held.1
  exact ⟨by rw [stateAt_succ, if2id_held _ _ held, sameId], by rw [stateAt_succ, step, pc_held stalled, samePc]⟩

omit stay in
/-- An environment trap records the same address and cause in every cycle of the stay. -/
theorem applyTrap_environment (environment : environmentTrap (stateAt contents inputs n) = true)
    {i : ℕ}
    (sameId : (stateAt contents inputs i).if2id = (stateAt contents inputs n).if2id)
    (samePc : (stateAt contents inputs i).instFetch.pc = (stateAt contents inputs n).instFetch.pc)
    (registers : TrapRegisters) :
    applyTrap (stateAt contents inputs i) (inputs i) registers =
      registers.enter (stateAt contents inputs n).instFetch.pc
        (CLINT.environmentCause (stateAt contents inputs n).if2id.instruction) := by
  have environment' : environmentTrap (stateAt contents inputs i) = true := by
    rw [environmentTrap, sameId]
    exact environment
  have address : CLINT.instructionAddress (clintInputs (stateAt contents inputs i) (inputs i)) =
      (stateAt contents inputs n).instFetch.pc := by
    simp only [CLINT.instructionAddress, clintInputs, environmentTrap_nonBranch _ environment']
    exact samePc
  simp only [applyTrap, takesEntry, environment', Bool.true_or, if_true, trapCause, address, sameId]

variable {k : ℕ} (after : n < k) (within : k ≤ m)

include after within

theorem environmentTrap_again :
    environmentTrap (stateAt contents inputs k) = environmentTrap (stateAt contents inputs n) := by
  rw [environmentTrap, (stay.id_constant (Nat.le_of_lt after) within).1, environmentTrap]

theorem isMret_again : isMret (stateAt contents inputs k) = isMret (stateAt contents inputs n) := by
  rw [isMret, (stay.id_constant (Nat.le_of_lt after) within).1, isMret]

/-- An interrupt has cleared MIE, so CLINT is idle from then on. -/
theorem applyTrap_interrupted (environment : environmentTrap (stateAt contents inputs n) = false)
    (notMret : isMret (stateAt contents inputs n) = false)
    (quiet : writesTrapRegister (stateAt contents inputs k) (inputs k) = false)
    (cleared : (trapRegisters (stateAt contents inputs k)).mie = false)
    (registers : TrapRegisters) :
    applyTrap (stateAt contents inputs k) (inputs k) registers = registers := by
  have disabled : interruptEnabled (stateAt contents inputs k) (inputs k) = false := by
    rw [← Bool.not_eq_true]
    intro again
    rw [← seen_eq _ _ quiet, mie_interruptEnabled _ _ again] at cleared
    exact Bool.noConfusion cleared
  rw [applyTrap, takesEntry, stay.environmentTrap_again after within, environment, disabled,
    stay.isMret_again after within, notMret]
  rfl

/-- MRET copies MPIE again. -/
theorem applyTrap_returned (environment : environmentTrap (stateAt contents inputs n) = false)
    (mret : isMret (stateAt contents inputs n) = true)
    (disabled : interruptEnabled (stateAt contents inputs k) (inputs k) = false)
    (registers : TrapRegisters) :
    applyTrap (stateAt contents inputs k) (inputs k) registers = registers.leave := by
  simp [applyTrap, takesEntry, stay.environmentTrap_again after within, environment, disabled,
    stay.isMret_again after within, mret]

/-- In a later cycle of the stay the trap step changes nothing. -/
theorem applyTrap_again (settles : StepSettles contents inputs n)
    (quiet : writesTrapRegister (stateAt contents inputs k) (inputs k) = false)
    (undisturbed : takesReturn (stateAt contents inputs n) (inputs n) = true →
      interruptEnabled (stateAt contents inputs k) (inputs k) = false)
    (applied : trapRegisters (stateAt contents inputs k) =
      applyTrap (stateAt contents inputs n) (inputs n)
        (seen (stateAt contents inputs n) (inputs n))) :
    applyTrap (stateAt contents inputs k) (inputs k) (trapRegisters (stateAt contents inputs k)) =
      trapRegisters (stateAt contents inputs k) := by
  cases environment : environmentTrap (stateAt contents inputs n) with
  | true =>
    -- the same address and cause are recorded again; only `mstatus` could change
    obtain ⟨sameId, samePc⟩ := stay.id_constant (Nat.le_of_lt after) within
    rw [applied, applyTrap_environment environment rfl rfl,
      applyTrap_environment environment sameId samePc, TrapRegisters.enter_enter]
    exact settles.1 environment
  | false =>
    cases enabled : interruptEnabled (stateAt contents inputs n) (inputs n) with
    | true =>
      have entry : takesEntry (stateAt contents inputs n) (inputs n) = true := by
        simp [takesEntry, enabled]
      have cleared : (trapRegisters (stateAt contents inputs k)).mie = false := by
        rw [applied, applyTrap, entry, if_pos rfl, TrapRegisters.mie_enter]
      exact stay.applyTrap_interrupted after within environment (settles.2.2 entry) quiet cleared _
    | false =>
      have noEntry : takesEntry (stateAt contents inputs n) (inputs n) = false := by
        simp [takesEntry, environment, enabled]
      have return' : takesReturn (stateAt contents inputs n) (inputs n) = true := by
        obtain entry | return' := stay.asks
        · exact absurd (noEntry.symm.trans entry) (by decide)
        · exact return'
      have mret : isMret (stateAt contents inputs n) = true := by
        simp only [takesReturn, Bool.and_eq_true] at return'
        exact return'.2
      -- the first return has set MPIE, which the second one copies
      have left : ∀ registers, applyTrap (stateAt contents inputs n)
          (inputs n) registers = registers.leave := by
        intro registers
        simp [applyTrap, noEntry, mret]
      rw [stay.applyTrap_returned after within environment mret
        (undisturbed return'), applied, left, TrapRegisters.leave_leave]
      exact settles.2.1 return'

end Stay

/-- The trap registers after each cycle of the stay are those after its first cycle. -/
theorem applied_at (stay : TrapStay contents inputs n m)
    (repeatable : Repeatable contents inputs n m) {k : ℕ}
    (after : n ≤ k) (within : k ≤ m) :
    trapRegisters (stateAt contents inputs (k + 1)) =
      applyTrap (stateAt contents inputs n) (inputs n)
        (seen (stateAt contents inputs n) (inputs n)) := by
  induction k, after using Nat.le_induction with
  | base => rw [stateAt_succ, trapRegisters_step]
  | succ k after inductionHypothesis =>
    have before := inductionHypothesis (Nat.le_of_succ_le within)
    obtain single | ⟨settles, later⟩ := repeatable
    · omega
    · obtain ⟨quiet, undisturbed⟩ := later (k + 1) (Nat.lt_succ_of_le after) within
      rw [stateAt_succ contents inputs (k + 1), trapRegisters_step, seen_eq _ _ quiet,
        stay.applyTrap_again (Nat.lt_succ_of_le after) within settles quiet undisturbed before,
        before]

end TrapStay

/-- The stay of a trapping instruction applies its step once; and when nothing else writes `mstatus`
    between an entry and its return, the return restores MIE. -/
theorem traps_once (stay : TrapStay contents inputs n m)
    (repeatable : Repeatable contents inputs n m) :
    TrapsOnce contents inputs n m ∧
      ∀ p q, TrapStay contents inputs p q → Repeatable contents inputs p q →
        takesEntry (stateAt contents inputs n) (inputs n) = true →
        takesReturn (stateAt contents inputs p) (inputs p) = true →
        (seen (stateAt contents inputs p) (inputs p)).mstatus =
          (trapRegisters (stateAt contents inputs (m + 1))).mstatus →
        (trapRegisters (stateAt contents inputs (q + 1))).mie =
          (seen (stateAt contents inputs n) (inputs n)).mie := by
  have once := stay.applied_at repeatable stay.ordered (Nat.le_refl m)
  refine ⟨once, ?_⟩
  intro p q stay' repeatable' entry return' untouched
  have returned := stay'.applied_at repeatable' stay'.ordered (Nat.le_refl q)
  simp only [takesReturn, Bool.and_eq_true, Bool.not_eq_true'] at return'
  rw [returned, applyTrap, return'.1, return'.2, if_neg Bool.false_ne_true, if_pos rfl,
    TrapRegisters.mie_leave]
  rw [TrapRegisters.mpie, untouched, once, applyTrap, entry, if_pos rfl]
  exact TrapRegisters.mpie_enter _ _ _

/-! ## Two runs -/

/-- `csrrsi x0, mstatus, 8` and `ecall`; in the handler `sw x0, 0(x0)`, `nop` and `mret`. -/
def handlerInputs : ℕ → Inputs := .script
  [0x30046073#32, InstructionsEnv.ecall, InstructionsNop.nop, 0x00002023#32, InstructionsNop.nop,
    InstructionsRet.mret]

/-- The entry finds MIE set and lasts one cycle; the store holds `mret` in ID for two cycles. -/
theorem handler_traps_once :
    TrapsOnce .zero handlerInputs 2 2 ∧
      (seen (stateAt .zero handlerInputs 2) (handlerInputs 2)).mie = true ∧
      (trapRegisters (stateAt .zero handlerInputs 8)).mie = true := by
  have entry : TrapStay .zero handlerInputs 2 2 :=
    ⟨by decide, by decide +kernel, fun k after before => by omega, by decide +kernel⟩
  have return' : TrapStay .zero handlerInputs 6 7 := by
    refine ⟨by decide, by decide +kernel, ?_, by decide +kernel⟩
    intro k after before
    obtain rfl : k = 6 := by omega
    decide +kernel
  have settles : Repeatable .zero handlerInputs 6 7 := by
    refine Or.inr ⟨⟨by decide +kernel, by decide +kernel, by decide +kernel⟩, ?_⟩
    intro k after within
    obtain rfl : k = 7 := by omega
    decide +kernel
  have once := traps_once entry (Or.inl rfl)
  have enabled : (seen (stateAt .zero handlerInputs 2) (handlerInputs 2)).mie = true := by
    decide +kernel
  have restored :=
    once.2 6 7 return' settles (by decide +kernel) (by decide +kernel) (by decide +kernel)
  exact ⟨once.1, enabled, restored.trans enabled⟩

/-- `csrrsi x0, mstatus, 8`, `sw x0, 0(x0)`, `nop` and `ecall`. -/
def heldEcallInputs : ℕ → Inputs := .script
  [0x30046073#32, 0x00002023#32, InstructionsNop.nop, InstructionsEnv.ecall]

/-- The store holds `ecall` in ID for two cycles, and its entry is applied twice: MPIE loses the
    value of MIE. -/
theorem heldEcall_traps_twice :
    TrapStay .zero heldEcallInputs 4 5 ∧ ¬ TrapsOnce .zero heldEcallInputs 4 5 := by
  constructor
  · refine ⟨by decide, by decide +kernel, ?_, by decide +kernel⟩
    intro k after before
    obtain rfl : k = 4 := by omega
    decide +kernel
  · rw [TrapsOnce]
    decide +kernel

end PipelinedCPU

end MyCpu
