import MyCpu.Verified.RedirectOnce

/-! # A BTB misprediction and its correction

A BTB misprediction flushes IF/ID in an unstalled cycle of MEM.  The pc takes the
correction in the same cycle only when no hazard stalls fetch and no older jump is
latched.  Under a hazard nothing records the correction as such: it survives when the
jump latch happens to take the same address, and is lost otherwise. -/

namespace MyCpu.PipelinedCPU

variable (cpu : PipelinedCPU) (io : Inputs)

/-- A BTB misprediction flushes IF/ID. -/
def flushesMispredicted : Bool := if2idFlush cpu io && btbMispredict cpu io

/-- Fetch can take the correction: without a hazard no other address is latched; under a hazard
    fetch is already there, or the latched jump is the correction. -/
def CorrectionFits : Prop :=
  if pcStall cpu then
    cpu.instFetch.pc = btbCorrectionAddr cpu io ∨
      latchedJump cpu io = some (btbCorrectionAddr cpu io)
  else cpu.instFetch.pendingJump = true → cpu.instFetch.pendingJumpAddr = btbCorrectionAddr cpu io

/-- A pending record holds `address`. -/
def Recorded (address : Word) : Prop :=
  (cpu.instFetch.pendingJump = true ∧ cpu.instFetch.pendingJumpAddr = address) ∨
    (cpu.btbMispredictPending = true ∧ cpu.btbCorrectionAddrPending = address)

/-! ## The cycle of the flush -/

section Flush

variable {cpu io}

theorem flushesMispredicted_running (flushed : flushesMispredicted cpu io = true) :
    memStall cpu io = false := by
  simp only [flushesMispredicted, if2idFlush, Bool.and_eq_true, Bool.not_eq_true'] at flushed
  exact flushed.1.2

/-- The correction reaches the pc or a record in the cycle of the flush exactly when it fits. -/
theorem correctionFits_iff (flushed : flushesMispredicted cpu io = true) :
    (step cpu io).instFetch.pc = btbCorrectionAddr cpu io ∨
      Recorded (step cpu io) (btbCorrectionAddr cpu io) ↔
      CorrectionFits cpu io := by
  have running := flushesMispredicted_running flushed
  have mispredict : btbMispredict cpu io = true := (Bool.and_eq_true_iff.mp flushed).2
  -- The record of the BTB is only written while MEM stalls.
  have settled : (step cpu io).btbMispredictPending = false := btbMispredictPending_running running
  simp only [Recorded, settled, Bool.false_eq_true, false_and, or_false]
  rw [CorrectionFits]
  cases hazard : pcStall cpu with
  | true =>
    have stalled : fetchStall cpu io = true := by rw [fetchStall, hazard, Bool.true_or]
    rw [step, pc_held stalled, ← step, pendingJump_latched stalled, if_pos rfl]
  | false =>
    have unstalled : fetchStall cpu io = false := by rw [fetchStall, hazard, running, Bool.or_self]
    rw [step, pc_running unstalled, ← step, pendingJump_running unstalled, mispredict,
      if_neg Bool.false_ne_true]
    cases cpu.instFetch.pendingJump with
    | true => simp
    | false => simp

end Flush

/-! ## The cycles after a flush under a hazard -/

/-- The latched jump is the correction, and ID has nothing that could replace it. -/
structure CorrectionWaits (address : Word) : Prop where
  id : idVacant cpu
  pending : cpu.instFetch.pendingJump = true
  pendingAddr : cpu.instFetch.pendingJumpAddr = address
  prevJump : cpu.instFetch.prevJumpFlag = true → cpu.instFetch.prevJumpAddr = address
  settled : cpu.btbMispredictPending = false

section Waiting

variable {cpu io} {address : Word}

theorem CorrectionWaits.step (waits : CorrectionWaits cpu address)
    (stalled : fetchStall cpu io = true)
    (noTrap : interruptAssert cpu io = false) : CorrectionWaits (step cpu io) address := by
  have notTaken := idVacant_actualTaken waits.id noTrap
  have raw : btbMispredictRaw cpu io = false := idVacant_btbMispredictRaw waits.id
  have held : (PipelinedCPU.step cpu io).if2id = cpu.if2id := by
    apply if2id_held
    rw [holdsId, ← fetchStall_eq, stalled, if2idFlush,
      idVacant_needIfFlush waits.id noTrap waits.settled]
    rfl
  have latched : latchedJump cpu io = some address := by
    rw [latchedJump, notTaken, if_neg Bool.false_ne_true]
    cases previous : cpu.instFetch.prevJumpFlag with
    | true => rw [if_pos rfl, waits.prevJump previous]
    | false => rw [if_neg Bool.false_ne_true, waits.pending, if_pos rfl, waits.pendingAddr]
  obtain ⟨pending, pendingAddr⟩ := (pendingJump_latched stalled).mpr latched
  refine ⟨?_, pending, pendingAddr, ?_, ?_⟩
  · rw [idVacant, held]
    exact waits.id
  · intro jumped
    exact absurd (notTaken.symm.trans jumped) Bool.false_ne_true
  · simp [PipelinedCPU.step, stepWith, nextBtbMispredictPending, raw, waits.settled]

theorem CorrectionWaits.taken (waits : CorrectionWaits cpu address)
    (running : fetchStall cpu io = false) :
    (PipelinedCPU.step cpu io).instFetch.pc = address := by
  rw [PipelinedCPU.step, pc_running running, waits.pending, if_pos rfl, waits.pendingAddr]

end Waiting

/-! ## Runs -/

section Run

variable (contents : PowerUp) (inputs : ℕ → Inputs)

/-- The correction of cycle `n` is the next pc, or it is recorded and becomes the pc at the edge of
    the next cycle in which fetch is not stalled. -/
def CorrectionKept (n : ℕ) : Prop :=
  let address := btbCorrectionAddr (stateAt contents inputs n) (inputs n)
  (stateAt contents inputs (n + 1)).instFetch.pc = address ∨
    (Recorded (stateAt contents inputs (n + 1)) address ∧
      ∀ m, n < m → (∀ k, n < k → k < m → fetchStall (stateAt contents inputs k) (inputs k) = true) →
        fetchStall (stateAt contents inputs m) (inputs m) = false →
        (stateAt contents inputs (m + 1)).instFetch.pc = address)

/-- No trap is taken while fetch stays stalled after cycle `n`. -/
def NoTrapWaiting (n : ℕ) : Prop :=
  ∀ m, n < m → (∀ k, n < k → k ≤ m → fetchStall (stateAt contents inputs k) (inputs k) = true) →
    interruptAssert (stateAt contents inputs m) (inputs m) = false

variable {contents inputs} {n : ℕ}

theorem correctionWaits_flushed
    (flushed : flushesMispredicted (stateAt contents inputs n) (inputs n) = true)
    {address : Word} (stalled : fetchStall (stateAt contents inputs n) (inputs n) = true)
    (latched : latchedJump (stateAt contents inputs n) (inputs n) = some address) :
    CorrectionWaits (stateAt contents inputs (n + 1)) address := by
  have running := flushesMispredicted_running flushed
  obtain ⟨pending, pendingAddr⟩ := (pendingJump_latched stalled).mpr latched
  refine ⟨idVacant_flushed (Bool.and_eq_true_iff.mp flushed).1, pending, pendingAddr, ?_,
    btbMispredictPending_running running⟩
  -- What ID resolved in the cycle of the flush is what the latch took.
  intro jumped
  have taken : actualTaken (stateAt contents inputs n) (inputs n) = true := jumped
  rw [latchedJump, taken, if_pos rfl] at latched
  exact Option.some.inj latched

theorem correctionWaits_until {address : Word}
    (waits : CorrectionWaits (stateAt contents inputs (n + 1)) address)
    (noTrap : NoTrapWaiting contents inputs n)
    {m : ℕ} (after : n < m)
    (stalled : ∀ k, n < k → k < m → fetchStall (stateAt contents inputs k) (inputs k) = true) :
    CorrectionWaits (stateAt contents inputs m) address := by
  refine Clocked.kept_until after waits fun k later before waits => ?_
  have quiet := noTrap k later fun j after within => stalled j after (within.trans_lt before)
  exact waits.step (stalled k later before) quiet

/-- A correction that fits is kept, and a correction that is kept fits. -/
theorem correction_kept
    (flushed : flushesMispredicted (stateAt contents inputs n) (inputs n) = true)
    (noTrap : NoTrapWaiting contents inputs n) :
    CorrectionKept contents inputs n ↔ CorrectionFits (stateAt contents inputs n) (inputs n) := by
  rw [← correctionFits_iff flushed, CorrectionKept]
  constructor
  · rintro (arrived | ⟨recorded, _⟩)
    · exact Or.inl arrived
    · exact Or.inr recorded
  · rintro (arrived | recorded)
    · exact Or.inl arrived
    · refine Or.inr ⟨recorded, ?_⟩
      obtain ⟨pending, pendingAddr⟩ | ⟨pending, _⟩ := recorded
      · -- Only the latch of a stalled cycle holds a jump, and it keeps it until fetch moves.
        cases stalled : fetchStall (stateAt contents inputs n) (inputs n) with
        | false =>
          rw [pendingJump_running stalled] at pending
          exact Bool.noConfusion pending
        | true =>
          have latched := (pendingJump_latched stalled).mp ⟨pending, pendingAddr⟩
          have waits := correctionWaits_flushed flushed stalled latched
          intro m after waiting released
          exact (correctionWaits_until waits noTrap after waiting).taken released
      · rw [btbMispredictPending_running (flushesMispredicted_running flushed)] at pending
        exact Bool.noConfusion pending

end Run

/-! ## Two countdown loops -/

/-- `addi x1, x0, 2`, then the loop `addi x1, x1, -1`, `nop`, `bne x1, x0, -8`, as the core fetches
    it in its first nine cycles. -/
def countdownInputs : ℕ → Inputs := .script
  [0x00200093#32, 0xFFF08093#32, InstructionsNop.nop, 0xFE009CE3#32,
  InstructionsNop.nop, 0xFFF08093#32,
    InstructionsNop.nop, 0xFE009CE3#32, 0xFFF08093#32]

theorem countdown_correction_kept : CorrectionKept .zero countdownInputs 8 := by
  have noTrap : NoTrapWaiting .zero countdownInputs 8 := by
    intro m after stalled
    exact absurd (stalled 9 (by decide) after) (by decide +kernel)
  refine (correction_kept (by decide +kernel) noTrap).mpr ?_
  have running : pcStall (stateAt .zero countdownInputs 8) = false := by decide +kernel
  have unlatched : (stateAt .zero countdownInputs 8).instFetch.pendingJump = false := by
    decide +kernel
  rw [CorrectionFits, running, unlatched]
  exact fun latched => Bool.noConfusion latched

/-- `addi x1, x0, 2`, then the loop `addi x1, x1, -1`, `sw x0, 0(x0)`, `lw x2, 0(x0)`,
    `bne x1, x0, -12`, as the core fetches it in its first nineteen cycles. -/
def storingCountdownInputs : ℕ → Inputs := .script
  [0x00200093#32, 0xFFF08093#32, 0x00002023#32, 0x00002103#32, 0xFE009AE3#32, InstructionsNop.nop,
    InstructionsNop.nop, InstructionsNop.nop, InstructionsNop.nop, 0xFFF08093#32,
    0x00002023#32, 0x00002103#32, 0xFE009AE3#32, 0xFFF08093#32, 0xFFF08093#32, 0xFFF08093#32,
    0xFFF08093#32, 0x00002023#32, 0x00002103#32]

/-- In cycle 14 the exit of the loop is mispredicted while the load behind the store holds fetch:
    IF/ID is flushed, the correction to the exit is lost, and the loop runs on. -/
theorem storingCountdown_correction_lost :
    flushesMispredicted (stateAt .zero storingCountdownInputs 14)
      (storingCountdownInputs 14) = true ∧
      NoTrapWaiting .zero storingCountdownInputs 14 ∧
      ¬ CorrectionKept .zero storingCountdownInputs 14 := by
  refine ⟨by decide +kernel, ?_, ?_⟩
  · intro m after stalled
    by_cases early : m < 16
    · obtain rfl : m = 15 := by omega
      decide +kernel
    · -- The load releases fetch in cycle 16.
      exact absurd (stalled 16 (by decide) (by omega)) (by decide +kernel)
  · rintro (arrived | ⟨⟨pending, _⟩ | ⟨pending, _⟩, _⟩)
    · exact absurd arrived (by decide +kernel)
    · exact absurd pending (by decide +kernel)
    · exact absurd pending (by decide +kernel)

end MyCpu.PipelinedCPU
