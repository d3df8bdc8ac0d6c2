import MyCpu.Lib.WrappingCounter
import MyCpu.Verified.PipelineRun

/-! # Counters of the CSR file in a run

A counter that is neither inhibited nor written rises by one in every cycle of its event. -/

namespace MyCpu.PipelinedCPU

variable (cpu : PipelinedCPU) (io : Inputs)

/-- The counter is neither inhibited nor written in this cycle. -/
structure CountsFreely (counter : Counter) : Prop where
  uninhibited : cpu.csrRegs.mcountinhibit.getLsbD counter.number = false
  unwritten : (csrWrite cpu io).enable = true →
    (csrWrite cpu io).address ≠ counter.lowAddress ∧ (csrWrite cpu io).address ≠ counter.highAddress

variable {cpu io}

theorem CountsFreely.step {counter : Counter} (free : CountsFreely cpu io counter) :
    (step cpu io).csrRegs.counters counter =
      cpu.csrRegs.counters counter + BitVec.ofNat 64 (counterEvent cpu io counter).toNat := by
  have next : (PipelinedCPU.step cpu io).csrRegs.counters counter =
      CSR.nextCounter cpu.csrRegs (csrWrite cpu io) (counterEvent cpu io) counter := rfl
  have notLow : ((csrWrite cpu io).enable && (csrWrite cpu io).address =
      counter.lowAddress) = false := by
    rw [Bool.and_eq_false_imp]
    exact fun enabled => decide_eq_false (free.unwritten enabled).1
  have notHigh : ((csrWrite cpu io).enable && (csrWrite cpu io).address =
      counter.highAddress) = false := by
    rw [Bool.and_eq_false_imp]
    exact fun enabled => decide_eq_false (free.unwritten enabled).2
  rw [next, CSR.nextCounter, notLow, notHigh, free.uninhibited]
  cases counterEvent cpu io counter with
  | true => rfl
  | false => exact (BitVec.add_zero _).symm

theorem toNat_small (event : Bool) : event.toNat < 2 ^ 64 :=
  (Bool.toNat_le event).trans_lt (by decide)

theorem toNat_inj {event event' : Bool} (same : event.toNat = event'.toNat) : event = event' := by
  cases event <;> cases event' <;> first | rfl | cases same

/-! ## Programs without CSR instructions -/

/-- No CSR instruction is in ID or EX, and no counter is inhibited. -/
structure CsrUntouched (cpu : PipelinedCPU) : Prop where
  id : InstructionDecode.opcode cpu.if2id.instruction ≠ Instructions.csr
  ex : cpu.id2ex.csrWriteEnable = false
  counting : cpu.csrRegs.mcountinhibit = 0#32

theorem nop_notCsr : InstructionDecode.opcode InstructionsNop.nop ≠ Instructions.csr := by decide

/-- No word of a program is a CSR instruction. -/
def NoCsr (words : List Word) : Prop :=
  ∀ word ∈ words, InstructionDecode.opcode word ≠ Instructions.csr

instance (words : List Word) : Decidable (NoCsr words) := List.decidableBAll _ words

theorem script_noCsr {words : List Word} (none : NoCsr words) (n : ℕ) :
    InstructionDecode.opcode (Inputs.script words n).instruction ≠ Instructions.csr := by
  rw [Inputs.script, Inputs.fetch, List.getD_eq_getElem?_getD]
  cases presented : words[n]? with
  | none => exact nop_notCsr
  | some word => exact none word (List.mem_of_getElem? presented)

namespace CsrUntouched

theorem step (untouched : CsrUntouched cpu)
    (other : InstructionDecode.opcode io.instruction ≠ Instructions.csr) :
    CsrUntouched (step cpu io) where
  id := by
    -- ID holds its word, a `nop`, or the fetched word
    have fetched :
        InstructionDecode.opcode (if2idInput cpu.instFetch.predict cpu io).instruction ≠
          Instructions.csr := by
      rw [if2idInput, InstructionFetch.idInstruction, fetchInputs]
      cases io.instructionValid with
      | true => exact other
      | false => exact nop_notCsr
    simp only [PipelinedCPU.step, stepWith, pipelineRegister]
    split_ifs
    · exact nop_notCsr
    · exact fetched
    · exact untouched.id
  ex := by
    have decoded : InstructionDecode.exCsrWriteEnable cpu.if2id.instruction = false := by
      rw [InstructionDecode.exCsrWriteEnable, decide_eq_false untouched.id, Bool.false_and]
    simp only [PipelinedCPU.step, stepWith, pipelineRegister]
    split_ifs
    · rfl
    · exact decoded
    · exact untouched.ex
  counting := by
    have disabled : (csrWrite cpu io).enable = false := untouched.ex
    simp only [PipelinedCPU.step, stepWith, CSR.step, disabled, Bool.false_and,
      Bool.false_eq_true, if_false]
    exact untouched.counting

theorem countsFreely (untouched : CsrUntouched cpu) (counter : Counter) :
    CountsFreely cpu io counter where
  uninhibited := by
    rw [untouched.counting]
    exact BitVec.getLsbD_zero
  unwritten := by
    intro enabled
    have disabled : (csrWrite cpu io).enable = false := untouched.ex
    exact absurd (disabled.symm.trans enabled) Bool.false_ne_true

end CsrUntouched

section Run

variable {contents : PowerUp} {inputs : ℕ → Inputs}

/-- Every counter counts freely in a run that fetches no CSR instruction. -/
theorem countsFreely_always
    (other : ∀ n, InstructionDecode.opcode (inputs n).instruction ≠ Instructions.csr)
    (counter : Counter) (n : ℕ) : CountsFreely (stateAt contents inputs n) (inputs n) counter := by
  have untouched : CsrUntouched (stateAt contents inputs n) := by
    induction n with
    | zero => exact ⟨nop_notCsr, rfl, rfl⟩
    | succ n inductionHypothesis => exact inductionHypothesis.step (other n)
  exact untouched.countsFreely counter

theorem counter_reset (counter : Counter) :
    (stateAt contents inputs 0).csrRegs.counters counter = 0#64 := rfl

end Run

end MyCpu.PipelinedCPU
