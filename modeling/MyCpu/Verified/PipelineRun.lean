import MyCpu.Core.PipelinedCpu
import MyCpu.Lib.Clocked

/-! # Runs of the pipeline

Runs from reset on an arbitrary stream of inputs (instructions, bus responses and
interrupts), and what one edge does to each stage boundary.  The boundary lemmas
split an edge into the cases that later arguments need: the boundary is flushed,
held, or captures the stage before it. -/

namespace MyCpu

/-- Contents of the memories and registers that have no reset value. -/
structure PowerUp where
  regs : RegisterFile
  btb : BranchTargetBuffer 5
  ras : ReturnAddressStack 2
  ibtb : IndirectBTB 3

/-- All registers zero and every predictor empty. -/
def PowerUp.zero : PowerUp where
  regs := fun _ => 0#32
  btb := BranchTargetBuffer.reset (fun _ => 0#32) (fun _ => 0#32)
  ras := ReturnAddressStack.reset (fun _ => 0#32)
  ibtb := IndirectBTB.reset (fun _ => 0#30) (fun _ => 0#8) (fun _ => 0#32)

namespace PipelinedCPU

/-- Inputs of one cycle with an immediate bus and no interrupt. -/
def Inputs.fetch (instruction : Word) : Inputs where
  instruction := instruction
  instructionValid := true
  interruptFlag := 0#32
  bus := ⟨0#32, true, true, true⟩

/-- The words that the instruction memory presents, cycle by cycle, then `nop`. -/
def Inputs.script (words : List Word) (n : ℕ) : Inputs := .fetch (words.getD n InstructionsNop.nop)

def powerUp (contents : PowerUp) : PipelinedCPU :=
  reset contents.regs contents.btb contents.ras contents.ibtb

/-- The core after `n` clock edges. -/
def stateAt (contents : PowerUp) (inputs : ℕ → Inputs) : ℕ → PipelinedCPU :=
  Clocked.stateAt step (powerUp contents) inputs

theorem stateAt_succ (contents : PowerUp) (inputs : ℕ → Inputs) (n : ℕ) :
    stateAt contents inputs (n + 1) = step (stateAt contents inputs n) (inputs n) := rfl

variable (cpu : PipelinedCPU) (io : Inputs)

/-! ## The ID boundary -/

/-- IF/ID takes the fetched instruction. -/
def acceptsFetch : Bool := !if2idStall cpu io && !if2idFlush cpu io && io.instructionValid

/-- IF/ID keeps its instruction for another cycle. -/
def holdsId : Bool := if2idStall cpu io && !if2idFlush cpu io

/-- ID/EX takes the instruction of ID. -/
def issuesId : Bool := !memStall cpu io && !id2exFlush cpu io

theorem if2id_held (held : holdsId cpu io = true) : (step cpu io).if2id = cpu.if2id := by
  simp only [holdsId, Bool.and_eq_true, Bool.not_eq_true'] at held
  obtain ⟨stalled, kept⟩ := held
  simp only [step, stepWith, stalled, kept, pipelineRegister_stall]

theorem if2id_accepted (accepted : acceptsFetch cpu io = true) :
    (step cpu io).if2id = if2idInput cpu.instFetch.predict cpu io := by
  simp only [acceptsFetch, Bool.and_eq_true, Bool.not_eq_true'] at accepted
  obtain ⟨⟨running, kept⟩, _⟩ := accepted
  simp only [step, stepWith, running, kept, pipelineRegister_capture]

theorem id2ex_issued (issued : issuesId cpu io = true) :
    (step cpu io).id2ex = id2exInput cpu io := by
  simp only [issuesId, Bool.and_eq_true, Bool.not_eq_true'] at issued
  obtain ⟨running, kept⟩ := issued
  simp only [step, stepWith, running, kept, pipelineRegister_capture]

theorem if2idFlush_memStall (stalled : memStall cpu io = true) : if2idFlush cpu io = false := by
  -- a memory stall never flushes IF/ID
  rw [if2idFlush, stalled]
  exact Bool.and_false _

theorem fetchStall_eq : fetchStall cpu io = if2idStall cpu io := rfl

theorem if2idStall_memStall (stalled : memStall cpu io = true) : if2idStall cpu io = true := by
  rw [if2idStall, stalled]
  exact Bool.or_true _

section Moving

variable {cpu io}

theorem holdsId_memStall (stalled : memStall cpu io = true) : holdsId cpu io = true := by
  rw [holdsId, if2idStall_memStall cpu io stalled, if2idFlush_memStall cpu io stalled]
  rfl

/-- Nothing leaves ID while MEM stalls. -/
theorem running_leaves (leaves : holdsId cpu io = false) : memStall cpu io = false := by
  by_contra stalled
  rw [holdsId_memStall (Bool.of_not_eq_false stalled)] at leaves
  exact Bool.noConfusion leaves

theorem branchHazard_free (free : Control.hazard (ctrl cpu) = false) :
    branchHazard cpu = false := by
  rw [branchHazard, Control.branchHazard, free]
  rfl

theorem id2exFlush_free (free : Control.hazard (ctrl cpu) = false) : id2exFlush cpu io = false := by
  rw [id2exFlush, Control.idFlush, free]
  rfl

theorem fetchStall_free (moves : fetchStall cpu io = false) : Control.hazard (ctrl cpu) = false :=
  (Bool.or_eq_false_iff.mp moves).1

theorem fetchStall_running (moves : fetchStall cpu io = false) : memStall cpu io = false :=
  (Bool.or_eq_false_iff.mp moves).2

end Moving

theorem needIfFlush_hazard (hazard : Control.hazard (ctrl cpu) = true) :
    needIfFlush cpu io = mispredicted cpu io := by
  -- a hazard keeps a taken transfer from flushing IF/ID
  simp [needIfFlush, Control.ifFlush, hazard]

theorem memAccessState_running (running : memStall cpu io = false) :
    (step cpu io).mem.memAccessState = .idle := by
  simp only [step, stepWith, MemoryAccess.step, MemoryAccess.nextState]
  simp only [memStall, MemoryAccess.ctrlStallFlag] at running
  cases state : cpu.mem.memAccessState with
  | idle =>
    rw [state] at running
    obtain ⟨noLoad, noStore⟩ := Bool.or_eq_false_iff.mp running
    rw [noLoad, noStore]
    rfl
  | read =>
    rw [state] at running
    rw [(Bool.not_eq_false' _).mp running]
    rfl
  | write =>
    rw [state] at running
    rw [(Bool.not_eq_false' _).mp running]
    rfl

end PipelinedCPU

end MyCpu
