import Mathlib.Tactic.MkIffOfInductiveProp
import MyCpu.Verified.System

/-! # Runs that come back to a state

A loop that finds its results in the registers, in the data memory and in the BTB comes
back to a state in which it has been before.  From then on the run repeats itself, so
what holds in finitely many cycles holds in all of them. -/

namespace MyCpu.System

/-- Two systems agree in everything but the data memory, value by value. -/
@[mk_iff] structure Alike (first second : System) : Prop where
  occupants : (first.id, first.ex, first.mem) = (second.id, second.ex, second.mem)
  registers : ∀ address, first.cpu.regs address = second.cpu.regs address
  front : (first.cpu.instFetch.pc, first.cpu.instFetch.pendingJump,
    first.cpu.instFetch.pendingJumpAddr,
      first.cpu.instFetch.prevJumpFlag, first.cpu.instFetch.prevJumpAddr, first.cpu.if2id) =
    (second.cpu.instFetch.pc, second.cpu.instFetch.pendingJump,
    second.cpu.instFetch.pendingJumpAddr,
      second.cpu.instFetch.prevJumpFlag, second.cpu.instFetch.prevJumpAddr, second.cpu.if2id)
  back : (first.cpu.id2ex, first.cpu.ex2mem, first.cpu.mem, first.cpu.mem2wb) =
    (second.cpu.id2ex, second.cpu.ex2mem, second.cpu.mem, second.cpu.mem2wb)
  corrections : (first.cpu.btbMispredictPending, first.cpu.btbCorrectionAddrPending) =
    (second.cpu.btbMispredictPending, second.cpu.btbCorrectionAddrPending)
  btb : ∀ index, (first.cpu.instFetch.btb.valid index, first.cpu.instFetch.btb.tags index,
      first.cpu.instFetch.btb.targets index, first.cpu.instFetch.btb.counters index) =
    (second.cpu.instFetch.btb.valid index, second.cpu.instFetch.btb.tags index,
      second.cpu.instFetch.btb.targets index, second.cpu.instFetch.btb.counters index)
  ras : ∀ index, (first.cpu.instFetch.ras.sp, first.cpu.instFetch.ras.stack index) =
    (second.cpu.instFetch.ras.sp, second.cpu.instFetch.ras.stack index)
  ibtb : ∀ index, (first.cpu.instFetch.ibtb.valid index, first.cpu.instFetch.ibtb.pcTags index,
      first.cpu.instFetch.ibtb.rs1Hashs index, first.cpu.instFetch.ibtb.targets index,
      first.cpu.instFetch.ibtb.ages index) =
    (second.cpu.instFetch.ibtb.valid index, second.cpu.instFetch.ibtb.pcTags index,
      second.cpu.instFetch.ibtb.rs1Hashs index, second.cpu.instFetch.ibtb.targets index,
      second.cpu.instFetch.ibtb.ages index)
  csrs : (first.cpu.csrRegs.mstatus, first.cpu.csrRegs.mie, first.cpu.csrRegs.mtvec,
    first.cpu.csrRegs.mscratch,
      first.cpu.csrRegs.mepc, first.cpu.csrRegs.mcause, first.cpu.csrRegs.mcountinhibit) =
    (second.cpu.csrRegs.mstatus, second.cpu.csrRegs.mie, second.cpu.csrRegs.mtvec,
    second.cpu.csrRegs.mscratch,
      second.cpu.csrRegs.mepc, second.cpu.csrRegs.mcause, second.cpu.csrRegs.mcountinhibit)
  counters : ∀ counter ∈ Counter.all,
    (first.cpu.csrRegs.counters counter, first.cpu.csrRegs.shadows counter) =
    (second.cpu.csrRegs.counters counter, second.cpu.csrRegs.shadows counter)

set_option synthInstance.maxSize 400 in
instance (first second : System) : Decidable (Alike first second) :=
  decidable_of_iff _ (alike_iff first second).symm

attribute [ext] System PipelinedCPU InstructionFetch BranchTargetBuffer ReturnAddressStack IndirectBTB CSR

theorem Alike.eq {first second : System} (alike : Alike first second)
    (memory : first.dataMemory = second.dataMemory) : first = second := by
  obtain ⟨occupants, registers, front, back, corrections, btb, ras, ibtb, csrs, counters⟩ := alike
  simp only [Prod.mk.injEq] at occupants front back corrections btb ras ibtb csrs counters
  have all : ∀ counter, counter ∈ Counter.all := by
    intro counter
    cases counter <;> decide
  obtain ⟨id, ex, mem⟩ := occupants
  obtain ⟨pc, pendingJump, pendingJumpAddr, prevJumpFlag, prevJumpAddr, if2id⟩ := front
  obtain ⟨id2ex, ex2mem, access, mem2wb⟩ := back
  obtain ⟨mstatus, mie, mtvec, mscratch, mepc, mcause, mcountinhibit⟩ := csrs
  -- the tables agree in every entry, so they are equal as functions
  have btb' : first.cpu.instFetch.btb = second.cpu.instFetch.btb :=
    BranchTargetBuffer.ext (funext fun index => (btb index).1) (funext fun index => (btb index).2.1)
      (funext fun index => (btb index).2.2.1) (funext fun index => (btb index).2.2.2)
  have ras' : first.cpu.instFetch.ras = second.cpu.instFetch.ras :=
    ReturnAddressStack.ext (funext fun index => (ras index).2) (ras 0#2).1
  have ibtb' : first.cpu.instFetch.ibtb = second.cpu.instFetch.ibtb :=
    IndirectBTB.ext (funext fun index => (ibtb index).1) (funext fun index => (ibtb index).2.1)
      (funext fun index => (ibtb index).2.2.1) (funext fun index => (ibtb index).2.2.2.1)
      (funext fun index => (ibtb index).2.2.2.2)
  have csrRegs : first.cpu.csrRegs = second.cpu.csrRegs :=
    CSR.ext mstatus mie mtvec mscratch mepc mcause mcountinhibit
      (funext fun counter => (counters counter (all counter)).1)
      (funext fun counter => (counters counter (all counter)).2)
  have fetch : first.cpu.instFetch = second.cpu.instFetch :=
    InstructionFetch.ext pc btb' ras' ibtb' pendingJump pendingJumpAddr prevJumpFlag prevJumpAddr
  exact System.ext (PipelinedCPU.ext
    (funext registers) fetch if2id id2ex ex2mem access mem2wb csrRegs corrections.1
    corrections.2) memory id ex mem

/-! ## What a loop finds in place -/

/-- An update of the BTB that leaves it as it is: its entry has the target, and its counter is
    saturated. -/
def Repeats (cpu : PipelinedCPU) (io : PipelinedCPU.Inputs) : Prop :=
  (PipelinedCPU.fetchInputs cpu io).btbUpdateValid = true →
    let index := BranchTargetBuffer.getIndex 5 (PipelinedCPU.fetchInputs cpu io).btbUpdatePc
    (cpu.instFetch.btb.entryHit (PipelinedCPU.fetchInputs cpu io).btbUpdatePc,
        (PipelinedCPU.fetchInputs cpu io).btbUpdateTaken, cpu.instFetch.btb.counters index) =
          (true, true, 3#2) ∧
      cpu.instFetch.btb.targets index = (PipelinedCPU.fetchInputs cpu io).btbUpdateTarget

instance (cpu : PipelinedCPU) (io : PipelinedCPU.Inputs) : Decidable (Repeats cpu io) :=
  inferInstanceAs (Decidable (_ → _ ∧ _))

theorem update_repeated {btb : BranchTargetBuffer 5} {pc target : Word}
    (hit : btb.entryHit pc = true)
    (saturated : btb.counters (BranchTargetBuffer.getIndex 5 pc) = 3#2)
    (known : btb.targets (BranchTargetBuffer.getIndex 5 pc) = target) :
    btb.update pc target true = btb := by
  have found := hit
  simp only [BranchTargetBuffer.entryHit, Bool.and_eq_true, decide_eq_true_eq] at found
  rw [BranchTargetBuffer.update, if_pos rfl, if_pos hit, saturated, if_pos rfl]
  refine BranchTargetBuffer.ext ?_ ?_ ?_ ?_
  · exact (congrArg _ found.1.symm).trans (Function.update_eq_self _ _)
  · exact (congrArg _ found.2.symm).trans (Function.update_eq_self _ _)
  · exact (congrArg _ known.symm).trans (Function.update_eq_self _ _)
  · exact (congrArg _ saturated.symm).trans (Function.update_eq_self _ _)

theorem btb_repeated {cpu : PipelinedCPU} {io : PipelinedCPU.Inputs} (predictions : Predictions)
    (repeats : Repeats cpu io) :
    (PipelinedCPU.stepWith predictions cpu io).instFetch.btb = cpu.instFetch.btb := by
  change cpu.instFetch.btb.step (PipelinedCPU.fetchInputs cpu io).btbUpdateValid
    (PipelinedCPU.fetchInputs cpu io).btbUpdatePc (PipelinedCPU.fetchInputs cpu io).btbUpdateTarget
    (PipelinedCPU.fetchInputs cpu io).btbUpdateTaken = cpu.instFetch.btb
  cases updates : (PipelinedCPU.fetchInputs cpu io).btbUpdateValid with
  | false => rfl
  | true =>
    obtain ⟨state, known⟩ := repeats updates
    simp only [Prod.mk.injEq] at state
    rw [BranchTargetBuffer.step, if_pos rfl, state.2.1]
    exact update_repeated state.1 state.2.2 known

/-! ## The run of a loop -/

/-- The system with given contents of the BTB. -/
def withBtb (btb : BranchTargetBuffer 5) (system : System) : System :=
  { system with cpu := { system.cpu with instFetch := { system.cpu.instFetch with btb := btb } } }

theorem withBtb_same {btb : BranchTargetBuffer 5} {system : System}
    (same : system.cpu.instFetch.btb = btb) :
    withBtb btb system = system := by
  subst same
  rfl

section Loops

variable {Input : Type*} (step : System → Input → System)
    (io : System → Input → PipelinedCPU.Inputs)
  (stimulus : Input → Stimulus)

/-- One edge of the machine is one of the core and of its data memory. -/
structure Clocks : Prop where
  cpu : ∀ system input, ∃ predictions, (step system input).cpu =
    PipelinedCPU.stepWith predictions system.cpu (io system input)
  memory : ∀ system input, (step system input).dataMemory = nextMemory system (stimulus input)

variable (start : System) (inputs : ℕ → Input)

/-- The run in which the BTB keeps its contents. -/
def loopAt : ℕ → System :=
  Clocked.stateAt
    (fun system input => withBtb start.cpu.instFetch.btb (step system input)) start inputs

/-- What each cycle of a loop finds in place: its entry of the BTB, and the word that it stores. -/
structure Finds (address data : Word) (strobe : Strobe) (system : System) (input : Input) :
    Prop where
  repeats : Repeats system.cpu (io system input)
  rewrites : writeGranted system (stimulus input) = true →
    ((PipelinedCPU.bus system.cpu).address, (PipelinedCPU.bus system.cpu).writeData,
      (PipelinedCPU.bus system.cpu).writeStrobe) = (address, data, strobe)

instance (address data : Word) (strobe : Strobe) (system : System) (input : Input) :
    Decidable (Finds io stimulus address data strobe system input) :=
  decidable_of_iff (Repeats system.cpu (io system input) ∧ _)
    ⟨fun ⟨repeats, rewrites⟩ => ⟨repeats, rewrites⟩, fun finds => ⟨finds.repeats, finds.rewrites⟩⟩

variable {step io stimulus start inputs} (clocks : Clocks step io stimulus)
    {address data : Word} {strobe : Strobe}
  {last : ℕ}

include clocks

theorem loopAt_kept (written : writeWord start.dataMemory address data strobe = start.dataMemory)
    (finds : ∀ k < last, Finds io stimulus address data strobe
      (loopAt step start inputs k) (inputs k)) (k : ℕ)
    (bound : k ≤ last) : Clocked.stateAt step start inputs k = loopAt step start inputs k ∧
      (loopAt step start inputs k).cpu.instFetch.btb = start.cpu.instFetch.btb ∧
      (loopAt step start inputs k).dataMemory = start.dataMemory := by
  induction k with
  | zero => exact ⟨rfl, rfl, rfl⟩
  | succ k inductionHypothesis =>
    obtain ⟨state, btb, memory⟩ := inductionHypothesis (by omega)
    have found := finds k (by omega)
    have next : loopAt step start inputs (k + 1) =
        withBtb start.cpu.instFetch.btb (step (loopAt step start inputs k) (inputs k)) := rfl
    obtain ⟨predictions, core⟩ := clocks.cpu (loopAt step start inputs k) (inputs k)
    have same : (step (loopAt step start inputs k) (inputs k)).cpu.instFetch.btb =
        start.cpu.instFetch.btb := by
      rw [core, btb_repeated predictions found.repeats, btb]
    -- the update of the BTB changed nothing, so undoing it does not either
    rw [next, withBtb_same same]
    refine ⟨?_, same, ?_⟩
    · rw [Clocked.stateAt_succ, state]
    · rw [clocks.memory, nextMemory, memory]
      by_cases granted : writeGranted (loopAt step start inputs k) (stimulus (inputs k)) = true
      · -- the loop stores the word that the memory already holds
        have bus := found.rewrites granted
        simp only [Prod.mk.injEq] at bus
        rw [if_pos granted, bus.1, bus.2.1, bus.2.2, written]
      · exact if_neg granted

variable (start inputs) in
/-- What holds in the cycles up to the first return to a state holds in every cycle. -/
theorem loop_always (Holds : System → Input → Prop) (first period : ℕ) (positive : 0 < period)
    (constant : ∀ k ≥ first, inputs k = inputs first)
    (written : writeWord start.dataMemory address data strobe = start.dataMemory)
    (alike : Alike (loopAt step start inputs (first + period)) (loopAt step start inputs first))
    (finds : ∀ k < first + period,
    Finds io stimulus address data strobe (loopAt step start inputs k) (inputs k))
    (holds : ∀ k < first + period, Holds (loopAt step start inputs k) (inputs k)) (n : ℕ) :
    Holds (Clocked.stateAt step start inputs n) (inputs n) := by
  have kept := loopAt_kept clocks written finds
  obtain ⟨back, _, memory⟩ := kept (first + period) le_rfl
  obtain ⟨there, _, memory'⟩ := kept first (Nat.le_add_right _ _)
  have same : Clocked.stateAt step start inputs (first + period) =
      Clocked.stateAt step start inputs first := by
    rw [back, there]
    exact alike.eq (memory.trans memory'.symm)
  refine Clocked.periodic_always positive same constant (fun k bound => ?_) n
  rw [(kept k (Nat.le_of_lt bound)).1]
  exact holds k bound

end Loops

end MyCpu.System
