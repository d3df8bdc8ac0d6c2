import MyCpu.Verified.Backend
import MyCpu.Verified.DecodeExecute

/-! # The instruction in ID

The comparator of ID resolves a branch or a jump on the registers after EX, once no
hazard says that its operands are stale; what it resolves is the successor that the
instruction set defines.  The instruction then leaves ID in one of three ways: as
itself, which is a step of the instruction set; as the early copy of a branch or
jump that stays in ID, which can only write the link register of that jump; or, in
a bubble and in the `mret` of the handler, as nothing. -/

namespace MyCpu

open Rv32im (Hart Instr Event Encodes)

namespace System

variable {program : Rv32im.Program} {predictions : Predictions}
    {system : System} {stimulus : Stimulus}

/-! ## What ID holds -/

structure IdHolds (system : System) : Prop where
  bubble : system.id = .bubble → system.cpu.if2id.instruction = InstructionsNop.nop
  handler : system.id = .handler → system.cpu.if2id.instruction = InstructionsRet.mret
  instruction : system.id = .instruction → ∃ instr, Encodes system.cpu.if2id.instruction instr
  original : system.id ≠ .reissued

theorem branchHazard_jump (hazard : PipelinedCPU.branchHazard system.cpu = true) :
    PipelinedCPU.isBranchOrJump system.cpu = true := by
  simp only [PipelinedCPU.branchHazard, Control.branchHazard, Control.exHazardForBranch,
    Control.memHazardForBranch, Bool.and_eq_true, Bool.or_eq_true] at hazard
  obtain ex | mem := hazard.2
  · exact ex.1
  · exact mem.1.1

theorem branchHazard_notJal (hazard : PipelinedCPU.branchHazard system.cpu = true) :
    InstructionDecode.opcode system.cpu.if2id.instruction ≠ Instructions.jal := by
  -- a JAL names no source register
  intro code
  have first : (PipelinedCPU.ctrl system.cpu).rs1Id = 0#5 :=
    InstructionDecode.reg1_unused
      (by rw [InstructionDecode.usesRs1, InstructionDecode.csrUsesUimm, code]; rfl)
  have second : (PipelinedCPU.ctrl system.cpu).rs2Id = 0#5 := by
    change InstructionDecode.regsReg2ReadAddress system.cpu.if2id.instruction = 0#5
    rw [InstructionDecode.regsReg2ReadAddress, InstructionDecode.usesRs2, code]
    rfl
  have unnamed : ∀ rd, Control.names (PipelinedCPU.ctrl system.cpu) rd = false := by
    intro rd
    simp [Control.names, first, second]
  simp [PipelinedCPU.branchHazard, Control.branchHazard, Control.exHazardForBranch,
    Control.memHazardForBranch, unnamed] at hazard

theorem jump_noAccess {word : Word} (jump : InstructionDecode.ctrlJumpInstruction word = true) :
    InstructionDecode.exMemoryReadEnable word = false ∧
      InstructionDecode.exMemoryWriteEnable word = false := by
  simp only [InstructionDecode.ctrlJumpInstruction, Bool.or_eq_true, decide_eq_true_eq] at jump
  rw [InstructionDecode.exMemoryReadEnable, InstructionDecode.exMemoryWriteEnable]
  obtain (code | code) | code := jump
  all_goals
    rw [code]
    exact ⟨rfl, rfl⟩

theorem issuable (holds : IdHolds system) : Issuable system := by
  cases occupant : system.id with
  | reissued => exact absurd occupant holds.original
  | bubble =>
    refine ⟨⟨fun _ => ?_, fun _ => ?_⟩, ?_⟩
    all_goals rw [holds.bubble occupant]
    · exact ⟨rfl, rfl⟩
    · rfl
    · rfl
  | handler =>
    refine ⟨⟨fun _ => ?_, fun _ => ?_⟩, ?_⟩
    all_goals rw [holds.handler occupant]
    · exact ⟨rfl, rfl⟩
    · rfl
    · rfl
  | instruction =>
    obtain ⟨instr, encodes⟩ := holds.instruction occupant
    refine ⟨⟨?_, ?_⟩, ?_⟩
    · -- only a jump that waits for an operand is copied
      intro copy
      cases hazard : PipelinedCPU.branchHazard system.cpu with
      | true => exact jump_noAccess (branchHazard_jump hazard)
      | false =>
        rw [issues, hazard] at copy
        simp [occupant] at copy
    · intro passive
      rw [issues, occupant] at passive
      split_ifs at passive
      all_goals exact Bool.noConfusion passive
    · rw [InstructionDecode.exCsrWriteEnable, decide_eq_false (encodes_notCsr encodes)]
      rfl

/-! ## The comparator -/

/-- The registers that the early copies of the word in ID may already have changed: the link
    register of a JALR, unless the JALR reads it. -/
def Stale (word : Word) (r : RegAddr) : Prop :=
  InstructionDecode.opcode word = Instructions.jalr ∧
    Rv32im.rd word ≠ Rv32im.rs1 word ∧ r = Rv32im.rd word

theorem operandsAgree {word : Word} {state : ArchState} {hart : Hart}
    (represents : Represents state hart (Stale word)) :
    OperandsAgree word state.regs hart where
  reg1 := represents.get fun _ stale => by
    obtain ⟨code, other, target⟩ := stale
    rw [reg1_used _ (by rw [InstructionDecode.usesRs1, code]; rfl)] at target
    exact other target.symm
  reg2 := represents.get fun nonzero stale => by
    obtain ⟨code, _, _⟩ := stale
    have unused : InstructionDecode.usesRs2 word = false := by
      rw [InstructionDecode.usesRs2, code]
      rfl
    rw [InstructionDecode.regsReg2ReadAddress, unused] at nonzero
    exact nonzero rfl

theorem afterEx_unnamed (ready : PipelinedCPU.branchHazard system.cpu = false)
    (jump : PipelinedCPU.isBranchOrJump system.cpu = true) {rs : RegAddr}
    (source : rs = PipelinedCPU.rs1Id system.cpu ∨ rs = PipelinedCPU.rs2Id system.cpu) :
    (afterEx system).regs.get rs = (afterMem system).regs.get rs := by
  have notEx := (PipelinedCPU.branchHazard_false ready jump).1
  have write : (afterEx system).regs.get rs =
      if (executing system).regsWriteEnable = true ∧
        rs = (executing system).regsWriteAddress ∧ rs ≠ 0#5
      then (executing system).value (afterMem system).memory else (afterMem system).regs.get rs :=
    RegisterFile.get_write _ _ _ _
  rw [write, if_neg fun all => PipelinedCPU.not_names notEx source all.2.2 all.2.1]

variable (program stimulus) in
theorem compares {hart : Hart} (steady : Steady system)
    (represents : Represents (afterEx system) hart (Stale system.cpu.if2id.instruction))
    (ready : PipelinedCPU.branchHazard system.cpu = false)
    (jump : PipelinedCPU.isBranchOrJump system.cpu = true) :
    Compares system.cpu.if2id.instruction
      (PipelinedCPU.idReg1Data system.cpu (inputs program system stimulus))
      (PipelinedCPU.idReg2Data system.cpu (inputs program system stimulus)) hart := by
  obtain ⟨reg1, reg2⟩ := operandsAgree represents
  refine ⟨?_, ?_⟩
  · rw [← reg1, PipelinedCPU.idReg1Data_drained steady.accessing ready jump, drained_eq]
    exact (afterEx_unnamed ready jump (Or.inl rfl)).symm
  · rw [← reg2, PipelinedCPU.idReg2Data_drained steady.accessing ready jump, drained_eq]
    exact (afterEx_unnamed ready jump (Or.inr rfl)).symm

/-! ## Leaving ID -/

section Leaving

variable {hart : Hart} {instr : Instr} (running : memStall program system stimulus = false)
  (kept : PipelinedCPU.id2exFlush system.cpu (inputs program system stimulus) = false)

include running kept

theorem ex_issued : (stepWith program predictions system stimulus).ex = issues system := by
  obtain ⟨flush, _⟩ | ⟨_, _, taken⟩ := id2ex_running predictions running
  · rw [kept] at flush
    exact Bool.noConfusion flush
  · exact taken

variable (steady : Steady system)

include steady

variable (predictions) in
theorem executing_issued : executing (stepWith program predictions system stimulus) =
    (decodedWord system.cpu.if2id.instruction system.cpu.if2id.instructionAddress
      (PipelinedCPU.idRegDataForwarded system.cpu (inputs program system stimulus)
        (PipelinedCPU.rs1Id system.cpu))
      (PipelinedCPU.idRegDataForwarded system.cpu (inputs program system stimulus)
        (PipelinedCPU.rs2Id system.cpu))
      (CSR.regLUT system.cpu.csrRegs
        (InstructionDecode.exCsrAddress system.cpu.if2id.instruction))).executed
      (afterEx system).regs := by
  obtain ⟨flush, _⟩ | ⟨_, issued, _⟩ := id2ex_running predictions running
  · rw [kept] at flush
    exact Bool.noConfusion flush
  · rw [executing, afterMem_running steady running, issued, id2exInput_eq]

variable (predictions) in
theorem issue_instruction (encodes : Encodes system.cpu.if2id.instruction instr)
    (inside : Rv32im.InsideWord instr hart)
    (address : system.cpu.if2id.instructionAddress = hart.pc)
    (represents : Represents (afterEx system) hart (Stale system.cpu.if2id.instruction))
    (issued : issues system = .instruction) :
    Represents (afterEx (stepWith program predictions system stimulus))
      (instr.exec hart) (fun _ => False) ∧
      exEvents (stepWith program predictions system stimulus) = instr.events hart := by
  have executes := executing_issued predictions running kept steady
  rw [address, executed_decodedWord (operandsAgree represents)] at executes
  constructor
  · rw [afterEx, executes, afterMem_running steady running]
    refine represents_executedWord encodes inside represents ?_
    rintro r nonzero ⟨code, _, rfl⟩
    -- A JALR writes its link register again.
    cases encodes with
    | jalr _ form =>
      subst form
      exact ⟨hart.pc + 4#32, by simp [Instr.effectiveWrite, Instr.regWrite, Option.filter, nonzero]⟩
    | lui other | auipc other | jal other | fence other | mulDiv other =>
      exact absurd (other.symm.trans code) (by decide)
    | branch _ other | load _ other | store _ other | opImm _ other | opReg _ other =>
      exact absurd (other.symm.trans code) (by decide)
  · rw [exEvents, ex_issued running kept, if_pos issued, executes, afterMem_running steady running,
      represents.memory]
    exact events_executedWord encodes inside

theorem issue_reissued (hazard : PipelinedCPU.branchHazard system.cpu = true)
    (unread : InstructionDecode.opcode system.cpu.if2id.instruction = Instructions.jalr →
      Rv32im.rd system.cpu.if2id.instruction ≠ Rv32im.rs1 system.cpu.if2id.instruction)
    (represents : Represents (afterEx system) hart (Stale system.cpu.if2id.instruction)) :
    Represents (afterEx (stepWith program predictions system stimulus)) hart
      (Stale system.cpu.if2id.instruction) := by
  -- the early copy of a branch or jump leaves all but the link register of a JALR alone
  have executes := executing_issued predictions running kept steady
  have noStore :
      (executing (stepWith program predictions system stimulus)).memoryWriteEnable = false := by
    rw [executes]
    exact (jump_noAccess (branchHazard_jump hazard)).2
  have target : (executing (stepWith program predictions system stimulus)).regsWriteAddress =
      Rv32im.rd system.cpu.if2id.instruction := by
    rw [executes]
    rfl
  have enable : (executing (stepWith program predictions system stimulus)).regsWriteEnable =
      InstructionDecode.exRegWriteEnable system.cpu.if2id.instruction := by
    rw [executes]
    rfl
  rw [afterEx, afterMem_running steady running]
  refine ⟨?_, ?_⟩
  · rw [EX2MEM.apply, EX2MEM.nextMemory, EX2MEM.store, noStore, if_neg Bool.false_ne_true]
    exact represents.memory
  · intro r nonzero current
    rw [apply_regs, EX2MEM.regWrite, enable, target]
    by_cases jalr : InstructionDecode.opcode system.cpu.if2id.instruction = Instructions.jalr
    · have other : r ≠ Rv32im.rd system.cpu.if2id.instruction :=
        fun same => current ⟨jalr, unread jalr, same⟩
      split_ifs
      · simp only [if_neg other]
        exact represents.regs r nonzero current
      · exact represents.regs r nonzero current
    · -- A branch writes no register.
      have branch : InstructionDecode.opcode system.cpu.if2id.instruction = InstructionTypes.B := by
        simpa [PipelinedCPU.isBranchOrJump, InstructionDecode.ctrlJumpInstruction,
          branchHazard_notJal hazard, jalr] using branchHazard_jump hazard
      rw [InstructionDecode.exRegWriteEnable, branch, if_neg fun both => absurd both.1 (by decide)]
      exact represents.regs r nonzero current

end Leaving

theorem issue_nothing (steady : Steady system) (running : memStall program system stimulus = false)
    (passable : Passable system)
    (passive : (stepWith program predictions system stimulus).ex.passive = true) :
    afterEx (stepWith program predictions system stimulus) = afterEx system := by
  rw [afterEx_passive (steady_running steady running passable) passive,
    afterMem_running steady running]

theorem exEvents_other (other : system.ex ≠ .instruction) : exEvents system = [] := by
  rw [exEvents, if_neg other]

end System

end MyCpu
