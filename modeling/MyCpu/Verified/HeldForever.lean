import MyCpu.Verified.StallFreeze

/-! # A branch that waits for its own copy

A hazard on a branch holds it in ID without flushing ID/EX, so the branch enters EX
as well.  `Control` takes bits 11 to 7 of what is in EX for its destination; in a
branch they are bits of the offset.  When they name an operand of the branch, the
copy in EX counts as the producer of that operand, and the branch waits for it in
every cycle from then on: each cycle that moves the pipeline makes the next copy. -/

namespace MyCpu.PipelinedCPU

variable (cpu : PipelinedCPU) (io : Inputs)

/-- The `rd` bits of the word in ID name a register that the same word reads. -/
def namesItself : Bool := Control.names (ctrl cpu) (InstructionDecode.rd cpu.if2id.instruction)

/-- The word in ID stays there and enters EX. -/
def copiesHeld : Bool := holdsId cpu io && issuesId cpu io

def isBranch : Bool := InstructionDecode.opcode cpu.if2id.instruction = InstructionTypes.B

/-- A branch in ID is copied into EX, where its offset bits name its own operand. -/
def copiesItself : Bool := isBranch cpu && namesItself cpu && copiesHeld cpu io

/-- EX holds a copy of the branch in ID that counts as the producer of its operand. -/
structure WaitsForCopy : Prop where
  branch : isBranch cpu = true
  named : namesItself cpu = true
  copied : cpu.id2ex.regsWriteAddress = InstructionDecode.rd cpu.if2id.instruction
  source : cpu.id2ex.regsWriteSource = .aluResult
  noLoad : cpu.id2ex.memoryReadEnable = false
  memLink : Control.jalJalrHazardMem (ctrl cpu) = false
  wbLink : Control.jalJalrHazardWb (ctrl cpu) = false
  corrected : cpu.btbMispredictPending = false

variable {cpu io}

theorem isBranch_jump (branch : isBranch cpu = true) : isBranchOrJump cpu = true := by
  rw [isBranchOrJump, InstructionDecode.ctrlJumpInstruction]
  rw [isBranch] at branch
  rw [branch, Bool.or_true]

/-! ## One cycle -/

namespace WaitsForCopy

variable (waits : WaitsForCopy cpu)

include waits

theorem exNamed : Control.names (ctrl cpu) (ctrl cpu).rdEx = true := by
  have address : (ctrl cpu).rdEx = InstructionDecode.rd cpu.if2id.instruction := waits.copied
  rw [address]
  exact waits.named

theorem exHazard : Control.exHazardForBranch (ctrl cpu) = true := by
  have jump : (ctrl cpu).jumpInstructionId = true := isBranch_jump waits.branch
  rw [Control.exHazardForBranch, jump, waits.exNamed]
  rfl

theorem hazard : Control.hazard (ctrl cpu) = true := by
  have jump : (ctrl cpu).jumpInstructionId = true := isBranch_jump waits.branch
  simp only [Control.hazard, jump, waits.exNamed, Bool.true_or, Bool.true_and]

theorem branchHazard : branchHazard cpu = true := by
  rw [PipelinedCPU.branchHazard, Control.branchHazard, waits.hazard, waits.exHazard]
  rfl

theorem exLink : Control.jalJalrHazardEx (ctrl cpu) = false := by
  have source : (ctrl cpu).regsWriteSourceEx = .aluResult := waits.source
  rw [Control.jalJalrHazardEx, source]
  rfl

theorem unlinked : Control.isJalJalrHazard (ctrl cpu) = false := by
  rw [Control.isJalJalrHazard, waits.exLink, waits.memLink, waits.wbLink]
  rfl

theorem id2exFlush (io : Inputs) : id2exFlush cpu io = false := by
  have noLoad : (ctrl cpu).memoryReadEnableEx = false := waits.noLoad
  rw [PipelinedCPU.id2exFlush, Control.idFlush, Control.isLoadUseHazard, noLoad, waits.unlinked]
  simp only [Bool.false_and, Bool.or_false, Bool.and_false]

theorem mispredicted (io : Inputs) : mispredicted cpu io = false := by
  -- every kind of misprediction waits for the hazard, and no correction is due
  simp [PipelinedCPU.mispredicted, btbMispredict, btbMispredictRaw,
    pendingCorrectionDue, rasWrongTarget, ibtbWrongTarget, waits.branchHazard, waits.corrected]

theorem if2idFlush (io : Inputs) : if2idFlush cpu io = false := by
  rw [PipelinedCPU.if2idFlush, needIfFlush_hazard cpu io waits.hazard, waits.mispredicted io]
  rfl

theorem fetchStall (io : Inputs) : fetchStall cpu io = true := by
  rw [PipelinedCPU.fetchStall, pcStall, Control.pcStall, waits.hazard]
  rfl

end WaitsForCopy

/-! ## The boundaries behind ID after an edge -/

/-- No read is under way when MEM moves. -/
theorem inActiveRead_running (running : memStall cpu io = false) :
    MemoryAccess.inActiveRead cpu.mem io.bus = false := by
  rw [memStall, MemoryAccess.ctrlStallFlag] at running
  rw [MemoryAccess.inActiveRead]
  cases state : cpu.mem.memAccessState with
  | read =>
    rw [state] at running
    exact (Bool.and_eq_false_iff).mpr (Or.inr running)
  | write | idle => rfl

theorem names_kept {next : PipelinedCPU} (kept : next.if2id = cpu.if2id) (rd : RegAddr) :
    Control.names (ctrl next) rd = Control.names (ctrl cpu) rd := by
  have first : (ctrl next).rs1Id = (ctrl cpu).rs1Id := by
    rw [ctrl, ctrl, rs1Id, rs1Id, kept]
  have second : (ctrl next).rs2Id = (ctrl cpu).rs2Id := by
    rw [ctrl, ctrl, rs2Id, rs2Id, kept]
  rw [Control.names, Control.names, first, second]

section Edge

variable (predictions : Predictions)

theorem jalJalrHazardMem_kept (kept : (stepWith predictions cpu io).if2id = cpu.if2id)
    (ex : Control.jalJalrHazardEx (ctrl cpu) = false)
    (mem : Control.jalJalrHazardMem (ctrl cpu) = false) :
    Control.jalJalrHazardMem (ctrl (stepWith predictions cpu io)) = false := by
  rw [Control.jalJalrHazardMem, names_kept kept]
  cases waits : memStall cpu io with
  | true =>
    have held : (stepWith predictions cpu io).ex2mem = cpu.ex2mem := by
      simp only [stepWith, waits, pipelineRegister_stall]
    simp only [ctrl, held]
    exact mem
  | false =>
    have moved : (stepWith predictions cpu io).ex2mem = ex2memInput cpu io := by
      simp only [stepWith, waits, pipelineRegister_capture]
    simp only [ctrl, moved]
    exact ex

theorem jalJalrHazardWb_kept (kept : (stepWith predictions cpu io).if2id = cpu.if2id)
    (mem : Control.jalJalrHazardMem (ctrl cpu) = false)
    (wb : Control.jalJalrHazardWb (ctrl cpu) = false) :
    Control.jalJalrHazardWb (ctrl (stepWith predictions cpu io)) = false := by
  rw [Control.jalJalrHazardWb, names_kept kept]
  cases waits : memStall cpu io with
  | true =>
    have held : (stepWith predictions cpu io).mem2wb = cpu.mem2wb := by
      simp only [stepWith, waits, pipelineRegister_stall]
    simp only [ctrl, held]
    exact wb
  | false =>
    have moved : (stepWith predictions cpu io).mem2wb = mem2wbInput cpu io := by
      simp only [stepWith, waits, pipelineRegister_capture]
    simp only [ctrl, moved, mem2wbInput, MemoryAccess.wbRegsWriteSource,
      MemoryAccess.wbRegsWriteAddress, inActiveRead_running waits, Bool.false_eq_true, if_false]
    exact mem

theorem pc_stalled (stalls : fetchStall cpu io = true) :
    (stepWith predictions cpu io).instFetch.pc = cpu.instFetch.pc := by
  simp [stepWith, InstructionFetch.step, InstructionFetch.nextPc, InstructionFetch.takePending,
    InstructionFetch.takeBtbCorrection, InstructionFetch.takeCurrent, fetchInputs, stalls]

/-- The copy of a branch in EX: it counts as writing the register that its `rd` bits name. -/
theorem branch_copied (branch : isBranch cpu = true) :
    (id2exInput cpu io).regsWriteSource = .aluResult ∧
      (id2exInput cpu io).memoryReadEnable = false := by
  have code : InstructionDecode.opcode cpu.if2id.instruction = InstructionTypes.B :=
    of_decide_eq_true branch
  simp only [id2exInput, InstructionDecode.exRegWriteSource,
    InstructionDecode.exMemoryReadEnable, code]
  exact ⟨rfl, rfl⟩

theorem WaitsForCopy.step (waits : WaitsForCopy cpu) (io : Inputs) :
    WaitsForCopy (stepWith predictions cpu io) ∧ (stepWith predictions cpu io).if2id = cpu.if2id ∧
      (stepWith predictions cpu io).instFetch.pc = cpu.instFetch.pc := by
  have stalls : if2idStall cpu io = true := waits.fetchStall io
  have kept : (stepWith predictions cpu io).if2id = cpu.if2id := by
    simp only [stepWith, stalls, waits.if2idFlush io, pipelineRegister_stall]
  have corrected : nextBtbMispredictPending cpu io = false := by
    have silent : btbMispredictRaw cpu io = false := by
      rw [btbMispredictRaw, waits.branchHazard]
      exact Bool.and_false _
    simp [nextBtbMispredictPending, silent, waits.corrected]
  have memLink := jalJalrHazardMem_kept predictions kept waits.exLink waits.memLink
  have wbLink := jalJalrHazardWb_kept predictions kept waits.memLink waits.wbLink
  -- EX keeps the copy or takes another one of the same branch
  have copy : (stepWith predictions cpu io).id2ex = cpu.id2ex ∨
      (stepWith predictions cpu io).id2ex = id2exInput cpu io := by
    simp only [stepWith, waits.id2exFlush io]
    cases memStall cpu io with
    | true => exact Or.inl rfl
    | false => exact Or.inr rfl
  obtain ⟨source, noLoad⟩ := @branch_copied _ io waits.branch
  refine ⟨⟨?_, ?_, ?_, ?_, ?_, memLink, wbLink, corrected⟩, kept, pc_stalled predictions
    (waits.fetchStall io)⟩
  · rw [isBranch, kept]
    exact waits.branch
  · rw [namesItself, names_kept kept, kept]
    exact waits.named
  · rw [kept]
    obtain held | copied := copy
    · rw [held]
      exact waits.copied
    · rw [copied]
      rfl
  · obtain held | copied := copy
    · rw [held]
      exact waits.source
    · rw [copied]
      exact source
  · obtain held | copied := copy
    · rw [held]
      exact waits.noLoad
    · rw [copied]
      exact noLoad

/-- A branch that is copied into EX while its offset bits name one of its operands waits for the
    copy. -/
theorem waits_copied (copies : copiesItself cpu io = true) :
    WaitsForCopy (stepWith predictions cpu io) ∧ (stepWith predictions cpu io).if2id = cpu.if2id ∧
      (stepWith predictions cpu io).instFetch.pc = cpu.instFetch.pc := by
  simp only [copiesItself, copiesHeld, holdsId, issuesId, Bool.and_eq_true,
    Bool.not_eq_true'] at copies
  obtain ⟨⟨branch, named⟩, ⟨stalls, unflushed⟩, running, issues⟩ := copies
  have kept : (stepWith predictions cpu io).if2id = cpu.if2id := by
    simp only [stepWith, stalls, unflushed, pipelineRegister_stall]
  have copied : (stepWith predictions cpu io).id2ex = id2exInput cpu io := by
    simp only [stepWith, running, issues, pipelineRegister_capture]
  -- the hazard that holds ID does not flush ID/EX, so no jump behind ID is waited for
  have hazard : Control.hazard (ctrl cpu) = true := by
    rw [if2idStall, running, Bool.or_false] at stalls
    exact stalls
  have unlinked : Control.isJalJalrHazard (ctrl cpu) = false := by
    rw [id2exFlush, running, Bool.not_false, Bool.true_or, Bool.and_true, Control.idFlush,
      hazard, Bool.true_and] at issues
    exact (Bool.or_eq_false_iff.mp issues).2
  simp only [Control.isJalJalrHazard, Bool.or_eq_false_iff] at unlinked
  obtain ⟨⟨ex, mem⟩, wb⟩ := unlinked
  obtain ⟨source, noLoad⟩ := @branch_copied _ io branch
  refine ⟨⟨?_, ?_, ?_, ?_, ?_, jalJalrHazardMem_kept predictions kept ex mem,
    jalJalrHazardWb_kept predictions kept mem wb, ?_⟩, kept, pc_stalled predictions stalls⟩
  · rw [isBranch, kept]
    exact branch
  · rw [namesItself, names_kept kept, kept]
    exact named
  · rw [copied, kept]
    rfl
  · rw [copied]
    exact source
  · rw [copied]
    exact noLoad
  · simp [stepWith, nextBtbMispredictPending, running]

end Edge

/-! ## Runs -/

/-- From any state of a run in which a branch is copied into EX while its offset bits name one of
    its own operands, the hazard is there in every later cycle, and ID keeps that branch and fetch
    its address, whatever the inputs are. -/
theorem held_forever (contents : PowerUp) (inputs : ℕ → Inputs) (n : ℕ)
    (copies : copiesItself (stateAt contents inputs n) (inputs n) = true) (m : ℕ) (later : n ≤ m) :
    (n < m → branchHazard (stateAt contents inputs m) = true) ∧
      (stateAt contents inputs m).if2id = (stateAt contents inputs n).if2id ∧
      (stateAt contents inputs m).instFetch.pc = (stateAt contents inputs n).instFetch.pc := by
  have waits : ∀ k, n < k → WaitsForCopy (stateAt contents inputs k) ∧
      (stateAt contents inputs k).if2id = (stateAt contents inputs n).if2id ∧
      (stateAt contents inputs k).instFetch.pc = (stateAt contents inputs n).instFetch.pc := by
    intro k after
    induction k, after using Nat.le_induction with
    | base => exact waits_copied (stateAt contents inputs n).instFetch.predict copies
    | succ k after inductionHypothesis =>
      obtain ⟨waits, id, pc⟩ := inductionHypothesis
      obtain ⟨waits', id', pc'⟩ :=
        waits.step (stateAt contents inputs k).instFetch.predict (inputs k)
      exact ⟨waits', id'.trans id, pc'.trans pc⟩
  obtain rfl | after := later.eq_or_lt
  · exact ⟨fun after => absurd after (Nat.lt_irrefl n), rfl, rfl⟩
  · obtain ⟨waits, kept⟩ := waits m after
    exact ⟨fun _ => waits.branchHazard, kept⟩

/-- `addi x13, x13, 1`, `bne x13, x0, -20`: the offset bits 11 to 7 of the branch are 13. -/
def countDownInputs : ℕ → Inputs := .script [0x00168693#32, 0xFE0696E3#32]

theorem countDown_held :
    copiesItself (stateAt .zero countDownInputs 2) (countDownInputs 2) = true ∧
      branchHazard (stateAt .zero countDownInputs 600) = true ∧
      (stateAt .zero countDownInputs 600).if2id = (stateAt .zero countDownInputs 2).if2id := by
  obtain ⟨hazard, held, _⟩ := held_forever .zero countDownInputs 2 (by decide) 600 (by decide)
  exact ⟨by decide, hazard (by decide), held⟩

end MyCpu.PipelinedCPU
