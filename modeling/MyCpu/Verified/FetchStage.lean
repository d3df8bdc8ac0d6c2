import MyCpu.Verified.PipelineRun

/-! # The fetch stage across an edge

Where the next pc comes from in a cycle in which fetch moves, what a stalled cycle
latches, and what a flushed boundary means for the cycle after it.  Everything that
depends on the predictors is stated for an arbitrary answer of theirs. -/

namespace MyCpu

/-- The address that fetch continues at after this instruction when nothing redirects it. -/
def IF2ID.predictedNext (fetched : IF2ID) : Word :=
  if fetched.rasPredictedValid then fetched.rasPredictedTarget
  else if fetched.ibtbPredictedValid then fetched.ibtbPredictedTarget
  else if fetched.btbPredictedTaken then fetched.btbPredictedTarget
  else fetched.instructionAddress + 4#32

namespace PipelinedCPU

variable (predictions : Predictions) (cpu : PipelinedCPU) (io : Inputs)

/-! ## A vacant ID stage -/

/-- ID holds a `nop` without a prediction: a flushed boundary, or a cycle without a valid fetch. -/
def idVacant : Prop :=
  cpu.if2id.instruction = InstructionsNop.nop ∧ cpu.if2id.btbPredictedTaken = false ∧
    cpu.if2id.rasPredictedValid = false ∧ cpu.if2id.ibtbPredictedValid = false

section Vacant

variable {cpu io}

theorem idVacant_nonBranch (vacant : idVacant cpu) : isBranchOrJump cpu = false := by
  rw [isBranchOrJump, vacant.1]
  decide

theorem nonBranch_actualTaken (nonBranch : isBranchOrJump cpu = false)
    (noTrap : interruptAssert cpu io = false) :
    actualTaken cpu io = false := by
  simp only [isBranchOrJump, InstructionDecode.ctrlJumpInstruction,
    Bool.or_eq_false_iff] at nonBranch
  obtain ⟨⟨jal, jalr⟩, branch⟩ := nonBranch
  simp [actualTaken, InstructionDecode.ifJumpFlag, noTrap, branchTaken,
    InstructionDecode.branchTaken, jal, jalr, branch]

theorem idVacant_actualTaken (vacant : idVacant cpu) (noTrap : interruptAssert cpu io = false) :
    actualTaken cpu io = false := nonBranch_actualTaken (idVacant_nonBranch vacant) noTrap

theorem idVacant_btbMispredictRaw (vacant : idVacant cpu) : btbMispredictRaw cpu io = false := by
  simp [btbMispredictRaw, btbWrongDirection, btbNonBranch, btbWrongTarget,
    btbActuallyUsed, vacant.2.1]

theorem idVacant_needIfFlush (vacant : idVacant cpu) (noTrap : interruptAssert cpu io = false)
    (settled : cpu.btbMispredictPending = false) : needIfFlush cpu io = false := by
  have notTaken := idVacant_actualTaken vacant noTrap
  have correct : btbMispredictRaw cpu io = false := idVacant_btbMispredictRaw vacant
  simp [needIfFlush, Control.ifFlush, notTaken, mispredicted, btbMispredict,
    correct, pendingCorrectionDue, rasWrongTarget, ibtbWrongTarget, settled,
    vacant.2.2.1, vacant.2.2.2]

theorem idVacant_flushed (flushed : if2idFlush cpu io = true) : idVacant (step cpu io) := by
  have empty : (step cpu io).if2id = IF2ID.bubble := by
    simp only [step, stepWith, flushed, pipelineRegister_flush]
  rw [idVacant, empty]
  exact ⟨rfl, rfl, rfl, rfl⟩

end Vacant

/-! ## A cycle in which fetch moves -/

/-- Something other than the prediction for the current pc decides the next pc. -/
def Redirects (cpu : PipelinedCPU) (io : Inputs) : Prop :=
  cpu.instFetch.pendingJump = true ∨ btbMispredict cpu io = true ∨
    (actualTaken cpu io = true ∧ btbCorrectPrediction cpu io = false)

/-- All redirects of the cycle agree on an address. -/
structure RedirectsTo (address : Word) : Prop where
  pending : cpu.instFetch.pendingJump = true → cpu.instFetch.pendingJumpAddr = address
  corrected : btbMispredict cpu io = true → btbCorrectionAddr cpu io = address
  taken : actualTaken cpu io = true → actualTarget cpu io = address

section Moving

variable {predictions cpu io}

theorem pc_running (running : fetchStall cpu io = false) :
    (stepWith predictions cpu io).instFetch.pc =
      if cpu.instFetch.pendingJump then cpu.instFetch.pendingJumpAddr
      else if btbMispredict cpu io then btbCorrectionAddr cpu io
      else if actualTaken cpu io && !btbCorrectPrediction cpu io then actualTarget cpu io
      else if io.instructionValid then IF2ID.predictedNext (if2idInput predictions cpu io)
      else cpu.instFetch.pc := by
  have following : InstructionFetch.defaultNextPc predictions cpu.instFetch (fetchInputs cpu io) =
      IF2ID.predictedNext (if2idInput predictions cpu io) := rfl
  simp only [stepWith, InstructionFetch.step, InstructionFetch.nextPc, InstructionFetch.takePending,
    InstructionFetch.takeBtbCorrection, InstructionFetch.takeCurrent, following]
  simp only [fetchInputs, running, Bool.not_false, Bool.and_true, Bool.false_or]
  cases cpu.instFetch.pendingJump <;> cases io.instructionValid <;> simp

theorem pc_redirected {address : Word} (running : fetchStall cpu io = false)
    (redirects : Redirects cpu io)
    (agree : RedirectsTo cpu io address) :
    (stepWith predictions cpu io).instFetch.pc = address := by
  rw [pc_running running]
  split_ifs with pending mispredict taken
  · exact agree.pending pending
  · exact agree.corrected mispredict
  · exact agree.taken (Bool.and_eq_true_iff.mp taken).1
  all_goals
    obtain latched | mispredicted | ⟨jumps, missed⟩ := redirects
    · exact absurd latched pending
    · exact absurd mispredicted mispredict
    · exact absurd (by rw [jumps, missed]; rfl) taken

theorem pc_followed (running : fetchStall cpu io = false) (undisturbed : ¬ Redirects cpu io)
    (valid : io.instructionValid = true) :
    (stepWith predictions cpu io).instFetch.pc =
      IF2ID.predictedNext (if2idInput predictions cpu io) := by
  rw [pc_running running]
  split_ifs with pending mispredict taken
  · exact absurd (Or.inl pending) undisturbed
  · exact absurd (Or.inr (Or.inl mispredict)) undisturbed
  · simp only [Bool.and_eq_true, Bool.not_eq_true'] at taken
    exact absurd (Or.inr (Or.inr taken)) undisturbed
  · rfl

theorem pendingJump_running (running : fetchStall cpu io = false) :
    (step cpu io).instFetch.pendingJump = false := by
  simp [step, stepWith, InstructionFetch.step, InstructionFetch.nextPendingJump,
    InstructionFetch.latchJump, fetchInputs, running]

theorem btbMispredictPending_running (running : memStall cpu io = false) :
    (step cpu io).btbMispredictPending = false := by
  cases pending : cpu.btbMispredictPending with
  | true => simp [step, stepWith, nextBtbMispredictPending, running, pending]
  | false => simp [step, stepWith, nextBtbMispredictPending, running, pending]

theorem needIfFlush_redirects (flushed : needIfFlush cpu io = true) : Redirects cpu io := by
  simp only [needIfFlush, mispredicted, Bool.or_eq_true, Bool.and_eq_true,
    Bool.not_eq_true', predictionCorrect, Bool.or_eq_false_iff] at flushed
  -- A wrong RAS or indirect-BTB target belongs to a JALR, which is taken, and shadows the BTB.
  have shadowed : isJalr cpu = true → branchHazard cpu = false → btbActuallyUsed cpu = false →
      Redirects cpu io := by
    intro jalr ready unused
    have taken : actualTaken cpu io = true := by
      have opcode : InstructionDecode.opcode cpu.if2id.instruction = Instructions.jalr := by
        simpa [isJalr, InstructionFetch.isJalr] using jalr
      simp [actualTaken, InstructionDecode.ifJumpFlag, branchTaken,
        InstructionDecode.branchTaken, ready, opcode]
    exact Or.inr (Or.inr ⟨taken, by simp [btbCorrectPrediction, unused]⟩)
  obtain ⟨taken, missed⟩ | (btb | ras) | ibtb := flushed
  · simp only [Control.ifFlush, Bool.and_eq_true] at taken
    exact Or.inr (Or.inr ⟨taken.2, missed.1.1⟩)
  · exact Or.inr (Or.inl btb)
  · simp only [rasWrongTarget, isReturn, InstructionFetch.isReturn, Bool.and_eq_true,
      Bool.not_eq_true'] at ras
    exact shadowed ras.1.1.2.1.1 ras.2 (by simp [btbActuallyUsed, ras.1.1.1])
  · simp only [ibtbWrongTarget, isIndirectJalr, Bool.and_eq_true, Bool.not_eq_true'] at ibtb
    exact shadowed ibtb.1.1.2.1 ibtb.2 (by simp [btbActuallyUsed, ibtb.1.1.1])

end Moving

/-! ## A cycle in which fetch is stalled -/

/-- The jump that the fetch stage latches in a stalled cycle: that of ID, else that of the previous
    cycle, else the one that is latched already. -/
def latchedJump : Option Word :=
  if actualTaken cpu io then some (actualTarget cpu io)
  else if cpu.instFetch.prevJumpFlag then some cpu.instFetch.prevJumpAddr
  else if cpu.instFetch.pendingJump then some cpu.instFetch.pendingJumpAddr
  else none

section Stalled

variable {predictions cpu io}

theorem pc_held (stalled : fetchStall cpu io = true) :
    (stepWith predictions cpu io).instFetch.pc = cpu.instFetch.pc := by
  simp [stepWith, InstructionFetch.step, InstructionFetch.nextPc, InstructionFetch.takePending,
    InstructionFetch.takeBtbCorrection, InstructionFetch.takeCurrent, fetchInputs, stalled]

theorem pendingJump_stalled (stalled : fetchStall cpu io = true) :
    (if (step cpu io).instFetch.pendingJump then
      some (step cpu io).instFetch.pendingJumpAddr else none) =
      latchedJump cpu io := by
  simp only [step, stepWith, InstructionFetch.step, InstructionFetch.nextPendingJump,
    InstructionFetch.nextPendingJumpAddr, InstructionFetch.latchJump, fetchInputs, stalled,
    Bool.true_and, latchedJump]
  cases actualTaken cpu io with
  | true => simp
  | false =>
    cases cpu.instFetch.prevJumpFlag with
    | true => simp
    | false => simp

theorem pendingJump_latched {address : Word} (stalled : fetchStall cpu io = true) :
    ((step cpu io).instFetch.pendingJump = true ∧
      (step cpu io).instFetch.pendingJumpAddr = address) ↔
      latchedJump cpu io = some address := by
  rw [← pendingJump_stalled stalled]
  cases (step cpu io).instFetch.pendingJump with
  | true => simp
  | false => simp

end Stalled

end PipelinedCPU

end MyCpu
