import MyCpu.Verified.Prediction

/-! # Where fetch stands

Between two edges fetch is in one of two positions.  Either ID is vacant and fetch
stands at an address, or ID holds an instruction, fetch has followed the prediction
behind it, and what has been latched corrects a wrong prediction.  Every edge leads
from one of the two to one of the two.  The instruction in ID enters only through
what it resolves to, so the lemmas hold for any instruction set. -/

namespace MyCpu.PipelinedCPU

/-- ID is vacant and fetch stands at an address. -/
structure Waiting (cpu : PipelinedCPU) (address : Word) : Prop where
  vacant : idVacant cpu
  pc : cpu.instFetch.pc = address
  unlatched : cpu.instFetch.pendingJump = false
  corrected : cpu.btbMispredictPending = false

/-- Fetch has followed the prediction behind the instruction in ID. -/
structure Followed (cpu : PipelinedCPU) (transfers : Bool) (successor : Word) : Prop where
  predecoded : cpu.if2id.Predecoded
  pc : cpu.instFetch.pc = cpu.if2id.predictedNext
  latched : cpu.instFetch.pendingJump = true →
    cpu.if2id.wrong transfers successor = true ∧ cpu.instFetch.pendingJumpAddr = successor
  previous : cpu.instFetch.pendingJump = true → cpu.instFetch.prevJumpFlag = true →
    cpu.instFetch.prevJumpAddr = successor
  corrected : cpu.btbMispredictPending = true →
    cpu.if2id.wrong transfers successor = true ∧ cpu.btbCorrectionAddrPending = successor

section Edges

variable {predictions : Predictions} {cpu : PipelinedCPU} {io : Inputs}
    {address successor : Word} {transfers : Bool}

/-! ## What IF/ID holds after an edge -/

variable (predictions) in
theorem if2id_kept (stalls : fetchStall cpu io = true) (kept : if2idFlush cpu io = false) :
    (stepWith predictions cpu io).if2id = cpu.if2id := by
  rw [fetchStall_eq] at stalls
  simp only [stepWith, stalls, kept, pipelineRegister_stall]

variable (predictions) in
theorem if2id_moved (moves : fetchStall cpu io = false) (kept : if2idFlush cpu io = false) :
    (stepWith predictions cpu io).if2id = if2idInput predictions cpu io := by
  rw [fetchStall_eq] at moves
  simp only [stepWith, moves, kept, pipelineRegister_capture]

variable (predictions) in
theorem if2id_flushed (flushed : if2idFlush cpu io = true) :
    (stepWith predictions cpu io).if2id = IF2ID.bubble := by
  simp only [stepWith, flushed, pipelineRegister_flush]

/-- A stalled cycle does not flush IF/ID, unless a misprediction meets a hazard. -/
theorem unflushed_stalled (stalls : fetchStall cpu io = true)
    (correctedFreely : memStall cpu io = false → pcStall cpu = true → mispredicted cpu io = false) :
    if2idFlush cpu io = false := by
  cases waits : memStall cpu io with
  | true => exact if2idFlush_memStall cpu io waits
  | false =>
    have hazard : pcStall cpu = true := by
      obtain hazard | waits' := (Bool.or_eq_true _ _).mp stalls
      · exact hazard
      · exact Bool.noConfusion (waits.symm.trans waits')
    rw [if2idFlush, needIfFlush_hazard cpu io hazard, correctedFreely waits hazard]
    rfl

theorem actualTaken_ready (noTrap : interruptAssert cpu io = false)
    (taken : actualTaken cpu io = true) :
    branchHazard cpu = false := by
  rw [actualTaken, InstructionDecode.ifJumpFlag, noTrap, Bool.or_false, branchTaken,
    InstructionDecode.branchTaken, Bool.and_eq_true, Bool.not_eq_true'] at taken
  exact taken.1

/-! ## A vacant ID stage -/

theorem Waiting.unflushed (waiting : Waiting cpu address)
    (noTrap : interruptAssert cpu io = false) :
    if2idFlush cpu io = false := by
  rw [if2idFlush, idVacant_needIfFlush waiting.vacant noTrap waiting.corrected]
  rfl

theorem Waiting.undisturbed (waiting : Waiting cpu address)
    (noTrap : interruptAssert cpu io = false) :
    ¬ Redirects cpu io := by
  -- nothing redirects fetch
  rintro (latched | mispredict | ⟨taken, _⟩)
  · exact Bool.noConfusion (waiting.unlatched.symm.trans latched)
  · rw [btbMispredict, idVacant_btbMispredictRaw waiting.vacant, pendingCorrectionDue,
      waiting.corrected] at mispredict
    exact Bool.noConfusion mispredict
  · exact Bool.noConfusion ((idVacant_actualTaken waiting.vacant noTrap).symm.trans taken)

variable (predictions) in
theorem Waiting.stalled (waiting : Waiting cpu address) (noTrap : interruptAssert cpu io = false)
    (stalls : fetchStall cpu io = true)
    (redirectedOnce : cpu.instFetch.prevJumpFlag = true → cpu.instFetch.pendingJump = false →
      actualTaken cpu io = true) :
    Waiting (stepWith predictions cpu io) address := by
  -- a stalled cycle finds nothing to latch
  have untaken := idVacant_actualTaken waiting.vacant noTrap
  have fresh : cpu.instFetch.prevJumpFlag = false := by
    by_contra previous
    have taken := redirectedOnce (Bool.of_not_eq_false previous) waiting.unlatched
    exact Bool.noConfusion (untaken.symm.trans taken)
  refine ⟨?_, (pc_held stalls).trans waiting.pc, ?_, ?_⟩
  · rw [idVacant, if2id_kept predictions stalls (waiting.unflushed noTrap)]
    exact waiting.vacant
  · have latched := pendingJump_stalled stalls
    rw [latchedJump, untaken, fresh, waiting.unlatched] at latched
    by_contra pending
    have pending : (step cpu io).instFetch.pendingJump = true := Bool.of_not_eq_false pending
    rw [pending] at latched
    exact absurd latched (Option.some_ne_none _)
  · simp [stepWith, nextBtbMispredictPending,
      idVacant_btbMispredictRaw waiting.vacant, waiting.corrected]

/-! ## A cycle in which fetch moves -/

variable (predictions) in
/-- A valid word enters ID, and fetch follows its prediction. -/
theorem followed_captured (moves : fetchStall cpu io = false) (kept : if2idFlush cpu io = false)
    (undisturbed : ¬ Redirects cpu io) (valid : io.instructionValid = true) :
    Followed (stepWith predictions cpu io) transfers successor := by
  have unlatched : (stepWith predictions cpu io).instFetch.pendingJump = false :=
    pendingJump_running moves
  have corrected : (stepWith predictions cpu io).btbMispredictPending = false :=
    btbMispredictPending_running (fetchStall_running moves)
  refine ⟨?_, ?_, fun pending => ?_, fun pending => ?_, fun pending => ?_⟩
  · rw [if2id_moved predictions moves kept]
    exact predecoded_captured
  · rw [if2id_moved predictions moves kept]
    exact pc_followed moves undisturbed valid
  · exact Bool.noConfusion (unlatched.symm.trans pending)
  · exact Bool.noConfusion (unlatched.symm.trans pending)
  · exact Bool.noConfusion (corrected.symm.trans pending)

/-- Without a valid word fetch stays where it is, and ID is vacant when the BTB is silent about the
    address. -/
theorem waiting_starved (moves : fetchStall cpu io = false) (kept : if2idFlush cpu io = false)
    (undisturbed : ¬ Redirects cpu io) (starved : io.instructionValid = false)
    (silent : predictions.btbTaken = false) :
    Waiting (stepWith predictions cpu io) cpu.instFetch.pc := by
  refine ⟨?_, ?_, pendingJump_running moves, btbMispredictPending_running
    (fetchStall_running moves)⟩
  · rw [idVacant, if2id_moved predictions moves kept]
    refine ⟨?_, silent, ?_, ?_⟩
    · simp [if2idInput, InstructionFetch.idInstruction, fetchInputs, starved]
    · simp [if2idInput, InstructionFetch.rasPredictedValid,
        InstructionFetch.speculativeRasPop, fetchInputs, starved]
    · simp [if2idInput, InstructionFetch.ibtbPredictionHit,
        InstructionFetch.isIndirectJalr, fetchInputs, starved]
  · rw [pc_running moves]
    split_ifs with pending mispredict taken valid
    · exact absurd (Or.inl pending) undisturbed
    · exact absurd (Or.inr (Or.inl mispredict)) undisturbed
    · simp only [Bool.and_eq_true, Bool.not_eq_true'] at taken
      exact absurd (Or.inr (Or.inr taken)) undisturbed
    · exact Bool.noConfusion (starved.symm.trans valid)
    · rfl

variable (predictions) in
theorem waiting_flushed (moves : fetchStall cpu io = false) (flushed : needIfFlush cpu io = true)
    (redirects : RedirectsTo cpu io address) : Waiting (stepWith predictions cpu io) address := by
  -- a flush leaves ID vacant, and fetch at the address of the redirect
  have running : memStall cpu io = false := fetchStall_running moves
  have flush : if2idFlush cpu io = true := by
    rw [if2idFlush, flushed, running]
    rfl
  refine ⟨?_, pc_redirected moves (needIfFlush_redirects flushed) redirects,
    pendingJump_running moves, btbMispredictPending_running running⟩
  rw [idVacant, if2id_flushed predictions flush]
  exact ⟨rfl, rfl, rfl, rfl⟩

/-! ## An instruction in ID -/

section Followed

variable (followed : Followed cpu transfers successor)
  (resolves : branchHazard cpu = false → Resolves cpu io transfers successor)
  (foretoldOnce : actualTaken cpu io = true → predictionCorrect cpu io = true →
    btbCorrectPrediction cpu io = true ∧ fetchStall cpu io = false)

include followed resolves foretoldOnce

/-- A transfer that is taken while fetch is stalled was not foretold. -/
theorem Followed.unforetold (noTrap : interruptAssert cpu io = false)
    (stalls : fetchStall cpu io = true)
    (taken : actualTaken cpu io = true) :
    cpu.if2id.wrong transfers successor = true ∧ actualTarget cpu io = successor := by
  have resolves := resolves (actualTaken_ready noTrap taken)
  have transfers := resolves.taken.symm.trans taken
  refine ⟨?_, resolves.target transfers⟩
  rw [IF2ID.wrong, if_pos transfers, Bool.not_eq_true']
  by_contra foretold
  rw [← resolves.target transfers,
    ← predictionCorrect_foretells followed.predecoded taken, Bool.not_eq_false]
    at foretold
  exact Bool.noConfusion ((foretoldOnce taken foretold).2.symm.trans stalls)

/-- The jump that a stalled cycle latches leads to where the program continues. -/
theorem Followed.jumpLatched (noTrap : interruptAssert cpu io = false)
    (stalls : fetchStall cpu io = true)
    (redirectedOnce : cpu.instFetch.prevJumpFlag = true → cpu.instFetch.pendingJump = false →
      actualTaken cpu io = true) (pending : (step cpu io).instFetch.pendingJump = true) :
    cpu.if2id.wrong transfers successor = true ∧
      (step cpu io).instFetch.pendingJumpAddr = successor := by
  have latch := pendingJump_stalled stalls
  rw [pending, if_pos rfl, latchedJump] at latch
  split_ifs at latch with taken previous already
  · rw [Option.some.inj latch]
    exact followed.unforetold resolves foretoldOnce noTrap stalls taken
  · have already : cpu.instFetch.pendingJump = true := by
      by_contra fresh
      exact taken (redirectedOnce previous (Bool.not_eq_true _ ▸ fresh))
    rw [Option.some.inj latch]
    exact ⟨(followed.latched already).1, followed.previous already previous⟩
  · rw [Option.some.inj latch]
    exact followed.latched already

omit foretoldOnce in
variable (predictions) in
/-- So does the correction that waits for the memory. -/
theorem Followed.correctionLatched
    (pending : (stepWith predictions cpu io).btbMispredictPending = true) :
    cpu.if2id.wrong transfers successor = true ∧
      (stepWith predictions cpu io).btbCorrectionAddrPending = successor := by
  have waits : memStall cpu io = true := by
    by_contra running
    have settled := btbMispredictPending_running (Bool.eq_false_iff.mpr running)
    exact Bool.noConfusion (settled.symm.trans pending)
  simp only [stepWith, nextBtbMispredictPending, nextBtbCorrectionAddrPending, waits,
    Bool.true_and] at pending ⊢
  cases raw : btbMispredictRaw cpu io with
  | true =>
    have ready : branchHazard cpu = false := by
      simp only [btbMispredictRaw, Bool.and_eq_true, Bool.not_eq_true'] at raw
      exact raw.2
    rw [if_pos rfl]
    exact btbMispredictRaw_wrong (resolves ready) raw
  | false =>
    rw [raw] at pending
    simp only [Bool.false_eq_true, if_false, Bool.not_true, Bool.and_false] at pending ⊢
    exact followed.corrected pending

variable (predictions) in
theorem Followed.stalled (noTrap : interruptAssert cpu io = false)
    (stalls : fetchStall cpu io = true)
    (kept : if2idFlush cpu io = false)
    (redirectedOnce : cpu.instFetch.prevJumpFlag = true → cpu.instFetch.pendingJump = false →
      actualTaken cpu io = true) :
    Followed (stepWith predictions cpu io) transfers successor := by
  -- a stalled cycle keeps the instruction in ID, and what it latches is where the program continues
  have word := if2id_kept predictions stalls kept
  refine ⟨?_, ?_, ?_, fun _ taken =>
    (followed.unforetold resolves foretoldOnce noTrap stalls taken).2, ?_⟩
  · rw [word]
    exact followed.predecoded
  · rw [word]
    exact (pc_held stalls).trans followed.pc
  · rw [word]
    exact followed.jumpLatched resolves foretoldOnce noTrap stalls redirectedOnce
  · rw [word]
    exact followed.correctionLatched predictions resolves

omit foretoldOnce in
variable (predictions) in
theorem Followed.flushed (moves : fetchStall cpu io = false) (flushed : needIfFlush cpu io = true) :
    Waiting (stepWith predictions cpu io) successor := by
  have free : Control.hazard (ctrl cpu) = false := fetchStall_free moves
  have resolves := resolves (branchHazard_free free)
  refine waiting_flushed predictions moves flushed
    ⟨fun pending => (followed.latched pending).2, fun mispredict => ?_, fun taken => ?_⟩
  · rw [btbCorrectionAddr]
    split_ifs with due
    · exact (followed.corrected (Bool.and_eq_true_iff.mp due).1).2
    · rw [btbMispredict, Bool.eq_false_iff.mpr due, Bool.or_false] at mispredict
      exact (btbMispredictRaw_wrong resolves mispredict).2
  · exact resolves.target (resolves.taken.symm.trans taken)

theorem Followed.unflushed (moves : fetchStall cpu io = false)
    (unflushed : needIfFlush cpu io = false) :
    cpu.instFetch.pc = successor ∧ ¬ Redirects cpu io ∧ if2idFlush cpu io = false := by
  -- the instruction leaves ID without a flush: fetch is where the program continues, and stays on
  -- its way
  have free : Control.hazard (ctrl cpu) = false := fetchStall_free moves
  have resolves := resolves (branchHazard_free free)
  have right : cpu.if2id.wrong transfers successor = false := by
    by_contra mistaken
    have flushes := wrong_flushes followed.predecoded resolves free (Bool.of_not_eq_false mistaken)
    exact Bool.noConfusion (unflushed.symm.trans flushes)
  refine ⟨followed.pc.trans (unflushed_predictedNext followed.predecoded resolves free unflushed),
    ?_, ?_⟩
  · rw [needIfFlush, Bool.or_eq_false_iff] at unflushed
    rintro (latched | mispredict | ⟨taken, missed⟩)
    · exact Bool.noConfusion (right.symm.trans (followed.latched latched).1)
    · rw [mispredicted, mispredict] at unflushed
      exact Bool.noConfusion unflushed.2
    · have correct : predictionCorrect cpu io = true := by
        rw [Control.ifFlush, free, taken] at unflushed
        simpa using unflushed.1
      exact Bool.noConfusion (missed.symm.trans (foretoldOnce taken correct).1)
  · rw [if2idFlush, unflushed]
    rfl

end Followed

end Edges

end MyCpu.PipelinedCPU
