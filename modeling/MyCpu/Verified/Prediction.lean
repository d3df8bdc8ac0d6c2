import MyCpu.Verified.FetchStage

/-! # Predictions and their resolution

Fetch follows at most one predictor behind an instruction.  When ID resolves the
instruction, the flush condition and the next-pc multiplexer, which are written
separately, agree with one criterion: a transfer must have been foretold with its
target, and anything else must not have been predicted taken by the BTB. -/

namespace MyCpu

namespace IF2ID

variable (fetched : IF2ID)

/-- The predictor that fetch followed behind the instruction gave this target. -/
def foretells (target : Word) : Bool :=
  if fetched.rasPredictedValid then fetched.rasPredictedTarget == target
  else if fetched.ibtbPredictedValid then fetched.ibtbPredictedTarget == target
  else fetched.btbPredictedTaken && fetched.btbPredictedTarget == target

/-- Fetch has to be redirected behind the instruction. -/
def wrong (transfers : Bool) (target : Word) : Bool :=
  if transfers then !fetched.foretells target else fetched.btbPredictedTaken

/-- The predecoder asks the RAS about returns and the indirect BTB about other JALRs only. -/
structure Predecoded : Prop where
  ras : fetched.rasPredictedValid = true → InstructionFetch.isReturn fetched.instruction = true
  ibtb : fetched.ibtbPredictedValid = true →
    InstructionFetch.isJalr fetched.instruction = true ∧
    InstructionFetch.isReturn fetched.instruction = false

variable {fetched}

theorem foretells_predictedNext {target : Word} (foretold : fetched.foretells target = true) :
    fetched.predictedNext = target := by
  rw [foretells] at foretold
  rw [predictedNext]
  split_ifs at foretold with ras ibtb
  · rw [if_pos ras, eq_of_beq foretold]
  · rw [if_neg ras, if_pos ibtb, eq_of_beq foretold]
  · obtain ⟨predicted, same⟩ := Bool.and_eq_true_iff.mp foretold
    rw [if_neg ras, if_neg ibtb, if_pos predicted, eq_of_beq same]

theorem Predecoded.jalr (predecoded : fetched.Predecoded)
    (followed : fetched.rasPredictedValid = true ∨ fetched.ibtbPredictedValid = true) :
    InstructionFetch.isJalr fetched.instruction = true := by
  obtain ras | ibtb := followed
  · have isReturn := predecoded.ras ras
    simp only [InstructionFetch.isReturn, Bool.and_eq_true] at isReturn
    exact isReturn.1.1
  · exact (predecoded.ibtb ibtb).1

theorem Predecoded.other (predecoded : fetched.Predecoded)
    (other : InstructionFetch.isJalr fetched.instruction = false) :
    fetched.rasPredictedValid = false ∧ fetched.ibtbPredictedValid = false := by
  -- a word that is not a JALR has no prediction but that of the BTB
  constructor
  · by_contra ras
    rw [predecoded.jalr (Or.inl (Bool.of_not_eq_false ras))] at other
    exact Bool.noConfusion other
  · by_contra ibtb
    rw [predecoded.jalr (Or.inr (Bool.of_not_eq_false ibtb))] at other
    exact Bool.noConfusion other

end IF2ID

namespace PipelinedCPU

variable (predictions : Predictions) (cpu : PipelinedCPU) (io : Inputs)

/-- ID resolves its instruction: whether it transfers control, and where it continues. -/
structure Resolves (transfers : Bool) (successor : Word) : Prop where
  taken : actualTaken cpu io = transfers
  target : transfers = true → actualTarget cpu io = successor
  sequential : transfers = false → successor = cpu.if2id.instructionAddress + 4#32
  jump : transfers = true → isBranchOrJump cpu = true
  jalr : isJalr cpu = true → transfers = true

section Resolution

variable {predictions cpu io}

theorem predecoded_captured : (if2idInput predictions cpu io).Predecoded := by
  have valid : InstructionFetch.isReturn io.instruction = true → io.instructionValid = true →
      InstructionFetch.isReturn (if2idInput predictions cpu io).instruction = true := by
    intro isReturn valid
    simp only [if2idInput, InstructionFetch.idInstruction, fetchInputs, valid, if_true, isReturn]
  refine ⟨fun ras => ?_, fun ibtb => ?_⟩
  · simp only [if2idInput, InstructionFetch.rasPredictedValid,
      InstructionFetch.speculativeRasPop, fetchInputs, Bool.and_eq_true] at ras
    exact valid ras.2.1.1 ras.2.1.2
  · simp only [if2idInput, InstructionFetch.ibtbPredictionHit,
      InstructionFetch.isIndirectJalr, fetchInputs, Bool.and_eq_true, Bool.not_eq_true'] at ibtb
    simp only [if2idInput, InstructionFetch.idInstruction, fetchInputs, ibtb.2.1.2, if_true]
    exact ibtb.2.1.1

/-- The three correctness signals together say that the taken target was foretold. -/
theorem predictionCorrect_foretells (predecoded : cpu.if2id.Predecoded)
    (taken : actualTaken cpu io = true) :
    predictionCorrect cpu io = cpu.if2id.foretells (actualTarget cpu io) := by
  rw [predictionCorrect, btbCorrectPrediction, btbActuallyUsed, rasCorrectPredict,
    ibtbCorrectPredict, isIndirectJalr, IF2ID.foretells, taken]
  cases ras : cpu.if2id.rasPredictedValid with
  | true =>
    have isReturn : isReturn cpu = true := predecoded.ras ras
    simp [isReturn]
  | false =>
    cases ibtb : cpu.if2id.ibtbPredictedValid with
    | true =>
      have jalr : isJalr cpu = true := (predecoded.ibtb ibtb).1
      have notReturn : isReturn cpu = false := (predecoded.ibtb ibtb).2
      simp [jalr, notReturn]
    | false => simp

variable {transfers : Bool} {successor : Word} (predecoded : cpu.if2id.Predecoded)
  (resolves : Resolves cpu io transfers successor)

include resolves

/-- A misprediction of the BTB is a wrong prediction, and its correction is where the program
    continues. -/
theorem btbMispredictRaw_wrong (raw : btbMispredictRaw cpu io = true) :
    cpu.if2id.wrong transfers successor = true ∧ btbCorrectionAddrRaw cpu io = successor := by
  simp only [btbMispredictRaw, Bool.and_eq_true, Bool.or_eq_true] at raw
  rw [IF2ID.wrong, btbCorrectionAddrRaw]
  cases outcome : transfers with
  | true =>
    have taken := resolves.taken.trans outcome
    -- Neither the direction nor the kind can be wrong.
    obtain (direction | nonBranch) | wrongTarget := raw.1
    · simp [btbWrongDirection, taken] at direction
    · simp [btbNonBranch, resolves.jump outcome] at nonBranch
    · rw [if_pos wrongTarget, resolves.target outcome]
      simp only [btbWrongTarget, btbActuallyUsed, Bool.and_eq_true, Bool.not_eq_true',
        resolves.target outcome]
        at wrongTarget
      obtain ⟨⟨⟨⟨_, ras⟩, ibtb⟩, _⟩, other⟩ := wrongTarget
      refine ⟨?_, rfl⟩
      have different : ¬ cpu.if2id.btbPredictedTarget = successor := by simpa [bne] using other
      simp [IF2ID.foretells, ras, ibtb, different]
  | false =>
    have untaken := resolves.taken.trans outcome
    have noTarget : btbWrongTarget cpu io = false := by simp [btbWrongTarget, untaken]
    rw [noTarget, if_neg Bool.false_ne_true, resolves.sequential outcome]
    refine ⟨?_, rfl⟩
    obtain (direction | nonBranch) | wrongTarget := raw.1
    · simp only [btbWrongDirection, Bool.and_eq_true] at direction
      exact direction.1.1
    · exact (Bool.and_eq_true_iff.mp nonBranch).1
    · rw [noTarget] at wrongTarget
      exact Bool.noConfusion wrongTarget

include predecoded

theorem wrong_flushes (free : Control.hazard (ctrl cpu) = false)
    (wrong : cpu.if2id.wrong transfers successor = true) :
    needIfFlush cpu io = true := by
  -- a wrong prediction flushes IF/ID when nothing holds ID
  rw [IF2ID.wrong] at wrong
  cases outcome : transfers with
  | true =>
    have taken := resolves.taken.trans outcome
    rw [outcome, if_pos rfl, ← resolves.target outcome,
      ← predictionCorrect_foretells predecoded taken] at wrong
    simp [needIfFlush, Control.ifFlush, free, taken, (Bool.not_eq_true' _).mp wrong]
  | false =>
    rw [outcome, if_neg Bool.false_ne_true] at wrong
    have ready := branchHazard_free free
    have raw : btbMispredictRaw cpu io = true := by
      simp only [btbMispredictRaw, btbWrongDirection, btbNonBranch, wrong,
        resolves.taken.trans outcome, ready]
      cases isBranchOrJump cpu <;> rfl
    simp [needIfFlush, mispredicted, btbMispredict, raw]

theorem unflushed_predictedNext (free : Control.hazard (ctrl cpu) = false)
    (unflushed : needIfFlush cpu io = false) :
    cpu.if2id.predictedNext = successor := by
  -- without a flush, fetch is where the program continues
  have right : cpu.if2id.wrong transfers successor = false := by
    by_contra wrong
    rw [wrong_flushes predecoded resolves free (Bool.of_not_eq_false wrong)] at unflushed
    exact Bool.noConfusion unflushed
  rw [IF2ID.wrong] at right
  cases outcome : transfers with
  | true =>
    rw [outcome, if_pos rfl] at right
    exact IF2ID.foretells_predictedNext ((Bool.not_eq_false' _).mp right)
  | false =>
    rw [outcome, if_neg Bool.false_ne_true] at right
    have notJalr : isJalr cpu = false := by
      by_contra jalr
      rw [resolves.jalr (Bool.of_not_eq_false jalr)] at outcome
      exact Bool.noConfusion outcome
    obtain ⟨ras, ibtb⟩ := predecoded.other notJalr
    simp [IF2ID.predictedNext, ras, ibtb, right, resolves.sequential outcome]

end Resolution

end PipelinedCPU

end MyCpu
