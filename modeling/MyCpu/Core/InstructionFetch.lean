import MyCpu.Core.BranchPredictors
import MyCpu.Core.InstructionDecode

/-! # Instruction fetch

`InstructionFetch.scala`: the pc, the three predictors, the latched jump of a
stalled cycle and the next-pc multiplexer.

What the predictors answer for the current pc is collected in `Predictions`; the
fetch logic is stated on such an answer, and `InstructionFetch.predict` reads the
answer of the actual predictor state. -/

namespace MyCpu

/-- The predictor outputs for one fetch. -/
structure Predictions where
  btbTaken : Bool
  btbPc : Word
  rasValid : Bool
  rasAddr : Word
  ibtbHit : Bool
  ibtbTarget : Word
deriving DecidableEq, Repr

/-- No predictor reports a hit. -/
def Predictions.miss : Predictions := ⟨false, 0#32, false, 0#32, false, 0#32⟩

structure InstructionFetch where
  pc : Word
  btb : BranchTargetBuffer 5
  ras : ReturnAddressStack 2
  ibtb : IndirectBTB 3
  pendingJump : Bool
  pendingJumpAddr : Word
  prevJumpFlag : Bool
  prevJumpAddr : Word

namespace InstructionFetch

def predict (fetch : InstructionFetch) : Predictions where
  btbTaken := fetch.btb.predictedTaken fetch.pc
  btbPc := fetch.btb.predictedPc fetch.pc
  rasValid := fetch.ras.valid
  rasAddr := fetch.ras.predictedAddr
  ibtbHit := fetch.ibtb.hit fetch.pc
  ibtbTarget := fetch.ibtb.predictedTarget fetch.pc

structure Inputs where
  stallFlagCtrl : Bool
  jumpFlagId : Bool
  jumpAddressId : Word
  romInstruction : Word
  instructionValid : Bool
  btbMispredict : Bool
  btbCorrectionAddr : Word
  btbCorrectPrediction : Bool
  btbUpdateValid : Bool
  btbUpdatePc : Word
  btbUpdateTarget : Word
  btbUpdateTaken : Bool
  rasPush : Bool
  rasPushAddr : Word
  rasPop : Bool
  rasRestore : Bool
  rasRestoreAddr : Word
  rasRestoreValid : Bool
  ibtbUpdateValid : Bool
  ibtbUpdatePc : Word
  ibtbUpdateRs1Hash : BitVec 8
  ibtbUpdateTarget : Word

/-! ## Predecode of the fetched word -/

def isLink (register : RegAddr) : Bool := register = 1#5 || register = 5#5

def isJalr (instruction : Word) : Bool := InstructionDecode.opcode instruction = Instructions.jalr

/-- `jalr x0, rs1` with `rs1` a link register. -/
def isReturn (instruction : Word) : Bool :=
  isJalr instruction && isLink (InstructionDecode.rs1 instruction) &&
    InstructionDecode.rd instruction = 0#5

variable (predictions : Predictions) (fetch : InstructionFetch) (io : Inputs)

def speculativeRasPop : Bool :=
  isReturn io.romInstruction && io.instructionValid && !io.stallFlagCtrl

def rasPredictedValid : Bool := predictions.rasValid && speculativeRasPop io

def isIndirectJalr : Bool :=
  isJalr io.romInstruction && !isReturn io.romInstruction &&
    io.instructionValid && !io.stallFlagCtrl

def ibtbPredictionHit : Bool := predictions.ibtbHit && isIndirectJalr io

def idInstruction : Word := if io.instructionValid then io.romInstruction else InstructionsNop.nop

/-! ## Next pc -/

def takePending : Bool := fetch.pendingJump && !io.stallFlagCtrl

def takeCurrent : Bool :=
  io.jumpFlagId && !io.stallFlagCtrl && !fetch.pendingJump && !io.btbCorrectPrediction

def takeBtbCorrection : Bool := io.btbMispredict && !io.stallFlagCtrl

def defaultNextPc : Word :=
  if rasPredictedValid predictions io then predictions.rasAddr
  else if ibtbPredictionHit predictions io then predictions.ibtbTarget
  else if predictions.btbTaken then predictions.btbPc
  else fetch.pc + 4#32

def nextPc : Word :=
  if takePending fetch io then fetch.pendingJumpAddr
  else if takeBtbCorrection io then io.btbCorrectionAddr
  else if takeCurrent fetch io then io.jumpAddressId
  else if io.stallFlagCtrl || !io.instructionValid then fetch.pc
  else defaultNextPc predictions fetch io

/-! ## Latched jump -/

/-- The stall blocks a jump of this cycle or of the previous one. -/
def latchJump : Bool := io.stallFlagCtrl && (io.jumpFlagId || fetch.prevJumpFlag)

def nextPendingJump : Bool :=
  if latchJump fetch io then true else if !io.stallFlagCtrl then false else fetch.pendingJump

def nextPendingJumpAddr : Word :=
  if latchJump fetch io then (if io.jumpFlagId then io.jumpAddressId else fetch.prevJumpAddr)
  else fetch.pendingJumpAddr

def step : InstructionFetch where
  pc := nextPc predictions fetch io
  btb := fetch.btb.step io.btbUpdateValid io.btbUpdatePc io.btbUpdateTarget io.btbUpdateTaken
  ras := fetch.ras.step io.rasPush io.rasPushAddr (speculativeRasPop io || io.rasPop) io.rasRestore
    io.rasRestoreAddr io.rasRestoreValid
  ibtb := fetch.ibtb.step fetch.pc io.ibtbUpdateValid io.ibtbUpdatePc io.ibtbUpdateRs1Hash
    io.ibtbUpdateTarget
  pendingJump := nextPendingJump fetch io
  pendingJumpAddr := nextPendingJumpAddr fetch io
  prevJumpFlag := io.jumpFlagId
  prevJumpAddr := io.jumpAddressId

end InstructionFetch

end MyCpu
