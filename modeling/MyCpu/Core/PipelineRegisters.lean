import MyCpu.Core.InstructionDecode

/-! # Pipeline registers

`PipelineRegister.scala` and the four stage boundaries built from it.  Every
field of a boundary is a `PipelineRegister` with the same `stall` and `flush`, so
a boundary is one record clocked by `pipelineRegister`; its flushed value is the
record of the fields' default values. -/

namespace MyCpu

/-- Clocked update of a pipeline register: flush wins over stall, stall over capture. -/
def pipelineRegister {α : Type} (defaultValue : α) (stall flush : Bool) (input reg : α) : α :=
  if flush then defaultValue else if !stall then input else reg

@[simp] theorem pipelineRegister_flush {α : Type} (defaultValue input reg : α) (stall : Bool) :
    pipelineRegister defaultValue stall true input reg = defaultValue := rfl

@[simp] theorem pipelineRegister_stall {α : Type} (defaultValue input reg : α) :
    pipelineRegister defaultValue true false input reg = reg := rfl

@[simp] theorem pipelineRegister_capture {α : Type} (defaultValue input reg : α) :
    pipelineRegister defaultValue false false input reg = input := rfl

/-- Two registers with the same `stall` and `flush` stay related. -/
theorem pipelineRegister_related {α β : Type} (Related : α → β → Prop)
    {defaultValue : α} {defaultValue' : β}
    (flushed : Related defaultValue defaultValue') {input reg : α} {input' reg' : β} {stall : Bool}
    (captured : stall = false → Related input input') (held : Related reg reg') (flush : Bool) :
    Related (pipelineRegister defaultValue stall flush input reg)
      (pipelineRegister defaultValue' stall flush input' reg') := by
  cases flush with
  | true => exact flushed
  | false =>
    cases stall with
    | true => exact held
    | false => exact captured rfl

structure IF2ID where
  instruction : Word
  instructionAddress : Word
  btbPredictedTaken : Bool
  btbPredictedTarget : Word
  rasPredictedValid : Bool
  rasPredictedTarget : Word
  ibtbPredictedValid : Bool
  ibtbPredictedTarget : Word
deriving DecidableEq, Repr

/-- The flushed IF/ID boundary: a `nop` at the entry address with no prediction. -/
def IF2ID.bubble : IF2ID where
  instruction := InstructionsNop.nop
  instructionAddress := ProgramCounter.entryAddress
  btbPredictedTaken := false
  btbPredictedTarget := 0#32
  rasPredictedValid := false
  rasPredictedTarget := 0#32
  ibtbPredictedValid := false
  ibtbPredictedTarget := 0#32

structure ID2EX where
  instruction : Word
  instructionAddress : Word
  regsReg1ReadAddress : RegAddr
  regsReg2ReadAddress : RegAddr
  regsWriteEnable : Bool
  regsWriteAddress : RegAddr
  regsWriteSource : RegWriteSource
  reg1Data : Word
  reg2Data : Word
  immediate : Word
  aluop1Source : ALUOp1Source
  aluop2Source : ALUOp2Source
  csrWriteEnable : Bool
  csrAddress : CsrAddr
  memoryReadEnable : Bool
  memoryWriteEnable : Bool
  csrReadData : Word
deriving DecidableEq, Repr

/-- The flushed ID/EX boundary: all control signals are zero. -/
def ID2EX.bubble : ID2EX where
  instruction := InstructionsNop.nop
  instructionAddress := ProgramCounter.entryAddress
  regsReg1ReadAddress := 0#5
  regsReg2ReadAddress := 0#5
  regsWriteEnable := false
  regsWriteAddress := 0#5
  regsWriteSource := .aluResult
  reg1Data := 0#32
  reg2Data := 0#32
  immediate := 0#32
  aluop1Source := .register
  aluop2Source := .register
  csrWriteEnable := false
  csrAddress := 0#12
  memoryReadEnable := false
  memoryWriteEnable := false
  csrReadData := 0#32

structure EX2MEM where
  regsWriteEnable : Bool
  regsWriteSource : RegWriteSource
  regsWriteAddress : RegAddr
  instructionAddress : Word
  funct3 : BitVec 3
  reg2Data : Word
  memoryReadEnable : Bool
  memoryWriteEnable : Bool
  aluResult : Word
  csrReadData : Word
deriving DecidableEq, Repr

/-- Reset value of EX/MEM, which has no flush input. -/
def EX2MEM.reset : EX2MEM where
  regsWriteEnable := false
  regsWriteSource := .aluResult
  regsWriteAddress := 0#5
  instructionAddress := 0#32
  funct3 := 0#3
  reg2Data := 0#32
  memoryReadEnable := false
  memoryWriteEnable := false
  aluResult := 0#32
  csrReadData := 0#32

structure MEM2WB where
  instructionAddress : Word
  aluResult : Word
  regsWriteEnable : Bool
  regsWriteSource : RegWriteSource
  regsWriteAddress : RegAddr
  memoryReadData : Word
  csrReadData : Word
deriving DecidableEq, Repr

/-- Reset value of MEM/WB, which has no flush input. -/
def MEM2WB.reset : MEM2WB where
  instructionAddress := 0#32
  aluResult := 0#32
  regsWriteEnable := false
  regsWriteSource := .aluResult
  regsWriteAddress := 0#5
  memoryReadData := 0#32
  csrReadData := 0#32

end MyCpu
