import MyCpu.Core.Control
import MyCpu.Core.Csr
import MyCpu.Core.Execute
import MyCpu.Core.InstructionFetch
import MyCpu.Core.MemoryAccess

/-! # The five-stage pipeline

`PipelinedCPU.scala`: the wires between the stages, the misprediction logic, the
stall and flush inputs of the four boundaries, and the clocked update of the
whole core.

Every wire is a function of the registered state and of the inputs of the cycle;
`stepWith` clocks the core with a given answer of the predictors and `step` with
the answer of the predictors it holds. -/

namespace MyCpu

structure PipelinedCPU where
  regs : RegisterFile
  instFetch : InstructionFetch
  if2id : IF2ID
  id2ex : ID2EX
  ex2mem : EX2MEM
  mem : MemoryAccess
  mem2wb : MEM2WB
  csrRegs : CSR
  btbMispredictPending : Bool
  btbCorrectionAddrPending : Word

namespace PipelinedCPU

/-- The inputs of one clock cycle. -/
structure Inputs where
  instruction : Word
  instructionValid : Bool
  interruptFlag : Word
  bus : BusInputs

/-- Reset state; registers without a reset value start arbitrary. -/
def reset (regs : RegisterFile) (btb : BranchTargetBuffer 5) (ras : ReturnAddressStack 2)
    (ibtb : IndirectBTB 3) : PipelinedCPU where
  regs := regs
  instFetch :=
    { pc := ProgramCounter.entryAddress
      btb := btb
      ras := ras
      ibtb := ibtb
      pendingJump := false
      pendingJumpAddr := 0#32
      prevJumpFlag := false
      prevJumpAddr := 0#32 }
  if2id := IF2ID.bubble
  id2ex := ID2EX.bubble
  ex2mem := EX2MEM.reset
  mem := MemoryAccess.reset
  mem2wb := MEM2WB.reset
  csrRegs := CSR.reset
  btbMispredictPending := false
  btbCorrectionAddrPending := 0#32

variable (predictions : Predictions) (cpu : PipelinedCPU) (io : Inputs)

/-! ## Memory, write-back and forwarding -/

/-- The pipeline waits for the bus. -/
def memStall : Bool := MemoryAccess.ctrlStallFlag cpu.mem cpu.ex2mem io.bus

def forwardFromMem : Word := MemoryAccess.forwardToEx cpu.mem cpu.ex2mem io.bus

def regsWriteData : Word := WriteBack.regsWriteData cpu.mem2wb

def bus : BusOutputs := MemoryAccess.busOutputs cpu.mem cpu.ex2mem

def forwarding (rs : RegAddr) : ForwardingType :=
  Forwarding.select rs cpu.ex2mem.regsWriteAddress cpu.ex2mem.regsWriteEnable cpu.mem2wb.regsWriteAddress
    cpu.mem2wb.regsWriteEnable

/-- Register file read port, with the write-back of this cycle visible. -/
def regsReadData (rs : RegAddr) : Word :=
  RegisterFile.readData cpu.regs cpu.mem2wb.regsWriteEnable cpu.mem2wb.regsWriteAddress
    (regsWriteData cpu) rs

/-! ## Instruction decode -/

def rs1Id : RegAddr := InstructionDecode.regsReg1ReadAddress cpu.if2id.instruction

def rs2Id : RegAddr := InstructionDecode.regsReg2ReadAddress cpu.if2id.instruction

/-- The forwarded operand captured by ID/EX. -/
def idRegDataForwarded (rs : RegAddr) : Word :=
  Forwarding.mux (forwarding cpu rs) (regsReadData cpu rs)
    (forwardFromMem cpu io) (regsWriteData cpu)

/-- The operands of the ID-side comparator. -/
def idReg1Data : Word :=
  InstructionDecode.forwarded (InstructionDecode.usesRs1 cpu.if2id.instruction)
    (forwarding cpu (rs1Id cpu))
    (regsReadData cpu (rs1Id cpu)) (regsWriteData cpu) (forwardFromMem cpu io)

def idReg2Data : Word :=
  InstructionDecode.forwarded (InstructionDecode.usesRs2 cpu.if2id.instruction)
    (forwarding cpu (rs2Id cpu))
    (regsReadData cpu (rs2Id cpu)) (regsWriteData cpu) (forwardFromMem cpu io)

def isBranchOrJump : Bool := InstructionDecode.ctrlJumpInstruction cpu.if2id.instruction

/-! ## Hazards -/

def ctrl : Control.Inputs where
  jumpInstructionId := isBranchOrJump cpu
  rs1Id := rs1Id cpu
  rs2Id := rs2Id cpu
  memoryReadEnableEx := cpu.id2ex.memoryReadEnable
  rdEx := cpu.id2ex.regsWriteAddress
  memoryReadEnableMem := cpu.ex2mem.memoryReadEnable
  rdMem := cpu.ex2mem.regsWriteAddress
  memoryWriteEnableMem := cpu.ex2mem.memoryWriteEnable
  regsWriteSourceEx := cpu.id2ex.regsWriteSource
  regsWriteSourceMem := cpu.ex2mem.regsWriteSource
  regsWriteSourceWb := cpu.mem2wb.regsWriteSource
  rdWb := cpu.mem2wb.regsWriteAddress

def pcStall : Bool := Control.pcStall (ctrl cpu)

def branchHazard : Bool := Control.branchHazard (ctrl cpu)

/-- `stall_flag_ctrl` of the fetch stage and `stall` of IF/ID. -/
def fetchStall : Bool := pcStall cpu || memStall cpu io

def if2idStall : Bool := Control.ifStall (ctrl cpu) || memStall cpu io

/-! ## Execute -/

def exReg1Data : Word :=
  Forwarding.mux (forwarding cpu cpu.id2ex.regsReg1ReadAddress) cpu.id2ex.reg1Data
    (forwardFromMem cpu io)
    (regsWriteData cpu)

def exReg2Data : Word :=
  Forwarding.mux (forwarding cpu cpu.id2ex.regsReg2ReadAddress) cpu.id2ex.reg2Data
    (forwardFromMem cpu io)
    (regsWriteData cpu)

def aluResult : Word := Execute.memAluResult cpu.id2ex (exReg1Data cpu io) (exReg2Data cpu io)

def csrWrite : CsrWrite where
  enable := cpu.id2ex.csrWriteEnable
  address := cpu.id2ex.csrAddress
  data := Execute.csrWriteData cpu.id2ex (exReg1Data cpu io)

/-! ## Traps and branch resolution -/

def clintJumpAddress : Word :=
  InstructionDecode.clintJumpAddress cpu.if2id.instruction cpu.if2id.instructionAddress
    (idReg1Data cpu io)

def trapView : TrapView := CSR.clintAccessBundle cpu.csrRegs (csrWrite cpu io)

def clintInputs : CLINT.Inputs where
  interruptFlag := io.interruptFlag
  instructionId := cpu.if2id.instruction
  instructionAddressIf := cpu.instFetch.pc
  jumpFlag := isBranchOrJump cpu
  jumpAddress := clintJumpAddress cpu io

def trap : TrapAction := CLINT.outputs (clintInputs cpu io) (trapView cpu io)

def interruptAssert : Bool := (trap cpu io).idInterruptAssert

def branchTaken : Bool :=
  InstructionDecode.branchTaken (branchHazard cpu) cpu.if2id.instruction
    (idReg1Data cpu io) (idReg2Data cpu io)

/-- `if_jump_flag`, the actual outcome in ID. -/
def actualTaken : Bool := InstructionDecode.ifJumpFlag (branchTaken cpu io) (interruptAssert cpu io)

/-- `if_jump_address`, the actual target in ID. -/
def actualTarget : Word :=
  InstructionDecode.ifJumpAddress (interruptAssert cpu io) (trap cpu io).idInterruptHandlerAddress
    (clintJumpAddress cpu io)

/-! ## BTB misprediction -/

def btbWrongDirection : Bool :=
  cpu.if2id.btbPredictedTaken && isBranchOrJump cpu && !actualTaken cpu io

def btbNonBranch : Bool := cpu.if2id.btbPredictedTaken && !isBranchOrJump cpu

def btbActuallyUsed : Bool :=
  cpu.if2id.btbPredictedTaken && !cpu.if2id.rasPredictedValid && !cpu.if2id.ibtbPredictedValid

def btbWrongTarget : Bool :=
  btbActuallyUsed cpu && actualTaken cpu io && cpu.if2id.btbPredictedTarget != actualTarget cpu io

def btbCorrectPrediction : Bool :=
  btbActuallyUsed cpu && actualTaken cpu io && cpu.if2id.btbPredictedTarget == actualTarget cpu io

def btbMispredictRaw : Bool :=
  (btbWrongDirection cpu io || btbNonBranch cpu || btbWrongTarget cpu io) && !branchHazard cpu

def btbCorrectionAddrRaw : Word :=
  if btbWrongTarget cpu io then actualTarget cpu io else cpu.if2id.instructionAddress + 4#32

/-- A correction recorded during a memory stall is due now. -/
def pendingCorrectionDue : Bool := cpu.btbMispredictPending && !memStall cpu io

def btbMispredict : Bool := btbMispredictRaw cpu io || pendingCorrectionDue cpu io

def btbCorrectionAddr : Word :=
  if pendingCorrectionDue cpu io then cpu.btbCorrectionAddrPending else btbCorrectionAddrRaw cpu io

def nextBtbMispredictPending : Bool :=
  if memStall cpu io && btbMispredictRaw cpu io then true
  else if cpu.btbMispredictPending && !memStall cpu io then false
  else cpu.btbMispredictPending

def nextBtbCorrectionAddrPending : Word :=
  if memStall cpu io && btbMispredictRaw cpu io then btbCorrectionAddrRaw cpu io
  else cpu.btbCorrectionAddrPending

def btbShouldUpdate : Bool :=
  (isBranchOrJump cpu || btbNonBranch cpu) && !branchHazard cpu && !memStall cpu io

/-! ## RAS and indirect BTB -/

def idRdIsLink : Bool := InstructionFetch.isLink (InstructionDecode.rd cpu.if2id.instruction)

def isJal : Bool := InstructionDecode.opcode cpu.if2id.instruction = Instructions.jal

def isJalr : Bool := InstructionFetch.isJalr cpu.if2id.instruction

def rasPushTrigger : Bool :=
  (isJal cpu || isJalr cpu) && idRdIsLink cpu && !branchHazard cpu && !memStall cpu io

def isReturn : Bool := InstructionFetch.isReturn cpu.if2id.instruction

def rasWrongTarget : Bool :=
  cpu.if2id.rasPredictedValid && isReturn cpu &&
    cpu.if2id.rasPredictedTarget != actualTarget cpu io &&
    !branchHazard cpu

def rasCorrectPredict : Bool :=
  cpu.if2id.rasPredictedValid && isReturn cpu && cpu.if2id.rasPredictedTarget == actualTarget cpu io

def isIndirectJalr : Bool := isJalr cpu && !isReturn cpu

def ibtbWrongTarget : Bool :=
  cpu.if2id.ibtbPredictedValid && isIndirectJalr cpu &&
    cpu.if2id.ibtbPredictedTarget != actualTarget cpu io &&
    !branchHazard cpu

def ibtbCorrectPredict : Bool :=
  cpu.if2id.ibtbPredictedValid && isIndirectJalr cpu &&
    cpu.if2id.ibtbPredictedTarget == actualTarget cpu io

def ibtbShouldUpdate : Bool := isIndirectJalr cpu && !branchHazard cpu && !memStall cpu io

/-! ## Flush and stall of the boundaries -/

def predictionCorrect : Bool :=
  btbCorrectPrediction cpu io || rasCorrectPredict cpu io || ibtbCorrectPredict cpu io

/-- Some predictor was wrong about the instruction in ID. -/
def mispredicted : Bool := btbMispredict cpu io || rasWrongTarget cpu io || ibtbWrongTarget cpu io

def needIfFlush : Bool :=
  (Control.ifFlush (ctrl cpu) (actualTaken cpu io) && !predictionCorrect cpu io) ||
    mispredicted cpu io

def if2idFlush : Bool := needIfFlush cpu io && !memStall cpu io

def id2exFlush : Bool :=
  Control.idFlush (ctrl cpu) && (!memStall cpu io || Control.jalJalrHazard (ctrl cpu))

/-! ## Inputs of the boundaries -/

def fetchInputs : InstructionFetch.Inputs where
  stallFlagCtrl := fetchStall cpu io
  jumpFlagId := actualTaken cpu io
  jumpAddressId := actualTarget cpu io
  romInstruction := io.instruction
  instructionValid := io.instructionValid
  btbMispredict := btbMispredict cpu io
  btbCorrectionAddr := btbCorrectionAddr cpu io
  btbCorrectPrediction := btbCorrectPrediction cpu io
  btbUpdateValid := btbShouldUpdate cpu io
  btbUpdatePc := cpu.if2id.instructionAddress
  btbUpdateTarget := actualTarget cpu io
  btbUpdateTaken := actualTaken cpu io && isBranchOrJump cpu
  rasPush := rasPushTrigger cpu io
  rasPushAddr := cpu.if2id.instructionAddress + 4#32
  rasPop := false
  rasRestore := false
  rasRestoreAddr := 0#32
  rasRestoreValid := false
  ibtbUpdateValid := ibtbShouldUpdate cpu io
  ibtbUpdatePc := cpu.if2id.instructionAddress
  ibtbUpdateRs1Hash := indirectBTBHash (idRegDataForwarded cpu io (rs1Id cpu))
  ibtbUpdateTarget := actualTarget cpu io

def if2idInput : IF2ID where
  instruction := InstructionFetch.idInstruction (fetchInputs cpu io)
  instructionAddress := cpu.instFetch.pc
  btbPredictedTaken := predictions.btbTaken
  btbPredictedTarget := predictions.btbPc
  rasPredictedValid := InstructionFetch.rasPredictedValid predictions (fetchInputs cpu io)
  rasPredictedTarget := predictions.rasAddr
  ibtbPredictedValid := InstructionFetch.ibtbPredictionHit predictions (fetchInputs cpu io)
  ibtbPredictedTarget := predictions.ibtbTarget

/-- The decoded instruction of ID with its forwarded operands. -/
def id2exInput : ID2EX where
  instruction := cpu.if2id.instruction
  instructionAddress := cpu.if2id.instructionAddress
  regsReg1ReadAddress := rs1Id cpu
  regsReg2ReadAddress := rs2Id cpu
  regsWriteEnable := InstructionDecode.exRegWriteEnable cpu.if2id.instruction
  regsWriteAddress := InstructionDecode.exRegWriteAddress cpu.if2id.instruction
  regsWriteSource := InstructionDecode.exRegWriteSource cpu.if2id.instruction
  reg1Data := idRegDataForwarded cpu io (rs1Id cpu)
  reg2Data := idRegDataForwarded cpu io (rs2Id cpu)
  immediate := InstructionDecode.exImmediate cpu.if2id.instruction
  aluop1Source := InstructionDecode.exAluop1Source cpu.if2id.instruction
  aluop2Source := InstructionDecode.exAluop2Source cpu.if2id.instruction
  csrWriteEnable := InstructionDecode.exCsrWriteEnable cpu.if2id.instruction
  csrAddress := InstructionDecode.exCsrAddress cpu.if2id.instruction
  memoryReadEnable := InstructionDecode.exMemoryReadEnable cpu.if2id.instruction
  memoryWriteEnable := InstructionDecode.exMemoryWriteEnable cpu.if2id.instruction
  csrReadData := CSR.regLUT cpu.csrRegs (InstructionDecode.exCsrAddress cpu.if2id.instruction)

def ex2memInput : EX2MEM where
  regsWriteEnable := cpu.id2ex.regsWriteEnable
  regsWriteSource := cpu.id2ex.regsWriteSource
  regsWriteAddress := cpu.id2ex.regsWriteAddress
  instructionAddress := cpu.id2ex.instructionAddress
  funct3 := InstructionDecode.funct3 cpu.id2ex.instruction
  reg2Data := exReg2Data cpu io
  memoryReadEnable := cpu.id2ex.memoryReadEnable
  memoryWriteEnable := cpu.id2ex.memoryWriteEnable
  aluResult := aluResult cpu io
  csrReadData := cpu.id2ex.csrReadData

def mem2wbInput : MEM2WB where
  instructionAddress := cpu.ex2mem.instructionAddress
  aluResult := cpu.ex2mem.aluResult
  regsWriteEnable := MemoryAccess.wbRegsWriteEnable cpu.mem cpu.ex2mem io.bus
  regsWriteSource := MemoryAccess.wbRegsWriteSource cpu.mem cpu.ex2mem io.bus
  regsWriteAddress := MemoryAccess.wbRegsWriteAddress cpu.mem cpu.ex2mem io.bus
  memoryReadData := MemoryAccess.wbMemoryReadData cpu.mem cpu.ex2mem io.bus
  csrReadData := cpu.ex2mem.csrReadData

/-! ## Performance events -/

def storeCompleted : Bool := (bus cpu).write && io.bus.writeValid

def instructionRetired : Bool :=
  (cpu.mem2wb.regsWriteEnable || storeCompleted cpu io) && !memStall cpu io

def controlFlushEvent : Bool := (needIfFlush cpu io || mispredicted cpu io) && !memStall cpu io

def btbMissPenalty : Bool :=
  ((!cpu.if2id.btbPredictedTaken && isBranchOrJump cpu && actualTaken cpu io) ||
    btbWrongTarget cpu io) &&
    !branchHazard cpu && !memStall cpu io

/-- The event that advances each counter. -/
def counterEvent : Counter → Bool
  | .mcycle => true
  | .minstret => instructionRetired cpu io
  | .mhpmcounter3 => mispredicted cpu io && !memStall cpu io
  | .mhpmcounter4 => pcStall cpu && !memStall cpu io && !controlFlushEvent cpu io
  | .mhpmcounter5 => memStall cpu io
  | .mhpmcounter6 => controlFlushEvent cpu io
  | .mhpmcounter7 => btbMissPenalty cpu io
  | .mhpmcounter8 => isBranchOrJump cpu && !branchHazard cpu && !memStall cpu io
  | .mhpmcounter9 =>
    cpu.if2id.btbPredictedTaken && isBranchOrJump cpu && !branchHazard cpu && !memStall cpu io

/-! ## Clocked update -/

/-- One clock edge, with a given answer of the predictors for the current fetch. -/
def stepWith : PipelinedCPU where
  regs := RegisterFile.write cpu.regs cpu.mem2wb.regsWriteEnable cpu.mem2wb.regsWriteAddress
    (regsWriteData cpu)
  instFetch := InstructionFetch.step predictions cpu.instFetch (fetchInputs cpu io)
  if2id := pipelineRegister IF2ID.bubble (if2idStall cpu io) (if2idFlush cpu io)
    (if2idInput predictions cpu io) cpu.if2id
  id2ex := pipelineRegister ID2EX.bubble (memStall cpu io) (id2exFlush cpu io)
    (id2exInput cpu io) cpu.id2ex
  ex2mem := pipelineRegister EX2MEM.reset (memStall cpu io) false (ex2memInput cpu io) cpu.ex2mem
  mem := MemoryAccess.step cpu.mem cpu.ex2mem io.bus
  mem2wb := pipelineRegister MEM2WB.reset (memStall cpu io) false (mem2wbInput cpu io) cpu.mem2wb
  csrRegs := CSR.step cpu.csrRegs
    (InstructionDecode.exCsrAddress cpu.if2id.instruction) (csrWrite cpu io)
    (trap cpu io) (counterEvent cpu io)
  btbMispredictPending := nextBtbMispredictPending cpu io
  btbCorrectionAddrPending := nextBtbCorrectionAddrPending cpu io

/-- One clock edge of the core. -/
def step : PipelinedCPU := stepWith cpu.instFetch.predict cpu io

end PipelinedCPU

end MyCpu
