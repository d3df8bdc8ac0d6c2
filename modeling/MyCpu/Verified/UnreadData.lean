import MyCpu.Verified.PipelineRun

/-! # Read data that nobody reads

The bus presents read data in every cycle, and the core uses it in the cycle in which
a read completes.  Two buses that differ in the other cycles only lead the core to the
same state. -/

namespace MyCpu.PipelinedCPU

variable {cpu : PipelinedCPU} {io io' : Inputs}

/-- Two inputs that differ in nothing but the read data of the bus, and not even there when a read
    completes. -/
structure SameButReadData (cpu : PipelinedCPU) (io io' : Inputs) : Prop where
  instruction : io'.instruction = io.instruction
  instructionValid : io'.instructionValid = io.instructionValid
  interruptFlag : io'.interruptFlag = io.interruptFlag
  readValid : io'.bus.readValid = io.bus.readValid
  writeValid : io'.bus.writeValid = io.bus.writeValid
  granted : io'.bus.granted = io.bus.granted
  readData : MemoryAccess.readCompletes cpu.mem io.bus = true → io'.bus.readData = io.bus.readData

namespace SameButReadData

variable (same : SameButReadData cpu io io')

include same

theorem inActiveRead :
    MemoryAccess.inActiveRead cpu.mem io'.bus = MemoryAccess.inActiveRead cpu.mem io.bus := by
  rw [MemoryAccess.inActiveRead, MemoryAccess.inActiveRead, same.readValid]

theorem loaded : MemoryAccess.wbMemoryReadData cpu.mem cpu.ex2mem io'.bus =
    MemoryAccess.wbMemoryReadData cpu.mem cpu.ex2mem io.bus := by
  have completes : MemoryAccess.readCompletes cpu.mem io'.bus =
      MemoryAccess.readCompletes cpu.mem io.bus := by
    rw [MemoryAccess.readCompletes, MemoryAccess.readCompletes, same.readValid]
  rw [MemoryAccess.wbMemoryReadData, MemoryAccess.wbMemoryReadData, completes]
  cases finished : MemoryAccess.readCompletes cpu.mem io.bus with
  | true => rw [same.readData finished]
  | false => rfl

theorem memStall : memStall cpu io' = memStall cpu io := by
  rw [PipelinedCPU.memStall, PipelinedCPU.memStall, MemoryAccess.ctrlStallFlag,
    MemoryAccess.ctrlStallFlag, same.readValid, same.writeValid]

theorem forwardFromMem : forwardFromMem cpu io' = forwardFromMem cpu io := by
  rw [PipelinedCPU.forwardFromMem, PipelinedCPU.forwardFromMem, MemoryAccess.forwardToEx,
    MemoryAccess.forwardToEx, MemoryAccess.wbRegsWriteSource, MemoryAccess.wbRegsWriteSource,
    same.inActiveRead, same.loaded]

theorem mem2wbInput : mem2wbInput cpu io' = mem2wbInput cpu io := by
  simp only [PipelinedCPU.mem2wbInput, MemoryAccess.wbRegsWriteEnable,
    MemoryAccess.wbRegsWriteSource, MemoryAccess.wbRegsWriteAddress, same.inActiveRead, same.loaded]

theorem access : MemoryAccess.step cpu.mem cpu.ex2mem io'.bus =
    MemoryAccess.step cpu.mem cpu.ex2mem io.bus := by
  simp only [MemoryAccess.step, MemoryAccess.nextState, MemoryAccess.readCompletes,
    same.readValid, same.writeValid, same.granted, same.loaded]

theorem trap : trap cpu io' = trap cpu io := by
  simp only [PipelinedCPU.trap, clintInputs, clintJumpAddress, idReg1Data,
    trapView, csrWrite, exReg1Data, same.forwardFromMem, same.interruptFlag]

theorem actualTaken : actualTaken cpu io' = actualTaken cpu io := by
  simp only [PipelinedCPU.actualTaken, branchTaken, interruptAssert, idReg1Data,
    idReg2Data, same.forwardFromMem, same.trap]

theorem actualTarget : actualTarget cpu io' = actualTarget cpu io := by
  simp only [PipelinedCPU.actualTarget, interruptAssert, clintJumpAddress, idReg1Data,
    same.forwardFromMem, same.trap]

theorem wrongTarget : btbWrongTarget cpu io' = btbWrongTarget cpu io := by
  rw [btbWrongTarget, btbWrongTarget, same.actualTaken, same.actualTarget]

theorem mispredictRaw : btbMispredictRaw cpu io' = btbMispredictRaw cpu io := by
  rw [btbMispredictRaw, btbMispredictRaw, btbWrongDirection, btbWrongDirection,
    same.wrongTarget, same.actualTaken]

theorem correctionDue : pendingCorrectionDue cpu io' = pendingCorrectionDue cpu io := by
  rw [pendingCorrectionDue, pendingCorrectionDue, same.memStall]

theorem correctionAddrRaw : btbCorrectionAddrRaw cpu io' = btbCorrectionAddrRaw cpu io := by
  rw [btbCorrectionAddrRaw, btbCorrectionAddrRaw, same.wrongTarget, same.actualTarget]

theorem correctionAddr : btbCorrectionAddr cpu io' = btbCorrectionAddr cpu io := by
  rw [btbCorrectionAddr, btbCorrectionAddr, same.correctionDue, same.correctionAddrRaw]

theorem btbMispredict : btbMispredict cpu io' = btbMispredict cpu io := by
  rw [PipelinedCPU.btbMispredict, PipelinedCPU.btbMispredict,
    same.mispredictRaw, same.correctionDue]

theorem mispredicted : mispredicted cpu io' = mispredicted cpu io := by
  simp only [PipelinedCPU.mispredicted, rasWrongTarget, ibtbWrongTarget,
    same.btbMispredict, same.actualTarget]

theorem nextPending : nextBtbMispredictPending cpu io' = nextBtbMispredictPending cpu io := by
  rw [nextBtbMispredictPending, nextBtbMispredictPending, same.memStall, same.mispredictRaw]

theorem nextPendingAddr :
    nextBtbCorrectionAddrPending cpu io' = nextBtbCorrectionAddrPending cpu io := by
  rw [nextBtbCorrectionAddrPending, nextBtbCorrectionAddrPending, same.memStall, same.mispredictRaw,
    same.correctionAddrRaw]

theorem needIfFlush : needIfFlush cpu io' = needIfFlush cpu io := by
  simp only [PipelinedCPU.needIfFlush, predictionCorrect, btbCorrectPrediction,
    rasCorrectPredict, ibtbCorrectPredict, same.actualTaken, same.actualTarget, same.mispredicted]

theorem counterEvent : counterEvent cpu io' = counterEvent cpu io := by
  funext counter
  cases counter <;> simp only [PipelinedCPU.counterEvent, controlFlushEvent,
    instructionRetired, storeCompleted, btbMissPenalty, same.wrongTarget, same.memStall,
    same.mispredicted, same.needIfFlush, same.actualTaken, same.writeValid]

theorem fetchInputs : fetchInputs cpu io' = fetchInputs cpu io := by
  simp only [PipelinedCPU.fetchInputs, fetchStall, btbCorrectPrediction,
    btbShouldUpdate, rasPushTrigger, ibtbShouldUpdate, idRegDataForwarded, same.btbMispredict,
    same.correctionAddr, same.actualTaken, same.actualTarget, same.memStall, same.forwardFromMem,
    same.instruction, same.instructionValid]

/-- The core looks at the read data of the bus only when a read completes. -/
theorem stepWith (predictions : Predictions) :
    stepWith predictions cpu io' = stepWith predictions cpu io := by
  simp only [PipelinedCPU.stepWith, if2idInput, id2exInput, ex2memInput, aluResult,
    exReg1Data, exReg2Data, idRegDataForwarded, if2idStall, if2idFlush, id2exFlush, csrWrite,
    same.nextPending, same.nextPendingAddr, same.forwardFromMem, same.access, same.mem2wbInput,
    same.memStall, same.counterEvent, same.trap, same.fetchInputs, same.needIfFlush]

theorem if2idFlush : if2idFlush cpu io' = if2idFlush cpu io := by
  rw [PipelinedCPU.if2idFlush, PipelinedCPU.if2idFlush, same.needIfFlush, same.memStall]

theorem id2exFlush : id2exFlush cpu io' = id2exFlush cpu io := by
  rw [PipelinedCPU.id2exFlush, PipelinedCPU.id2exFlush, same.memStall]

end SameButReadData

end MyCpu.PipelinedCPU
