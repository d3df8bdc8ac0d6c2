import MyCpu.Core.Alu
import MyCpu.Core.PipelineRegisters

/-! # Register file, forwarding, execute and write-back

`RegisterFile.scala`, `Forwarding.scala`, `Execute.scala` and `WriteBack.scala`:
the data path around EX, from the register read ports through the bypass
selectors to the value that WB writes. -/

namespace MyCpu

/-! ## Register file -/

/-- The physical registers, addressed by architectural number; entry 0 does not exist in the
    hardware and is never read or written. -/
abbrev RegisterFile := RegAddr → Word

namespace RegisterFile

/-- Architectural contents: `x0` reads as zero. -/
def get (registers : RegisterFile) (address : RegAddr) : Word :=
  if address = 0#5 then 0#32 else registers address

/-- Clocked write port. -/
def write (registers : RegisterFile) (writeEnable : Bool)
    (writeAddress : RegAddr) (writeData : Word) :
    RegisterFile := fun address =>
  if writeEnable ∧ writeAddress ≠ 0#5 ∧ address = writeAddress then writeData else registers address

/-- Read port with write-through of the value being written in the same cycle. -/
def readData (registers : RegisterFile) (writeEnable : Bool)
    (writeAddress : RegAddr) (writeData : Word)
    (readAddress : RegAddr) : Word :=
  if readAddress = 0#5 then 0#32
  else if writeEnable ∧ writeAddress = readAddress then writeData
  else registers readAddress

end RegisterFile

/-! ## Forwarding -/

namespace Forwarding

/-- Bypass selector for one operand; the ID-side and EX-side selectors differ only in the operand
    they are given. -/
def select (rs rdMem : RegAddr) (regWriteEnableMem : Bool) (rdWb : RegAddr)
    (regWriteEnableWb : Bool) :
    ForwardingType :=
  if regWriteEnableMem ∧ rs = rdMem ∧ rdMem ≠ 0#5 then .forwardFromMEM
  else if regWriteEnableWb ∧ rs = rdWb ∧ rdWb ≠ 0#5 then .forwardFromWB
  else .noForward

/-- The bypass multiplexer of EX and of the ID/EX input. -/
def mux (forward : ForwardingType) (data fromMEM fromWB : Word) : Word :=
  match forward with
  | .noForward => data
  | .forwardFromMEM => fromMEM
  | .forwardFromWB => fromWB

end Forwarding

/-! ## Execute -/

namespace Execute

def aluFunct (ex : ID2EX) : ALUFunctions :=
  ALUControl.aluFunct (InstructionDecode.opcode ex.instruction)
    (InstructionDecode.funct3 ex.instruction)
    (InstructionDecode.funct7 ex.instruction)

def op1 (ex : ID2EX) (reg1Data : Word) : Word :=
  match ex.aluop1Source with
  | .instructionAddress => ex.instructionAddress
  | .register => reg1Data

def op2 (ex : ID2EX) (reg2Data : Word) : Word :=
  match ex.aluop2Source with
  | .immediate => ex.immediate
  | .register => reg2Data

/-- ALU output for operands that have passed the bypass multiplexers. -/
def memAluResult (ex : ID2EX) (reg1Data reg2Data : Word) : Word :=
  ALU.result (aluFunct ex) (op1 ex reg1Data) (op2 ex reg2Data)

def uimm (instruction : Word) : Word := (instruction.extractLsb' 15 5).zeroExtend 32

def csrWriteData (ex : ID2EX) (reg1Data : Word) : Word :=
  let funct3 := InstructionDecode.funct3 ex.instruction
  if funct3 = InstructionsTypeCSR.csrrw then reg1Data
  else if funct3 = InstructionsTypeCSR.csrrc then ex.csrReadData &&& ~~~reg1Data
  else if funct3 = InstructionsTypeCSR.csrrs then ex.csrReadData ||| reg1Data
  else if funct3 = InstructionsTypeCSR.csrrwi then uimm ex.instruction
  else if funct3 = InstructionsTypeCSR.csrrci then ex.csrReadData &&& ~~~uimm ex.instruction
  else if funct3 = InstructionsTypeCSR.csrrsi then ex.csrReadData ||| uimm ex.instruction
  else 0#32

end Execute

/-! ## Write-back -/

namespace WriteBack

def regsWriteData (wb : MEM2WB) : Word :=
  match wb.regsWriteSource with
  | .memory => wb.memoryReadData
  | .csr => wb.csrReadData
  | .nextInstructionAddress => wb.instructionAddress + 4#32
  | .aluResult => wb.aluResult

end WriteBack

end MyCpu
