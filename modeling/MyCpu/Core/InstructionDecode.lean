import MyCpu.Core.Instructions

/-! # Instruction decode

`InstructionDecode.scala`: field extraction, the control signals derived from the
word in ID, and the early resolution of branches and jumps on operands that the
forwarding network has already selected. -/

namespace MyCpu.InstructionDecode

/-! ## Instruction fields -/

def opcode (instruction : Word) : BitVec 7 := instruction.extractLsb' 0 7
def rd (instruction : Word) : RegAddr := instruction.extractLsb' 7 5
def funct3 (instruction : Word) : BitVec 3 := instruction.extractLsb' 12 3
def rs1 (instruction : Word) : RegAddr := instruction.extractLsb' 15 5
def rs2 (instruction : Word) : RegAddr := instruction.extractLsb' 20 5
def funct7 (instruction : Word) : BitVec 7 := instruction.extractLsb' 25 7

/-! ## Operand use -/

/-- The `rs1` bits of a CSR immediate form hold a constant, not a register. -/
def csrUsesUimm (instruction : Word) : Bool :=
  opcode instruction = Instructions.csr &&
    (funct3 instruction = InstructionsTypeCSR.csrrwi || funct3 instruction =
      InstructionsTypeCSR.csrrci ||
      funct3 instruction = InstructionsTypeCSR.csrrsi)

def usesRs1 (instruction : Word) : Bool :=
  opcode instruction = InstructionTypes.RM || opcode instruction = InstructionTypes.I ||
    opcode instruction = InstructionTypes.L || opcode instruction = InstructionTypes.S ||
    opcode instruction = InstructionTypes.B || opcode instruction = Instructions.jalr ||
    (opcode instruction = Instructions.csr && !csrUsesUimm instruction)

def usesRs2 (instruction : Word) : Bool :=
  opcode instruction = InstructionTypes.RM || opcode instruction = InstructionTypes.S ||
    opcode instruction = InstructionTypes.B

def regsReg1ReadAddress (instruction : Word) : RegAddr :=
  if usesRs1 instruction then rs1 instruction else 0#5

def regsReg2ReadAddress (instruction : Word) : RegAddr :=
  if usesRs2 instruction then rs2 instruction else 0#5

theorem reg1_unused {instruction : Word} (unused : usesRs1 instruction = false) :
    regsReg1ReadAddress instruction = 0#5 := by
  rw [regsReg1ReadAddress, unused, if_neg Bool.false_ne_true]

theorem reg2_unused {instruction : Word} (unused : usesRs2 instruction = false) :
    regsReg2ReadAddress instruction = 0#5 := by
  rw [regsReg2ReadAddress, unused, if_neg Bool.false_ne_true]

/-! ## Immediates -/

def immI (instruction : Word) : Word := (instruction.extractLsb' 20 12).signExtend 32

def immS (instruction : Word) : Word :=
  (instruction.extractLsb' 25 7 ++ instruction.extractLsb' 7 5).signExtend 32

def immB (instruction : Word) : Word :=
  (instruction.extractLsb' 31 1 ++ instruction.extractLsb' 7 1 ++ instruction.extractLsb' 25 6 ++
    instruction.extractLsb' 8 4 ++ 0#1).signExtend 32

def immU (instruction : Word) : Word := instruction.extractLsb' 12 20 ++ 0#12

def immJ (instruction : Word) : Word :=
  (instruction.extractLsb' 31 1 ++ instruction.extractLsb' 12 8 ++ instruction.extractLsb' 20 1 ++
    instruction.extractLsb' 21 10 ++ 0#1).signExtend 32

def exImmediate (instruction : Word) : Word :=
  if opcode instruction = InstructionTypes.S then immS instruction
  else if opcode instruction = InstructionTypes.B then immB instruction
  else if opcode instruction = Instructions.lui ∨ opcode instruction = Instructions.auipc then
    immU instruction
  else if opcode instruction = Instructions.jal then immJ instruction
  else immI instruction

/-! ## Control signals for EX, MEM and WB -/

def exAluop1Source (instruction : Word) : ALUOp1Source :=
  if opcode instruction = Instructions.auipc ∨ opcode instruction = InstructionTypes.B ∨
      opcode instruction = Instructions.jal then .instructionAddress
  else .register

def exAluop2Source (instruction : Word) : ALUOp2Source :=
  if opcode instruction = InstructionTypes.RM then .register else .immediate

def exMemoryReadEnable (instruction : Word) : Bool := opcode instruction = InstructionTypes.L

def exMemoryWriteEnable (instruction : Word) : Bool := opcode instruction = InstructionTypes.S

def exRegWriteSource (instruction : Word) : RegWriteSource :=
  if opcode instruction = InstructionTypes.L then .memory
  else if opcode instruction = Instructions.csr then .csr
  else if opcode instruction = Instructions.jal ∨ opcode instruction = Instructions.jalr then
    .nextInstructionAddress
  else .aluResult

def exRegWriteEnable (instruction : Word) : Bool :=
  opcode instruction = InstructionTypes.RM || opcode instruction = InstructionTypes.I ||
    opcode instruction = InstructionTypes.L || opcode instruction = Instructions.auipc ||
    opcode instruction = Instructions.lui || opcode instruction = Instructions.jal ||
    opcode instruction = Instructions.jalr || opcode instruction = Instructions.csr

def exRegWriteAddress (instruction : Word) : RegAddr := rd instruction

def exCsrAddress (instruction : Word) : CsrAddr := instruction.extractLsb' 20 12

def exCsrWriteEnable (instruction : Word) : Bool :=
  opcode instruction = Instructions.csr &&
    (funct3 instruction = InstructionsTypeCSR.csrrw || funct3 instruction =
      InstructionsTypeCSR.csrrwi ||
      funct3 instruction = InstructionsTypeCSR.csrrs || funct3 instruction =
        InstructionsTypeCSR.csrrsi ||
      funct3 instruction = InstructionsTypeCSR.csrrc || funct3 instruction =
        InstructionsTypeCSR.csrrci)

def ctrlJumpInstruction (instruction : Word) : Bool :=
  opcode instruction = Instructions.jal || opcode instruction = Instructions.jalr ||
    opcode instruction = InstructionTypes.B

/-! ## Branch and jump resolution -/

/-- Operand selection of the ID-side comparator; an unused operand reads as zero. -/
def forwarded (uses : Bool) (forward : ForwardingType) (regData fromWB fromMEM : Word) : Word :=
  if uses then
    match forward with
    | .noForward => regData
    | .forwardFromWB => fromWB
    | .forwardFromMEM => fromMEM
  else 0#32

def branchCondition (instruction reg1Data reg2Data : Word) : Bool :=
  if funct3 instruction = InstructionsTypeB.beq then reg1Data == reg2Data
  else if funct3 instruction = InstructionsTypeB.bne then reg1Data != reg2Data
  else if funct3 instruction = InstructionsTypeB.blt then reg1Data.slt reg2Data
  else if funct3 instruction = InstructionsTypeB.bge then !reg1Data.slt reg2Data
  else if funct3 instruction = InstructionsTypeB.bltu then reg1Data.ult reg2Data
  else if funct3 instruction = InstructionsTypeB.bgeu then !reg1Data.ult reg2Data
  else false

/-- A control transfer is suppressed while `branchHazard` says its operands are stale. -/
def branchTaken (branchHazard : Bool) (instruction reg1Data reg2Data : Word) : Bool :=
  !branchHazard &&
    (opcode instruction = Instructions.jal || opcode instruction = Instructions.jalr ||
      (opcode instruction = InstructionTypes.B && branchCondition instruction reg1Data reg2Data))

def jalrTarget (instruction reg1Data : Word) : Word :=
  (reg1Data + exImmediate instruction).extractLsb' 1 31 ++ 0#1

def clintJumpAddress (instruction instructionAddress reg1Data : Word) : Word :=
  if opcode instruction = InstructionTypes.B ∨ opcode instruction = Instructions.jal then
    instructionAddress + exImmediate instruction
  else if opcode instruction = Instructions.jalr then jalrTarget instruction reg1Data
  else 0#32

def ifJumpFlag (branchTaken interruptAssert : Bool) : Bool := branchTaken || interruptAssert

def ifJumpAddress (interruptAssert : Bool) (interruptHandlerAddress jumpAddress : Word) : Word :=
  if interruptAssert then interruptHandlerAddress else jumpAddress

end MyCpu.InstructionDecode
