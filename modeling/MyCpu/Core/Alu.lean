import MyCpu.Core.Instructions

/-! # ALU and ALU control

`ALUControl.scala` selects one of the functions of `ALU.scala` from the opcode,
`funct3` and `funct7` fields; `ALU.scala` computes it on two 32-bit operands. -/

namespace MyCpu

inductive ALUFunctions where
  | zero | add | sub | sll | slt | xor | or | and | srl | sra | sltu
  | mul | mulh | mulhsu | mulhu | div | rem | divu | remu
deriving DecidableEq, Repr

namespace ALU

/-- A one-bit comparison result, zero-extended to a word. -/
def flag (condition : Bool) : Word := if condition then 1#32 else 0#32

/-- Two's-complement magnitude, as the divider computes it. -/
def magnitude (operand : Word) : Word := if operand.msb then ~~~operand + 1#32 else operand

def divSigned (op1 op2 : Word) : Word :=
  let divAbs := magnitude op1 / magnitude op2
  if op1.msb ^^ op2.msb then ~~~divAbs + 1#32 else divAbs

def remSigned (op1 op2 : Word) : Word :=
  let remAbs := magnitude op1 % magnitude op2
  if op1.msb then ~~~remAbs + 1#32 else remAbs

def result (func : ALUFunctions) (op1 op2 : Word) : Word :=
  match func with
  | .zero => 0#32
  | .add => op1 + op2
  | .sub => op1 - op2
  | .sll => op1 <<< op2.extractLsb' 0 5
  | .slt => flag (op1.slt op2)
  | .xor => op1 ^^^ op2
  | .or => op1 ||| op2
  | .and => op1 &&& op2
  | .srl => op1 >>> op2.extractLsb' 0 5
  | .sra => op1.sshiftRight' (op2.extractLsb' 0 5)
  | .sltu => flag (op1.ult op2)
  | .mul => op1 * op2
  | .mulh => (op1.signExtend 64 * op2.signExtend 64).extractLsb' 32 32
  | .mulhsu => (op1.signExtend 64 * op2.zeroExtend 64).extractLsb' 32 32
  | .mulhu => (op1.zeroExtend 64 * op2.zeroExtend 64).extractLsb' 32 32
  | .div => if op2 = 0#32 then 0xFFFFFFFF#32 else divSigned op1 op2
  | .rem => if op2 = 0#32 then op1 else remSigned op1 op2
  | .divu => if op2 = 0#32 then 0xFFFFFFFF#32 else op1 / op2
  | .remu => if op2 = 0#32 then op1 else op1 % op2

end ALU

namespace ALUControl

def functI (funct3 : BitVec 3) (funct7 : BitVec 7) : ALUFunctions :=
  if funct3 = InstructionsTypeI.addi then .add
  else if funct3 = InstructionsTypeI.slli then .sll
  else if funct3 = InstructionsTypeI.slti then .slt
  else if funct3 = InstructionsTypeI.sltiu then .sltu
  else if funct3 = InstructionsTypeI.xori then .xor
  else if funct3 = InstructionsTypeI.ori then .or
  else if funct3 = InstructionsTypeI.andi then .and
  else if funct3 = InstructionsTypeI.sri then (if funct7.getLsbD 5 then .sra else .srl)
  else .zero

def functM (funct3 : BitVec 3) : ALUFunctions :=
  if funct3 = InstructionsTypeM.mul then .mul
  else if funct3 = InstructionsTypeM.mulh then .mulh
  else if funct3 = InstructionsTypeM.mulhsu then .mulhsu
  else if funct3 = InstructionsTypeM.mulhum then .mulhu
  else if funct3 = InstructionsTypeM.div then .div
  else if funct3 = InstructionsTypeM.rem then .rem
  else if funct3 = InstructionsTypeM.divu then .divu
  else if funct3 = InstructionsTypeM.remu then .remu
  else .zero

def functR (funct3 : BitVec 3) (funct7 : BitVec 7) : ALUFunctions :=
  if funct3 = InstructionsTypeR.addSub then (if funct7.getLsbD 5 then .sub else .add)
  else if funct3 = InstructionsTypeR.sll then .sll
  else if funct3 = InstructionsTypeR.slt then .slt
  else if funct3 = InstructionsTypeR.sltu then .sltu
  else if funct3 = InstructionsTypeR.xor then .xor
  else if funct3 = InstructionsTypeR.or then .or
  else if funct3 = InstructionsTypeR.and then .and
  else if funct3 = InstructionsTypeR.sr then (if funct7.getLsbD 5 then .sra else .srl)
  else .zero

def aluFunct (opcode : BitVec 7) (funct3 : BitVec 3) (funct7 : BitVec 7) : ALUFunctions :=
  if opcode = InstructionTypes.I then functI funct3 funct7
  else if opcode = InstructionTypes.RM then
    (if funct7 = 0b0000001#7 then functM funct3 else functR funct3 funct7)
  else if opcode = InstructionTypes.B ∨ opcode = InstructionTypes.L ∨ opcode = InstructionTypes.S
      ∨ opcode = Instructions.jal ∨ opcode = Instructions.jalr
      ∨ opcode = Instructions.lui ∨ opcode = Instructions.auipc then .add
  else .zero

end ALUControl

end MyCpu
