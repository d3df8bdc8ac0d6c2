import Mathlib.Data.BitVec

/-! # Widths and instruction encodings

The constants of `Parameters.scala` and `Instructions.scala` that the core and
the bus read: word and register-address widths, the reset address, opcodes,
`funct3` selectors and the whole-word encodings of `nop`, `mret`, `ecall` and
`ebreak`.  Selector signals that Chisel carries as small `UInt`s are
enumerations here. -/

namespace MyCpu

/-- Addresses, data and instructions are 32 bits wide. -/
abbrev Word := BitVec 32

/-- Architectural register numbers. -/
abbrev RegAddr := BitVec 5

/-- CSR addresses. -/
abbrev CsrAddr := BitVec 12

namespace ProgramCounter

/-- Reset value of the fetch pc. -/
def entryAddress : Word := 0x1000#32

end ProgramCounter

namespace InstructionTypes

def L : BitVec 7 := 0b0000011#7
def I : BitVec 7 := 0b0010011#7
def S : BitVec 7 := 0b0100011#7
def RM : BitVec 7 := 0b0110011#7
def B : BitVec 7 := 0b1100011#7

end InstructionTypes

namespace Instructions

def lui : BitVec 7 := 0b0110111#7
def jal : BitVec 7 := 0b1101111#7
def jalr : BitVec 7 := 0b1100111#7
def auipc : BitVec 7 := 0b0010111#7
def csr : BitVec 7 := 0b1110011#7
def fence : BitVec 7 := 0b0001111#7

end Instructions

namespace InstructionsTypeL

def lb : BitVec 3 := 0b000#3
def lh : BitVec 3 := 0b001#3
def lw : BitVec 3 := 0b010#3
def lbu : BitVec 3 := 0b100#3
def lhu : BitVec 3 := 0b101#3

end InstructionsTypeL

namespace InstructionsTypeI

def addi : BitVec 3 := 0#3
def slli : BitVec 3 := 1#3
def slti : BitVec 3 := 2#3
def sltiu : BitVec 3 := 3#3
def xori : BitVec 3 := 4#3
def sri : BitVec 3 := 5#3
def ori : BitVec 3 := 6#3
def andi : BitVec 3 := 7#3

end InstructionsTypeI

namespace InstructionsTypeS

def sb : BitVec 3 := 0b000#3
def sh : BitVec 3 := 0b001#3
def sw : BitVec 3 := 0b010#3

end InstructionsTypeS

namespace InstructionsTypeR

def addSub : BitVec 3 := 0#3
def sll : BitVec 3 := 1#3
def slt : BitVec 3 := 2#3
def sltu : BitVec 3 := 3#3
def xor : BitVec 3 := 4#3
def sr : BitVec 3 := 5#3
def or : BitVec 3 := 6#3
def and : BitVec 3 := 7#3

end InstructionsTypeR

namespace InstructionsTypeM

def mul : BitVec 3 := 0#3
def mulh : BitVec 3 := 1#3
def mulhsu : BitVec 3 := 2#3
def mulhum : BitVec 3 := 3#3
def div : BitVec 3 := 4#3
def divu : BitVec 3 := 5#3
def rem : BitVec 3 := 6#3
def remu : BitVec 3 := 7#3

end InstructionsTypeM

namespace InstructionsTypeB

def beq : BitVec 3 := 0b000#3
def bne : BitVec 3 := 0b001#3
def blt : BitVec 3 := 0b100#3
def bge : BitVec 3 := 0b101#3
def bltu : BitVec 3 := 0b110#3
def bgeu : BitVec 3 := 0b111#3

end InstructionsTypeB

namespace InstructionsTypeCSR

def csrrw : BitVec 3 := 0b001#3
def csrrs : BitVec 3 := 0b010#3
def csrrc : BitVec 3 := 0b011#3
def csrrwi : BitVec 3 := 0b101#3
def csrrsi : BitVec 3 := 0b110#3
def csrrci : BitVec 3 := 0b111#3

end InstructionsTypeCSR

namespace InstructionsNop

def nop : Word := 0x00000013#32

end InstructionsNop

namespace InstructionsRet

def mret : Word := 0x30200073#32

end InstructionsRet

namespace InstructionsEnv

def ecall : Word := 0x00000073#32
def ebreak : Word := 0x00100073#32

end InstructionsEnv

inductive ALUOp1Source where
  | register
  | instructionAddress
deriving DecidableEq, Repr

inductive ALUOp2Source where
  | register
  | immediate
deriving DecidableEq, Repr

inductive RegWriteSource where
  | aluResult
  | memory
  | csr
  | nextInstructionAddress
deriving DecidableEq, Repr

inductive ForwardingType where
  | noForward
  | forwardFromMEM
  | forwardFromWB
deriving DecidableEq, Repr

end MyCpu
