import Mathlib.Data.BitVec
import Mathlib.Tactic.SplitIfs

/-! # RV32IM

The unprivileged integer instruction set with the M extension and `FENCE`, as a
sequential machine: the instruction forms, the decoding of legal words, and the
effect of one instruction on the pc, the registers and a byte-addressed memory.
Loads and stores are defined on bytes; the word transfer that a 32-bit data bus
sees for a store is derived from the bytes.

Jump targets are not checked for alignment: the machine continues at the target. -/

namespace Rv32im

abbrev Word := BitVec 32

abbrev Reg := BitVec 5

/-- Byte-addressed, little-endian data memory. -/
abbrev Memory := Word → BitVec 8

/-! ## Operations -/

inductive AluOp where
  | add | sub | sll | slt | sltu | xor | srl | sra | or | and
deriving DecidableEq, Repr

inductive MulOp where
  | mul | mulh | mulhsu | mulhu | div | divu | rem | remu
deriving DecidableEq, Repr

inductive Condition where
  | eq | ne | lt | ge | ltu | geu
deriving DecidableEq, Repr

inductive LoadOp where
  | lb | lh | lw | lbu | lhu
deriving DecidableEq, Repr

inductive StoreOp where
  | sb | sh | sw
deriving DecidableEq, Repr

def AluOp.eval (op : AluOp) (a b : Word) : Word :=
  match op with
  | .add => a + b
  | .sub => a - b
  | .sll => a <<< (b.toNat % 32)
  | .slt => if a.toInt < b.toInt then 1#32 else 0#32
  | .sltu => if a.toNat < b.toNat then 1#32 else 0#32
  | .xor => a ^^^ b
  | .srl => a >>> (b.toNat % 32)
  | .sra => a.sshiftRight (b.toNat % 32)
  | .or => a ||| b
  | .and => a &&& b

/-- Multiplication keeps the low or the high word of the double-width product; division by zero
    gives all ones, the remainder by zero is the dividend, and the quotient that does not fit
    wraps. -/
def MulOp.eval (op : MulOp) (a b : Word) : Word :=
  match op with
  | .mul => a * b
  | .mulh => BitVec.ofInt 32 (a.toInt * b.toInt / 2 ^ 32)
  | .mulhsu => BitVec.ofInt 32 (a.toInt * b.toNat / 2 ^ 32)
  | .mulhu => BitVec.ofNat 32 (a.toNat * b.toNat / 2 ^ 32)
  | .div => if b = 0#32 then BitVec.allOnes 32 else BitVec.ofInt 32 (a.toInt.tdiv b.toInt)
  | .divu => if b = 0#32 then BitVec.allOnes 32 else BitVec.ofNat 32 (a.toNat / b.toNat)
  | .rem => if b = 0#32 then a else BitVec.ofInt 32 (a.toInt.tmod b.toInt)
  | .remu => if b = 0#32 then a else BitVec.ofNat 32 (a.toNat % b.toNat)

def Condition.eval (condition : Condition) (a b : Word) : Bool :=
  match condition with
  | .eq => a = b
  | .ne => a ≠ b
  | .lt => a.toInt < b.toInt
  | .ge => b.toInt ≤ a.toInt
  | .ltu => a.toNat < b.toNat
  | .geu => b.toNat ≤ a.toNat

/-- Number of bytes transferred. -/
def LoadOp.size : LoadOp → ℕ
  | .lb | .lbu => 1
  | .lh | .lhu => 2
  | .lw => 4

def StoreOp.size : StoreOp → ℕ
  | .sb => 1
  | .sh => 2
  | .sw => 4

/-- The value a load puts in its register. -/
def LoadOp.eval (op : LoadOp) (memory : Memory) (address : Word) : Word :=
  match op with
  | .lb => (memory address).signExtend 32
  | .lbu => (memory address).zeroExtend 32
  | .lh => (memory (address + 1#32) ++ memory address).signExtend 32
  | .lhu => (memory (address + 1#32) ++ memory address).zeroExtend 32
  | .lw => memory (address + 3#32) ++ memory (address + 2#32) ++ memory
      (address + 1#32) ++ memory address

/-- The memory after the low bytes of `value` are stored at `address`. -/
def StoreOp.eval (op : StoreOp) (memory : Memory) (address value : Word) : Memory := fun target =>
  if (target - address).toNat < op.size then value.extractLsb' (8 * (target - address).toNat) 8
  else memory target

/-! ## Instructions -/

inductive Instr where
  | lui (rd : Reg) (imm : Word)
  | auipc (rd : Reg) (imm : Word)
  | jal (rd : Reg) (offset : Word)
  | jalr (rd rs1 : Reg) (offset : Word)
  | branch (condition : Condition) (rs1 rs2 : Reg) (offset : Word)
  | load (op : LoadOp) (rd rs1 : Reg) (offset : Word)
  | store (op : StoreOp) (rs1 rs2 : Reg) (offset : Word)
  | opImm (op : AluOp) (rd rs1 : Reg) (imm : Word)
  | opReg (op : AluOp) (rd rs1 rs2 : Reg)
  | mulDiv (op : MulOp) (rd rs1 rs2 : Reg)
  | fence
deriving DecidableEq, Repr

/-! ## Decoding -/

section Fields

variable (word : Word)

def opcode : BitVec 7 := word.extractLsb' 0 7
def rd : Reg := word.extractLsb' 7 5
def funct3 : BitVec 3 := word.extractLsb' 12 3
def rs1 : Reg := word.extractLsb' 15 5
def rs2 : Reg := word.extractLsb' 20 5
def funct7 : BitVec 7 := word.extractLsb' 25 7

def immI : Word := (word.extractLsb' 20 12).signExtend 32

def immS : Word := (word.extractLsb' 25 7 ++ word.extractLsb' 7 5).signExtend 32

def immB : Word :=
  (word.extractLsb' 31 1 ++ word.extractLsb' 7 1 ++ word.extractLsb' 25 6 ++ word.extractLsb' 8 4 ++
    0#1).signExtend 32

def immU : Word := word.extractLsb' 12 20 ++ 0#12

def immJ : Word :=
  (word.extractLsb' 31 1 ++ word.extractLsb' 12 8 ++ word.extractLsb' 20 1 ++
    word.extractLsb' 21 10 ++
    0#1).signExtend 32

end Fields

def decodeCondition : BitVec 3 → Option Condition
  | 0b000#3 => some .eq
  | 0b001#3 => some .ne
  | 0b100#3 => some .lt
  | 0b101#3 => some .ge
  | 0b110#3 => some .ltu
  | 0b111#3 => some .geu
  | _ => none

def decodeLoadOp : BitVec 3 → Option LoadOp
  | 0b000#3 => some .lb
  | 0b001#3 => some .lh
  | 0b010#3 => some .lw
  | 0b100#3 => some .lbu
  | 0b101#3 => some .lhu
  | _ => none

def decodeStoreOp : BitVec 3 → Option StoreOp
  | 0b000#3 => some .sb
  | 0b001#3 => some .sh
  | 0b010#3 => some .sw
  | _ => none

/-- The operation of an immediate form; a shift amount leaves `funct7` to select the shift. -/
def decodeOpImm (funct3 : BitVec 3) (funct7 : BitVec 7) : Option AluOp :=
  match funct3 with
  | 0b000#3 => some .add
  | 0b001#3 => if funct7 = 0b0000000#7 then some .sll else none
  | 0b010#3 => some .slt
  | 0b011#3 => some .sltu
  | 0b100#3 => some .xor
  | 0b101#3 =>
    if funct7 = 0b0000000#7 then some .srl else if funct7 = 0b0100000#7 then some .sra else none
  | 0b110#3 => some .or
  | _ => some .and

def decodeOp (funct3 : BitVec 3) (funct7 : BitVec 7) : Option AluOp :=
  if funct7 = 0b0000000#7 then
    match funct3 with
    | 0b000#3 => some .add
    | 0b001#3 => some .sll
    | 0b010#3 => some .slt
    | 0b011#3 => some .sltu
    | 0b100#3 => some .xor
    | 0b101#3 => some .srl
    | 0b110#3 => some .or
    | _ => some .and
  else if funct7 = 0b0100000#7 then
    if funct3 = 0b000#3 then some .sub else if funct3 = 0b101#3 then some .sra else none
  else none

def decodeMulOp : BitVec 3 → MulOp
  | 0b000#3 => .mul
  | 0b001#3 => .mulh
  | 0b010#3 => .mulhsu
  | 0b011#3 => .mulhu
  | 0b100#3 => .div
  | 0b101#3 => .divu
  | 0b110#3 => .rem
  | _ => .remu

/-- The instruction of a legal word. -/
def decode (word : Word) : Option Instr :=
  if opcode word = 0b0110111#7 then some (.lui (rd word) (immU word))
  else if opcode word = 0b0010111#7 then some (.auipc (rd word) (immU word))
  else if opcode word = 0b1101111#7 then some (.jal (rd word) (immJ word))
  else if opcode word = 0b1100111#7 then
    if funct3 word = 0b000#3 then some (.jalr (rd word) (rs1 word) (immI word)) else none
  else if opcode word = 0b1100011#7 then
    (decodeCondition (funct3 word)).map fun c => .branch c (rs1 word) (rs2 word) (immB word)
  else if opcode word = 0b0000011#7 then
    (decodeLoadOp (funct3 word)).map fun o => .load o (rd word) (rs1 word) (immI word)
  else if opcode word = 0b0100011#7 then
    (decodeStoreOp (funct3 word)).map fun o => .store o (rs1 word) (rs2 word) (immS word)
  else if opcode word = 0b0010011#7 then
    (decodeOpImm (funct3 word) (funct7 word)).map fun o => .opImm o (rd word) (rs1 word) (immI word)
  else if opcode word = 0b0110011#7 then
    if funct7 word = 0b0000001#7 then
      some (.mulDiv (decodeMulOp (funct3 word)) (rd word) (rs1 word) (rs2 word))
    else (decodeOp (funct3 word) (funct7 word)).map
      fun o => .opReg o (rd word) (rs1 word) (rs2 word)
  else if opcode word = 0b0001111#7 then if funct3 word = 0b000#3 then some .fence else none
  else none

/-- The legal words, form by form. -/
inductive Encodes (word : Word) (instr : Instr) : Prop where
  | lui (code : opcode word = 0b0110111#7) (form : instr = .lui (rd word) (immU word))
  | auipc (code : opcode word = 0b0010111#7) (form : instr = .auipc (rd word) (immU word))
  | jal (code : opcode word = 0b1101111#7) (form : instr = .jal (rd word) (immJ word))
  | jalr (code : opcode word = 0b1100111#7) (form : instr = .jalr (rd word) (rs1 word) (immI word))
  | branch (condition : Condition) (code : opcode word = 0b1100011#7)
      (selected : decodeCondition (funct3 word) = some condition)
      (form : instr = .branch condition (rs1 word) (rs2 word) (immB word))
  | load (op : LoadOp) (code : opcode word = 0b0000011#7)
      (selected : decodeLoadOp (funct3 word) = some op)
      (form : instr = .load op (rd word) (rs1 word) (immI word))
  | store (op : StoreOp) (code : opcode word = 0b0100011#7)
      (selected : decodeStoreOp (funct3 word) = some op)
      (form : instr = .store op (rs1 word) (rs2 word) (immS word))
  | opImm (op : AluOp) (code : opcode word = 0b0010011#7)
      (selected : decodeOpImm (funct3 word) (funct7 word) = some op)
      (form : instr = .opImm op (rd word) (rs1 word) (immI word))
  | mulDiv (code : opcode word = 0b0110011#7) (multiply : funct7 word = 0b0000001#7)
      (form : instr = .mulDiv (decodeMulOp (funct3 word)) (rd word) (rs1 word) (rs2 word))
  | opReg (op : AluOp) (code : opcode word = 0b0110011#7) (other : funct7 word ≠ 0b0000001#7)
      (selected : decodeOp (funct3 word) (funct7 word) = some op)
      (form : instr = .opReg op (rd word) (rs1 word) (rs2 word))
  | fence (code : opcode word = 0b0001111#7) (form : instr = .fence)

theorem decode_encodes {word : Word} {instr : Instr} (decoded : decode word = some instr) :
    Encodes word instr := by
  unfold decode at decoded
  by_cases lui : opcode word = 0b0110111#7
  · rw [if_pos lui] at decoded
    exact .lui lui (Option.some.inj decoded).symm
  rw [if_neg lui] at decoded
  by_cases auipc : opcode word = 0b0010111#7
  · rw [if_pos auipc] at decoded
    exact .auipc auipc (Option.some.inj decoded).symm
  rw [if_neg auipc] at decoded
  by_cases jal : opcode word = 0b1101111#7
  · rw [if_pos jal] at decoded
    exact .jal jal (Option.some.inj decoded).symm
  rw [if_neg jal] at decoded
  by_cases jalr : opcode word = 0b1100111#7
  · rw [if_pos jalr] at decoded
    by_cases plain : funct3 word = 0b000#3
    · rw [if_pos plain] at decoded
      exact .jalr jalr (Option.some.inj decoded).symm
    · rw [if_neg plain] at decoded
      exact absurd decoded (Option.some_ne_none _).symm
  rw [if_neg jalr] at decoded
  by_cases branch : opcode word = 0b1100011#7
  · rw [if_pos branch] at decoded
    obtain ⟨selector, selected, form⟩ := Option.map_eq_some_iff.mp decoded
    exact .branch selector branch selected form.symm
  rw [if_neg branch] at decoded
  by_cases load : opcode word = 0b0000011#7
  · rw [if_pos load] at decoded
    obtain ⟨selector, selected, form⟩ := Option.map_eq_some_iff.mp decoded
    exact .load selector load selected form.symm
  rw [if_neg load] at decoded
  by_cases store : opcode word = 0b0100011#7
  · rw [if_pos store] at decoded
    obtain ⟨selector, selected, form⟩ := Option.map_eq_some_iff.mp decoded
    exact .store selector store selected form.symm
  rw [if_neg store] at decoded
  by_cases opImm : opcode word = 0b0010011#7
  · rw [if_pos opImm] at decoded
    obtain ⟨selector, selected, form⟩ := Option.map_eq_some_iff.mp decoded
    exact .opImm selector opImm selected form.symm
  rw [if_neg opImm] at decoded
  by_cases register : opcode word = 0b0110011#7
  · rw [if_pos register] at decoded
    by_cases multiply : funct7 word = 0b0000001#7
    · rw [if_pos multiply] at decoded
      exact .mulDiv register multiply (Option.some.inj decoded).symm
    · rw [if_neg multiply] at decoded
      obtain ⟨selector, selected, form⟩ := Option.map_eq_some_iff.mp decoded
      exact .opReg selector register multiply selected form.symm
  rw [if_neg register] at decoded
  by_cases fence : opcode word = 0b0001111#7
  · rw [if_pos fence] at decoded
    by_cases plain : funct3 word = 0b000#3
    · rw [if_pos plain] at decoded
      exact .fence fence (Option.some.inj decoded).symm
    · rw [if_neg plain] at decoded
      exact absurd decoded (Option.some_ne_none _).symm
  · rw [if_neg fence] at decoded
    exact absurd decoded (Option.some_ne_none _).symm

/-! ## Execution -/

/-- The architectural state. -/
structure Hart where
  pc : Word
  regs : Reg → Word
  memory : Memory

namespace Hart

/-- Register contents; `x0` reads as zero. -/
def get (hart : Hart) (r : Reg) : Word := if r = 0#5 then 0#32 else hart.regs r

end Hart

/-- A store as a word transfer: the aligned address, the bytes on their lanes, and one strobe bit
    for each byte written. -/
structure BusWrite where
  address : Word
  data : Word
  strobe : BitVec 4
deriving DecidableEq, Repr

/-- The byte offset of an address in its aligned word. -/
def lane (address : Word) : ℕ := (address.extractLsb' 0 2).toNat

def StoreOp.busWrite (op : StoreOp) (address value : Word) : BusWrite where
  address := address - BitVec.ofNat 32 (lane address)
  data := (value &&& BitVec.ofNat 32 (2 ^ (8 * op.size) - 1)) <<< (8 * lane address)
  strobe := BitVec.ofNat 4 ((2 ^ op.size - 1) * 2 ^ lane address)

/-- The observable effects of a run. -/
inductive Event where
  | busWrite (write : BusWrite)
  | retire (pc : Word) (write : Option (Reg × Word))
deriving DecidableEq, Repr

namespace Instr

variable (hart : Hart)

/-- The register write of an instruction, before `x0` is discarded. -/
def regWrite : Instr → Option (Reg × Word)
  | .lui rd imm => some (rd, imm)
  | .auipc rd imm => some (rd, hart.pc + imm)
  | .jal rd _ => some (rd, hart.pc + 4#32)
  | .jalr rd _ _ => some (rd, hart.pc + 4#32)
  | .load op rd rs1 offset => some (rd, op.eval hart.memory (hart.get rs1 + offset))
  | .opImm op rd rs1 imm => some (rd, op.eval (hart.get rs1) imm)
  | .opReg op rd rs1 rs2 => some (rd, op.eval (hart.get rs1) (hart.get rs2))
  | .mulDiv op rd rs1 rs2 => some (rd, op.eval (hart.get rs1) (hart.get rs2))
  | .branch _ _ _ _ | .store _ _ _ _ | .fence => none

def nextPc : Instr → Word
  | .jal _ offset => hart.pc + offset
  | .jalr _ rs1 offset => (hart.get rs1 + offset) &&& ~~~1#32
  | .branch condition rs1 rs2 offset =>
    if condition.eval (hart.get rs1) (hart.get rs2) then hart.pc + offset else hart.pc + 4#32
  | _ => hart.pc + 4#32

/-- The address and size of the data access. -/
def access : Instr → Option (Word × ℕ)
  | .load op _ rs1 offset => some (hart.get rs1 + offset, op.size)
  | .store op rs1 _ offset => some (hart.get rs1 + offset, op.size)
  | _ => none

def storeOf : Instr → Option (StoreOp × Word × Word)
  | .store op rs1 rs2 offset => some (op, hart.get rs1 + offset, hart.get rs2)
  | _ => none

def nextMemory (instr : Instr) : Memory :=
  match instr.storeOf hart with
  | some (op, address, value) => op.eval hart.memory address value
  | none => hart.memory

/-- The register write that takes effect. -/
def effectiveWrite (instr : Instr) : Option (Reg × Word) :=
  (instr.regWrite hart).filter fun write => write.1 ≠ 0#5

def exec (instr : Instr) : Hart where
  pc := instr.nextPc hart
  regs :=
    match instr.effectiveWrite hart with
    | some (rd, value) => Function.update hart.regs rd value
    | none => hart.regs
  memory := instr.nextMemory hart

def events (instr : Instr) : List Event :=
  ((instr.storeOf hart).map fun (op, address, value) =>
    Event.busWrite (op.busWrite address value)).toList ++
      [.retire hart.pc (instr.effectiveWrite hart)]

end Instr

/-! ## What an instruction asks for -/

/-- The instruction continues somewhere else than behind itself. -/
def Instr.transfers (hart : Hart) : Instr → Bool
  | .jal _ _ => true
  | .jalr _ _ _ => true
  | .branch condition rs1 rs2 _ => condition.eval (hart.get rs1) (hart.get rs2)
  | _ => false

theorem Instr.nextPc_sequential {instr : Instr} {hart : Hart}
    (sequential : instr.transfers hart = false) :
    instr.nextPc hart = hart.pc + 4#32 := by
  cases instr with
  | jal rd offset | jalr rd rs1 offset => exact Bool.noConfusion sequential
  | branch condition rs1 rs2 offset =>
    simp only [Instr.transfers] at sequential
    rw [Instr.nextPc, sequential, if_neg Bool.false_ne_true]
  | _ => rfl

/-- The register of the first operand, `x0` without one. -/
def Instr.source1 : Instr → Reg
  | .jalr _ rs1 _ | .branch _ rs1 _ _ | .load _ _ rs1 _ | .store _ rs1 _ _ => rs1
  | .opImm _ _ rs1 _ | .opReg _ _ rs1 _ | .mulDiv _ _ rs1 _ => rs1
  | .lui _ _ | .auipc _ _ | .jal _ _ | .fence => 0#5

/-- The register of the second operand, `x0` without one. -/
def Instr.source2 : Instr → Reg
  | .branch _ _ rs2 _ | .store _ _ rs2 _ | .opReg _ _ _ rs2 | .mulDiv _ _ _ rs2 => rs2
  | .jalr _ _ _ | .load _ _ _ _ | .opImm _ _ _ _ | .lui _ _ | .auipc _ _ | .jal _ _ | .fence => 0#5

def Instr.loads : Instr → Bool
  | .load _ _ _ _ => true
  | _ => false

def Instr.stores : Instr → Bool
  | .store _ _ _ _ => true
  | _ => false

def Instr.opcode : Instr → BitVec 7
  | .lui _ _ => 0b0110111#7
  | .auipc _ _ => 0b0010111#7
  | .jal _ _ => 0b1101111#7
  | .jalr _ _ _ => 0b1100111#7
  | .branch _ _ _ _ => 0b1100011#7
  | .load _ _ _ _ => 0b0000011#7
  | .store _ _ _ _ => 0b0100011#7
  | .opImm _ _ _ _ => 0b0010011#7
  | .opReg _ _ _ _ | .mulDiv _ _ _ _ => 0b0110011#7
  | .fence => 0b0001111#7

/-- Where a branch or jump goes when it is taken. -/
def Instr.target (hart : Hart) : Instr → Option Word
  | .jal _ offset | .branch _ _ _ offset => some (hart.pc + offset)
  | .jalr _ rs1 offset => some ((hart.get rs1 + offset) &&& ~~~1#32)
  | _ => none

/-- The next pc is the target of a transfer. -/
theorem Instr.nextPc_transfers {instr : Instr} {hart : Hart}
    (transfers : instr.transfers hart = true) :
    instr.target hart = some (instr.nextPc hart) := by
  cases instr with
  | jal rd offset | jalr rd rs1 offset => rfl
  | branch condition rs1 rs2 offset =>
    simp only [Instr.transfers] at transfers
    rw [Instr.target, Instr.nextPc, if_pos transfers]
  | _ => exact Bool.noConfusion transfers

/-! ## Programs -/

/-- Instruction memory: the word at each fetch address. -/
abbrev Program := Word → Word

/-- One instruction; a word that is not an instruction stops the machine. -/
def next (program : Program) (hart : Hart) : Hart :=
  match decode (program hart.pc) with
  | some instr => instr.exec hart
  | none => hart

def emit (program : Program) (hart : Hart) : List Event :=
  match decode (program hart.pc) with
  | some instr => instr.events hart
  | none => []

/-- The data access of an instruction stays inside one aligned word. -/
def InsideWord (instr : Instr) (hart : Hart) : Prop :=
  ∀ address size, instr.access hart = some (address, size) → lane address + size ≤ 4

/-- Along the run every word is an instruction and every data access stays inside one aligned
    word. -/
def LegalRun (program : Program) (hart : Hart) : Prop :=
  ∀ m, ∃ instr, decode (program ((next program)^[m] hart).pc) = some instr ∧
    InsideWord instr ((next program)^[m] hart)

section LegalRun

variable {program : Program} {hart : Hart} {instr : Instr}

theorem next_decoded (decoded : decode (program hart.pc) = some instr) :
    next program hart = instr.exec hart := by
  simp only [next, decoded]

theorem emit_decoded (decoded : decode (program hart.pc) = some instr) :
    emit program hart = instr.events hart := by
  simp only [emit, decoded]

theorem LegalRun.next (run : LegalRun program hart)
    (decoded : decode (program hart.pc) = some instr) :
    LegalRun program (instr.exec hart) := by
  rw [← next_decoded decoded]
  exact fun m => run (m + 1)

/-- An invariant of the run that names a legal instruction in every state. -/
theorem LegalRun.of_invariant (Inv : Hart → Prop) (initial : Inv hart)
    (legal : ∀ hart, Inv hart → ∃ instr, decode (program hart.pc) = some instr ∧
      InsideWord instr hart ∧
      Inv (instr.exec hart)) : LegalRun program hart := by
  have reached : ∀ m, Inv ((Rv32im.next program)^[m] hart) := by
    intro m
    induction m with
    | zero => exact initial
    | succ m inductionHypothesis =>
      obtain ⟨instr, decoded, _, kept⟩ := legal _ inductionHypothesis
      rw [Function.iterate_succ_apply', next_decoded decoded]
      exact kept
  intro m
  obtain ⟨instr, decoded, inside, _⟩ := legal _ (reached m)
  exact ⟨instr, decoded, inside⟩

end LegalRun

/-! ## Programs given by their words -/

def nop : Word := 0x00000013#32

/-- The words from `base` on, and `nop` everywhere else. -/
def Program.ofWords (base : Word) (words : List Word) : Program := fun pc =>
  words.getD ((pc - base) >>> 2).toNat nop

/-- A data access, if there is one, has a fixed address inside one aligned word. -/
def Instr.fixedAccess : Instr → Bool
  | .load op _ rs1 offset => rs1 = 0#5 && lane offset + op.size ≤ 4
  | .store op rs1 _ offset => rs1 = 0#5 && lane offset + op.size ≤ 4
  | _ => true

theorem insideWord_fixedAccess {instr : Instr} (fixed : instr.fixedAccess = true) (hart : Hart) :
    InsideWord instr hart := by
  have zero : ∀ offset : Word, hart.get 0#5 + offset = offset := BitVec.zero_add
  intro address size accesses
  cases instr with
  | load op rd rs1 offset | store op rs1 rs2 offset =>
    simp only [Instr.fixedAccess, Bool.and_eq_true, decide_eq_true_eq] at fixed
    simp only [Instr.access, fixed.1, zero, Option.some.injEq, Prod.mk.injEq] at accesses
    rw [← accesses.1, ← accesses.2]
    exact fixed.2
  | _ => exact absurd accesses (Option.some_ne_none _).symm

/-- The word is legal, and inside one aligned word whatever the state. -/
def wordLegal (word : Word) : Bool := (decode word).any Instr.fixedAccess

theorem legalRun_ofWords {base : Word} {words : List Word}
    (legal : words.all wordLegal = true) (hart : Hart) :
    LegalRun (.ofWords base words) hart := by
  have fetched : ∀ pc, wordLegal (Program.ofWords base words pc) = true := by
    intro pc
    rw [Program.ofWords, List.getD_eq_getElem?_getD]
    cases found : words[((pc - base) >>> 2).toNat]? with
    | none => decide
    | some word => exact List.all_eq_true.mp legal word (List.mem_of_getElem? found)
  refine LegalRun.of_invariant (fun _ => True) trivial fun hart _ => ?_
  obtain ⟨instr, decoded, fixed⟩ := (Option.any_eq_true _ _).mp (fetched hart.pc)
  exact ⟨instr, decoded, insideWord_fixedAccess fixed hart, trivial⟩

end Rv32im
