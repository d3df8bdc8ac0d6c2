import MyCpu.Verified.Execution

/-! # Decode and execute

What ID and EX make of a legal word is what the instruction set asks of its instruction: the
registers that are read and written, the result, the data access, and the resolution of a branch or
jump.  All control signals but the function of the ALU and the condition of a branch depend on the
opcode alone. -/

namespace MyCpu

open Rv32im (Hart Instr Event Encodes)

/-! ## Resolution of a legal word -/

section Resolution

variable {word reg1Data reg2Data : Word} {instr : Instr} {hart : Hart}

/-- The operands of the comparator are what the instruction reads. -/
structure Compares (word reg1Data reg2Data : Word) (hart : Hart) : Prop where
  reg1 : reg1Data = hart.get (InstructionDecode.regsReg1ReadAddress word)
  reg2 : reg2Data = hart.get (InstructionDecode.regsReg2ReadAddress word)

theorem isBranchOrJump_encodes (encodes : Encodes word instr)
    (transfers : instr.transfers hart = true) :
    InstructionDecode.ctrlJumpInstruction word = true := by
  rw [InstructionDecode.ctrlJumpInstruction, opcode_encodes encodes]
  cases instr with
  | jal rd offset | jalr rd rs1 offset | branch condition rs1 rs2 offset => rfl
  | _ => exact Bool.noConfusion transfers

/-- A word that is neither a branch nor a jump is not taken. -/
theorem branchTaken_other (jal : InstructionDecode.opcode word ≠ Instructions.jal)
    (jalr : InstructionDecode.opcode word ≠ Instructions.jalr)
    (branch : InstructionDecode.opcode word ≠ InstructionTypes.B) :
    InstructionDecode.branchTaken false word reg1Data reg2Data = false := by
  simp [InstructionDecode.branchTaken, jal, jalr, branch]

/-- With its operands ready, a legal word is taken when its instruction transfers control. -/
theorem branchTaken_encodes (encodes : Encodes word instr)
    (compares : Compares word reg1Data reg2Data hart) :
    InstructionDecode.branchTaken false word reg1Data reg2Data = instr.transfers hart := by
  have code := opcode_encodes encodes
  cases encodes with
  | branch condition _ selected form =>
    subst form
    have first := reg1_used word (by rw [InstructionDecode.usesRs1, code]; rfl)
    have second := reg2_used word (by rw [InstructionDecode.usesRs2, code]; rfl)
    have outcome : InstructionDecode.branchCondition word reg1Data reg2Data =
        condition.eval (hart.get (Rv32im.rs1 word)) (hart.get (Rv32im.rs2 word)) := by
      rw [compares.reg1, compares.reg2, first, second]
      exact branchCondition_decodeCondition _ _ selected
    rw [InstructionDecode.branchTaken, code, outcome]
    rfl
  | lui _ form | auipc _ form | jal _ form | jalr _ form | fence _ form | mulDiv _ _ form =>
    subst form
    rw [InstructionDecode.branchTaken, code]
    rfl
  | load _ _ _ form | store _ _ _ form | opImm _ _ _ form =>
    subst form
    rw [InstructionDecode.branchTaken, code]
    rfl
  | opReg _ _ _ _ form =>
    subst form
    rw [InstructionDecode.branchTaken, code]
    rfl

theorem clintJumpAddress_target (encodes : Encodes word instr)
    (compares : Compares word reg1Data reg2Data hart)
    {target : Word} (goes : instr.target hart = some target) :
    InstructionDecode.clintJumpAddress word hart.pc reg1Data = target := by
  cases encodes with
  | jal code form =>
    have code : InstructionDecode.opcode word = Instructions.jal := code
    have immediate : InstructionDecode.exImmediate word = Rv32im.immJ word := by
      rw [InstructionDecode.exImmediate, code]
      rfl
    subst form
    rw [InstructionDecode.clintJumpAddress, if_pos (Or.inr code), immediate]
    exact Option.some.inj goes
  | jalr code form =>
    have code : InstructionDecode.opcode word = Instructions.jalr := code
    have immediate : InstructionDecode.exImmediate word = Rv32im.immI word := by
      rw [InstructionDecode.exImmediate, code]
      rfl
    have first := reg1_used word (by rw [InstructionDecode.usesRs1, code]; rfl)
    subst form
    rw [InstructionDecode.clintJumpAddress, if_neg (by rw [code]; decide), if_pos code,
      InstructionDecode.jalrTarget, immediate, compares.reg1, first, clearLowest_eq]
    exact Option.some.inj goes
  | branch condition code selected form =>
    have code : InstructionDecode.opcode word = InstructionTypes.B := code
    have immediate : InstructionDecode.exImmediate word = Rv32im.immB word := by
      rw [InstructionDecode.exImmediate, code]
      rfl
    subst form
    rw [InstructionDecode.clintJumpAddress, if_pos (Or.inl code), immediate]
    exact Option.some.inj goes
  | lui code form | auipc code form | fence code form | mulDiv code multiply form =>
    subst form
    exact absurd goes (Option.some_ne_none _).symm
  | load op code selected form | store op code selected form | opImm op code selected form =>
    subst form
    exact absurd goes (Option.some_ne_none _).symm
  | opReg op code other selected form =>
    subst form
    exact absurd goes (Option.some_ne_none _).symm

/-- A transfer goes to the successor of its instruction. -/
theorem clintJumpAddress_encodes (encodes : Encodes word instr)
    (compares : Compares word reg1Data reg2Data hart)
    (transfers : instr.transfers hart = true) :
    InstructionDecode.clintJumpAddress word hart.pc reg1Data = instr.nextPc hart :=
  clintJumpAddress_target encodes compares (Instr.nextPc_transfers transfers)

theorem encodes_notCsr (encodes : Encodes word instr) :
    InstructionDecode.opcode word ≠ Instructions.csr := by
  rw [opcode_encodes encodes]
  cases instr <;> simp [Instr.opcode, Instructions.csr]

end Resolution

/-! ## Control signals -/

section Signals

variable {word : Word} {instr : Instr}

theorem source1_encodes (encodes : Encodes word instr) :
    InstructionDecode.regsReg1ReadAddress word = instr.source1 := by
  have code := opcode_encodes encodes
  cases encodes with
  | lui _ form | auipc _ form | jal _ form | fence _ form =>
    subst form
    exact InstructionDecode.reg1_unused
      (by rw [InstructionDecode.usesRs1, InstructionDecode.csrUsesUimm, code]; rfl)
  | jalr _ form | mulDiv _ _ form =>
    subst form
    exact reg1_used word (by rw [InstructionDecode.usesRs1, code]; rfl)
  | branch _ _ _ form | load _ _ _ form | store _ _ _ form | opImm _ _ _ form =>
    subst form
    exact reg1_used word (by rw [InstructionDecode.usesRs1, code]; rfl)
  | opReg _ _ _ _ form =>
    subst form
    exact reg1_used word (by rw [InstructionDecode.usesRs1, code]; rfl)

theorem source2_encodes (encodes : Encodes word instr) :
    InstructionDecode.regsReg2ReadAddress word = instr.source2 := by
  have code := opcode_encodes encodes
  cases encodes with
  | lui _ form | auipc _ form | jal _ form | jalr _ form | fence _ form =>
    subst form
    exact InstructionDecode.reg2_unused (by rw [InstructionDecode.usesRs2, code]; rfl)
  | load _ _ _ form | opImm _ _ _ form =>
    subst form
    exact InstructionDecode.reg2_unused (by rw [InstructionDecode.usesRs2, code]; rfl)
  | branch _ _ _ form | store _ _ _ form | mulDiv _ _ form =>
    subst form
    exact reg2_used word (by rw [InstructionDecode.usesRs2, code]; rfl)
  | opReg _ _ _ _ form =>
    subst form
    exact reg2_used word (by rw [InstructionDecode.usesRs2, code]; rfl)

theorem memoryReadEnable_encodes (encodes : Encodes word instr) :
    InstructionDecode.exMemoryReadEnable word = instr.loads := by
  rw [InstructionDecode.exMemoryReadEnable, opcode_encodes encodes]
  cases instr <;> rfl

theorem memoryWriteEnable_encodes (encodes : Encodes word instr) :
    InstructionDecode.exMemoryWriteEnable word = instr.stores := by
  rw [InstructionDecode.exMemoryWriteEnable, opcode_encodes encodes]
  cases instr <;> rfl

end Signals

/-! ## Results -/

section Results

variable {word csrReadData : Word} {instr : Instr} {hart : Hart}

/-- The effective address of a load or store. -/
theorem aluResult_access (encodes : Encodes word instr) {target : Word} {size : ℕ}
    (accesses : instr.access hart = some (target, size)) :
    (executedWord word hart csrReadData).aluResult = target := by
  cases encodes with
  | load op code selected form =>
    have code : InstructionDecode.opcode word = InstructionTypes.L := code
    have immediate : InstructionDecode.exImmediate word = Rv32im.immI word := by
      rw [InstructionDecode.exImmediate, code]
      rfl
    subst form
    rw [aluResult_address (Or.inl code) immediate]
    exact congrArg Prod.fst (Option.some.inj accesses)
  | store op code selected form =>
    have code : InstructionDecode.opcode word = InstructionTypes.S := code
    have immediate : InstructionDecode.exImmediate word = Rv32im.immS word := by
      rw [InstructionDecode.exImmediate, code]
      rfl
    subst form
    rw [aluResult_address (Or.inr code) immediate]
    exact congrArg Prod.fst (Option.some.inj accesses)
  | lui _ form | auipc _ form | jal _ form | jalr _ form | fence _ form | mulDiv _ _ form =>
    subst form
    exact absurd accesses (Option.some_ne_none _).symm
  | branch _ _ _ form | opImm _ _ _ form =>
    subst form
    exact absurd accesses (Option.some_ne_none _).symm
  | opReg _ _ _ _ form =>
    subst form
    exact absurd accesses (Option.some_ne_none _).symm

theorem reg2Data_storeOf (encodes : Encodes word instr) {op : Rv32im.StoreOp} {target data : Word}
    (stores : instr.storeOf hart = some (op, target, data)) :
    (executedWord word hart csrReadData).reg2Data = data := by
  have operand : (executedWord word hart csrReadData).reg2Data = hart.get instr.source2 := by
    rw [← source2_encodes encodes]
    rfl
  rw [operand]
  cases instr with
  | store _ rs1 rs2 offset => exact congrArg (fun store => store.2.2) (Option.some.inj stores)
  | _ => exact absurd stores (Option.some_ne_none _).symm

/-- Decode and execute do what the instruction asks, on operands that the registers hold. -/
structure Implements (word : Word) (instr : Instr) (hart : Hart) (csrReadData : Word) : Prop where
  source1 : InstructionDecode.regsReg1ReadAddress word = instr.source1
  source2 : InstructionDecode.regsReg2ReadAddress word = instr.source2
  writeBack : (if (executedWord word hart csrReadData).regsWriteEnable then
      some ((executedWord word hart csrReadData).regsWriteAddress,
        (executedWord word hart csrReadData).regsWriteSource)
    else none) = MyCpu.writeBack instr
  memoryRead : (executedWord word hart csrReadData).memoryReadEnable = instr.loads
  memoryWrite : (executedWord word hart csrReadData).memoryWriteEnable = instr.stores
  value : ∀ rd value memory, instr.loads = false → instr.regWrite hart = some (rd, value) →
    (executedWord word hart csrReadData).value memory = value
  address : ∀ target size, instr.access hart = some (target, size) →
    (executedWord word hart csrReadData).aluResult = target
  storeData : ∀ op target data, instr.storeOf hart = some (op, target, data) →
    (executedWord word hart csrReadData).reg2Data = data
  taken : InstructionDecode.branchTaken false word
    (hart.get (InstructionDecode.regsReg1ReadAddress word))
    (hart.get (InstructionDecode.regsReg2ReadAddress word)) = instr.transfers hart
  target : ∀ target, instr.target hart = some target →
    InstructionDecode.clintJumpAddress word hart.pc
    (hart.get (InstructionDecode.regsReg1ReadAddress word)) = target

/-- Decode and execute implement every legal word. -/
theorem implements_decoded (word csrReadData : Word) (instr : Instr) (hart : Hart)
    (decoded : Rv32im.decode word = some instr) : Implements word instr hart csrReadData := by
  have encodes := Rv32im.decode_encodes decoded
  have compares : Compares word (hart.get (InstructionDecode.regsReg1ReadAddress word))
      (hart.get (InstructionDecode.regsReg2ReadAddress word)) hart := ⟨rfl, rfl⟩
  exact {
    source1 := source1_encodes encodes
    source2 := source2_encodes encodes
    writeBack := writeBack_encodes encodes
    memoryRead := memoryReadEnable_encodes encodes
    memoryWrite := memoryWriteEnable_encodes encodes
    value := fun _ _ memory notLoad writes => value_encodes encodes notLoad writes memory
    address := fun _ _ accesses => aluResult_access encodes accesses
    storeData := fun _ _ _ stores => reg2Data_storeOf encodes stores
    taken := branchTaken_encodes encodes compares
    target := fun _ goes => clintJumpAddress_target encodes compares goes }

/-- `jalr x1, 3(x2)`, from `0x1000`, with the number of each register in it. -/
theorem implements_decoded_jalr :
    Implements 0x003100E7#32 (.jalr 1#5 2#5 3#32)
      ⟨0x1000#32, BitVec.zeroExtend 32, fun _ => 0#8⟩ 0#32 :=
  implements_decoded 0x003100E7#32 0#32 (.jalr 1#5 2#5 3#32) _ (by decide)

end Results

end MyCpu
