import MyCpu.Verified.AluSoundness
import MyCpu.Verified.ByteLanes

/-! # What an instruction does on its way from EX to WB

An `EX2MEM` record determines the register write and the bus write of its
instruction for a given data memory, and an `ID2EX` record determines the `EX2MEM`
record for given operands.  For the record that ID makes of a legal word, these are
the effects of the instruction set. -/

namespace MyCpu

open Rv32im (Hart Instr Event BusWrite Encodes)

/-- The part of the architectural state that the back of the pipeline works on. -/
structure ArchState where
  regs : RegisterFile
  memory : Rv32im.Memory

namespace EX2MEM

variable (io : EX2MEM) (memory : Rv32im.Memory)

/-- The value for WB; a load reads the data memory. -/
def value : Word :=
  match io.regsWriteSource with
  | .memory =>
    MemoryAccess.processedData io.funct3 (MemoryAccess.memAddressIndex io)
      (System.readWord memory (MemoryAccess.busAddress io))
  | .csr => io.csrReadData
  | .nextInstructionAddress => io.instructionAddress + 4#32
  | .aluResult => io.aluResult

def regWrite : Option (RegAddr × Word) :=
  if io.regsWriteEnable ∧ io.regsWriteAddress ≠ 0#5 then
    some (io.regsWriteAddress, io.value memory) else none

def store : Option BusWrite :=
  if io.memoryWriteEnable then
    some ⟨MemoryAccess.busAddress io, MemoryAccess.storeData io.funct3
      (MemoryAccess.memAddressIndex io) io.reg2Data, MemoryAccess.storeStrobe io.funct3
        (MemoryAccess.memAddressIndex io)⟩
  else none

def storeEvents : List Event := (io.store.map Event.busWrite).toList

def retireEvent : Event := .retire io.instructionAddress (io.regWrite memory)

def nextMemory : Rv32im.Memory :=
  match io.store with
  | some write => System.writeWord memory write.address write.data write.strobe
  | none => memory

/-- The state after the instruction has passed MEM and WB. -/
def apply (state : ArchState) : ArchState where
  regs := RegisterFile.write state.regs io.regsWriteEnable io.regsWriteAddress
    (io.value state.memory)
  memory := io.nextMemory state.memory

end EX2MEM

namespace ID2EX

/-- What EX hands to MEM for the given operands. -/
def execute (ex : ID2EX) (reg1Data reg2Data : Word) : EX2MEM where
  regsWriteEnable := ex.regsWriteEnable
  regsWriteSource := ex.regsWriteSource
  regsWriteAddress := ex.regsWriteAddress
  instructionAddress := ex.instructionAddress
  funct3 := InstructionDecode.funct3 ex.instruction
  reg2Data := reg2Data
  memoryReadEnable := ex.memoryReadEnable
  memoryWriteEnable := ex.memoryWriteEnable
  aluResult := Execute.memAluResult ex reg1Data reg2Data
  csrReadData := ex.csrReadData

/-- EX with the operands that the registers hold. -/
def executed (ex : ID2EX) (regs : RegisterFile) : EX2MEM :=
  ex.execute (regs.get ex.regsReg1ReadAddress) (regs.get ex.regsReg2ReadAddress)

end ID2EX

/-- What ID makes of a word. -/
def decodedWord (word address reg1Data reg2Data csrReadData : Word) : ID2EX where
  instruction := word
  instructionAddress := address
  regsReg1ReadAddress := InstructionDecode.regsReg1ReadAddress word
  regsReg2ReadAddress := InstructionDecode.regsReg2ReadAddress word
  regsWriteEnable := InstructionDecode.exRegWriteEnable word
  regsWriteAddress := InstructionDecode.exRegWriteAddress word
  regsWriteSource := InstructionDecode.exRegWriteSource word
  reg1Data := reg1Data
  reg2Data := reg2Data
  immediate := InstructionDecode.exImmediate word
  aluop1Source := InstructionDecode.exAluop1Source word
  aluop2Source := InstructionDecode.exAluop2Source word
  csrWriteEnable := InstructionDecode.exCsrWriteEnable word
  csrAddress := InstructionDecode.exCsrAddress word
  memoryReadEnable := InstructionDecode.exMemoryReadEnable word
  memoryWriteEnable := InstructionDecode.exMemoryWriteEnable word
  csrReadData := csrReadData

theorem id2exInput_eq (cpu : PipelinedCPU) (io : PipelinedCPU.Inputs) :
    PipelinedCPU.id2exInput cpu io =
      decodedWord cpu.if2id.instruction cpu.if2id.instructionAddress
        (PipelinedCPU.idRegDataForwarded cpu io (PipelinedCPU.rs1Id cpu))
        (PipelinedCPU.idRegDataForwarded cpu io (PipelinedCPU.rs2Id cpu))
        (CSR.regLUT cpu.csrRegs (InstructionDecode.exCsrAddress cpu.if2id.instruction)) := rfl

theorem ex2memInput_eq (cpu : PipelinedCPU) (io : PipelinedCPU.Inputs) :
    PipelinedCPU.ex2memInput cpu io =
      cpu.id2ex.execute (PipelinedCPU.exReg1Data cpu io) (PipelinedCPU.exReg2Data cpu io) := rfl

/-- The register of the result and the source that WB takes it from. -/
def writeBack : Instr → Option (RegAddr × RegWriteSource)
  | .lui rd _ | .auipc rd _ | .opImm _ rd _ _ | .opReg _ rd _ _ | .mulDiv _ rd _ _ =>
    some (rd, .aluResult)
  | .load _ rd _ _ => some (rd, .memory)
  | .jal rd _ | .jalr rd _ _ => some (rd, .nextInstructionAddress)
  | .branch _ _ _ _ | .store _ _ _ _ | .fence => none

/-! ## Legal words -/

section Legal

variable {word address reg1Data reg2Data csrReadData : Word} {instr : Instr}
    {hart : Hart} {regs : RegisterFile}

/-- The registers that the word names as sources hold what the instruction reads. -/
structure OperandsAgree (word : Word) (regs : RegisterFile) (hart : Hart) : Prop where
  reg1 : regs.get (InstructionDecode.regsReg1ReadAddress word) =
    hart.get (InstructionDecode.regsReg1ReadAddress word)
  reg2 : regs.get (InstructionDecode.regsReg2ReadAddress word) =
    hart.get (InstructionDecode.regsReg2ReadAddress word)

/-- The record that a word leaves EX with when it reads its operands from the instruction-set
    state. -/
def executedWord (word : Word) (hart : Hart) (csrReadData : Word) : EX2MEM :=
  (decodedWord word hart.pc 0#32 0#32 csrReadData).execute
    (hart.get (InstructionDecode.regsReg1ReadAddress word))
    (hart.get (InstructionDecode.regsReg2ReadAddress word))

theorem executed_decodedWord (agree : OperandsAgree word regs hart) :
    (decodedWord word hart.pc reg1Data reg2Data csrReadData).executed regs =
      executedWord word hart csrReadData := by
  have reg1 : regs.get
      (decodedWord word hart.pc reg1Data reg2Data csrReadData).regsReg1ReadAddress = _ := agree.reg1
  have reg2 : regs.get
      (decodedWord word hart.pc reg1Data reg2Data csrReadData).regsReg2ReadAddress = _ := agree.reg2
  rw [ID2EX.executed, reg1, reg2]
  rfl

/-! ### The opcode -/

theorem opcode_encodes (encodes : Encodes word instr) :
    InstructionDecode.opcode word = instr.opcode := by
  cases encodes with
  | lui code form | auipc code form | jal code form | jalr code form | fence code form =>
    subst form
    exact code
  | branch _ code selected form | load _ code selected form | store _ code selected form =>
    subst form
    exact code
  | opImm _ code selected form | mulDiv code multiply form =>
    subst form
    exact code
  | opReg _ code other selected form =>
    subst form
    exact code

theorem writeBack_encodes (encodes : Encodes word instr) :
    (if InstructionDecode.exRegWriteEnable word then
      some (InstructionDecode.exRegWriteAddress word, InstructionDecode.exRegWriteSource word)
        else none) =
      writeBack instr := by
  have code := opcode_encodes encodes
  rw [InstructionDecode.exRegWriteEnable, InstructionDecode.exRegWriteSource, code]
  cases encodes with
  | lui _ form | auipc _ form | jal _ form | jalr _ form | fence _ form | mulDiv _ _ form =>
    subst form
    rfl
  | branch _ _ _ form | load _ _ _ form | store _ _ _ form | opImm _ _ _ form =>
    subst form
    rfl
  | opReg _ _ _ _ form =>
    subst form
    rfl

/-! ### Operands -/

variable (word) in
theorem reg1_used (uses : InstructionDecode.usesRs1 word = true) :
    InstructionDecode.regsReg1ReadAddress word = Rv32im.rs1 word := by
  rw [InstructionDecode.regsReg1ReadAddress, uses, if_pos rfl]
  rfl

variable (word) in
theorem reg2_used (uses : InstructionDecode.usesRs2 word = true) :
    InstructionDecode.regsReg2ReadAddress word = Rv32im.rs2 word := by
  rw [InstructionDecode.regsReg2ReadAddress, uses, if_pos rfl]
  rfl

/-! ### The ALU -/

/-- The operands that the ALU sees for an executed word. -/
def aluOp1 (word : Word) (hart : Hart) : Word :=
  match InstructionDecode.exAluop1Source word with
  | .instructionAddress => hart.pc
  | .register => hart.get (InstructionDecode.regsReg1ReadAddress word)

def aluOp2 (word : Word) (hart : Hart) : Word :=
  match InstructionDecode.exAluop2Source word with
  | .immediate => InstructionDecode.exImmediate word
  | .register => hart.get (InstructionDecode.regsReg2ReadAddress word)

theorem aluResult_executedWord :
    (executedWord word hart csrReadData).aluResult =
      ALU.result
        (ALUControl.aluFunct (InstructionDecode.opcode word) (InstructionDecode.funct3 word)
          (InstructionDecode.funct7 word))
        (aluOp1 word hart) (aluOp2 word hart) := rfl

theorem aluOp1_register (uses : InstructionDecode.usesRs1 word = true)
    (source : InstructionDecode.exAluop1Source word = .register) :
    aluOp1 word hart = hart.get (Rv32im.rs1 word) := by
  rw [aluOp1, source, reg1_used _ uses]

theorem aluOp2_register (uses : InstructionDecode.usesRs2 word = true)
    (source : InstructionDecode.exAluop2Source word = .register) :
    aluOp2 word hart = hart.get (Rv32im.rs2 word) := by
  rw [aluOp2, source, reg2_used _ uses]

theorem aluOp2_immediate (source : InstructionDecode.exAluop2Source word = .immediate) :
    aluOp2 word hart = InstructionDecode.exImmediate word := by
  rw [aluOp2, source]

theorem aluResult_address {offset : Word}
    (load : InstructionDecode.opcode word = InstructionTypes.L ∨
      InstructionDecode.opcode word = InstructionTypes.S)
    (immediate : InstructionDecode.exImmediate word = offset) :
    (executedWord word hart csrReadData).aluResult = hart.get (Rv32im.rs1 word) + offset := by
  rw [aluResult_executedWord]
  obtain code | code := load
  · rw [aluOp1_register (by rw [InstructionDecode.usesRs1, code]; rfl)
      (by rw [InstructionDecode.exAluop1Source, code]; rfl),
      aluOp2_immediate (by rw [InstructionDecode.exAluop2Source, code]; rfl), immediate, code]
    rfl
  · rw [aluOp1_register (by rw [InstructionDecode.usesRs1, code]; rfl)
      (by rw [InstructionDecode.exAluop1Source, code]; rfl),
      aluOp2_immediate (by rw [InstructionDecode.exAluop2Source, code]; rfl), immediate, code]
    rfl

theorem aluResult_lui (code : InstructionDecode.opcode word = Instructions.lui) :
    (executedWord word hart csrReadData).aluResult = Rv32im.immU word := by
  have unused : InstructionDecode.usesRs1 word = false := by
    rw [InstructionDecode.usesRs1, InstructionDecode.csrUsesUimm, code]
    rfl
  have first : aluOp1 word hart = 0#32 := by
    rw [aluOp1, InstructionDecode.exAluop1Source, code, InstructionDecode.reg1_unused unused]
    rfl
  have immediate : InstructionDecode.exImmediate word = Rv32im.immU word := by
    rw [InstructionDecode.exImmediate, code]
    rfl
  rw [aluResult_executedWord, first, aluOp2_immediate
    (by rw [InstructionDecode.exAluop2Source, code]; rfl), immediate, code]
  exact BitVec.zero_add _

theorem aluResult_auipc (code : InstructionDecode.opcode word = Instructions.auipc) :
    (executedWord word hart csrReadData).aluResult = hart.pc + Rv32im.immU word := by
  have first : aluOp1 word hart = hart.pc := by
    rw [aluOp1, InstructionDecode.exAluop1Source, code]
    rfl
  have immediate : InstructionDecode.exImmediate word = Rv32im.immU word := by
    rw [InstructionDecode.exImmediate, code]
    rfl
  rw [aluResult_executedWord, first, aluOp2_immediate
    (by rw [InstructionDecode.exAluop2Source, code]; rfl), immediate, code]
  rfl

theorem aluResult_opImm {op : Rv32im.AluOp}
    (code : InstructionDecode.opcode word = InstructionTypes.I)
    (selected : Rv32im.decodeOpImm (Rv32im.funct3 word) (Rv32im.funct7 word) = some op) :
    (executedWord word hart csrReadData).aluResult =
      op.eval (hart.get (Rv32im.rs1 word)) (Rv32im.immI word) := by
  have function : ALUControl.aluFunct (InstructionDecode.opcode word)
      (InstructionDecode.funct3 word)
      (InstructionDecode.funct7 word) = aluFunction op := by
    rw [code]
    exact functI_decodeOpImm _ _ selected
  have immediate : InstructionDecode.exImmediate word = Rv32im.immI word := by
    rw [InstructionDecode.exImmediate, code]
    rfl
  rw [aluResult_executedWord, function, aluOp1_register
    (by rw [InstructionDecode.usesRs1, code]; rfl)
    (by rw [InstructionDecode.exAluop1Source, code]; rfl),
    aluOp2_immediate (by rw [InstructionDecode.exAluop2Source, code]; rfl),
    immediate, result_aluFunction]

theorem aluResult_register (code : InstructionDecode.opcode word = InstructionTypes.RM)
    {function : ALUFunctions}
    (selected : ALUControl.aluFunct InstructionTypes.RM (InstructionDecode.funct3 word)
      (InstructionDecode.funct7 word) = function) :
    (executedWord word hart csrReadData).aluResult =
      ALU.result function (hart.get (Rv32im.rs1 word)) (hart.get (Rv32im.rs2 word)) := by
  rw [aluResult_executedWord, code, selected, aluOp1_register
    (by rw [InstructionDecode.usesRs1, code]; rfl)
    (by rw [InstructionDecode.exAluop1Source, code]; rfl),
    aluOp2_register (by rw [InstructionDecode.usesRs2, code]; rfl)
    (by rw [InstructionDecode.exAluop2Source, code]; rfl)]

theorem aluResult_mulDiv (code : InstructionDecode.opcode word = InstructionTypes.RM)
    (multiply : InstructionDecode.funct7 word = 0b0000001#7) :
    (executedWord word hart csrReadData).aluResult =
      (Rv32im.decodeMulOp (Rv32im.funct3 word)).eval (hart.get (Rv32im.rs1 word))
      (hart.get (Rv32im.rs2 word)) := by
  have function : ALUControl.aluFunct InstructionTypes.RM (InstructionDecode.funct3 word)
      (InstructionDecode.funct7 word) = mulFunction (Rv32im.decodeMulOp (Rv32im.funct3 word)) := by
    rw [multiply]
    exact functM_decodeMulOp _
  rw [aluResult_register code function, result_mulFunction]

theorem aluResult_opReg {op : Rv32im.AluOp}
    (code : InstructionDecode.opcode word = InstructionTypes.RM)
    (other : InstructionDecode.funct7 word ≠ 0b0000001#7)
    (selected : Rv32im.decodeOp (Rv32im.funct3 word) (Rv32im.funct7 word) = some op) :
    (executedWord word hart csrReadData).aluResult =
      op.eval (hart.get (Rv32im.rs1 word)) (hart.get (Rv32im.rs2 word)) := by
  have function : ALUControl.aluFunct InstructionTypes.RM (InstructionDecode.funct3 word)
      (InstructionDecode.funct7 word) = aluFunction op := by
    have register : ALUControl.aluFunct InstructionTypes.RM (InstructionDecode.funct3 word)
        (InstructionDecode.funct7 word) =
        ALUControl.functR (InstructionDecode.funct3 word) (InstructionDecode.funct7 word) :=
          if_neg other
    rw [register]
    exact functR_decodeOp _ _ selected
  rw [aluResult_register code function, result_aluFunction]

/-! ### The register write -/

theorem regWrite_enabled {io : EX2MEM} {memory : Rv32im.Memory}
    (enabled : io.regsWriteEnable = true) {value : Word}
    (writes : io.value memory = value) :
    io.regWrite memory = (some (io.regsWriteAddress, value)).filter fun write => write.1 ≠ 0#5 := by
  rw [EX2MEM.regWrite, enabled, writes]
  by_cases zero : io.regsWriteAddress = 0#5
  · simp [zero, Option.filter]
  · simp [zero, Option.filter]

theorem regWrite_disabled {io : EX2MEM} {memory : Rv32im.Memory}
    (disabled : io.regsWriteEnable = false) :
    io.regWrite memory = none := by
  rw [EX2MEM.regWrite, disabled, if_neg (by simp)]

theorem value_alu {memory : Rv32im.Memory}
    (source : InstructionDecode.exRegWriteSource word = .aluResult) :
    (executedWord word hart csrReadData).value memory =
      (executedWord word hart csrReadData).aluResult := by
  have source' : (executedWord word hart csrReadData).regsWriteSource = .aluResult := source
  rw [EX2MEM.value, source']

theorem value_link {memory : Rv32im.Memory}
    (source : InstructionDecode.exRegWriteSource word = .nextInstructionAddress) :
    (executedWord word hart csrReadData).value memory = hart.pc + 4#32 := by
  have source' : (executedWord word hart csrReadData).regsWriteSource =
      .nextInstructionAddress := source
  rw [EX2MEM.value, source']
  rfl

/-- The value for the register, unless it comes from memory. -/
theorem value_encodes (encodes : Encodes word instr) (notLoad : instr.loads = false)
    {rd : RegAddr} {value : Word}
    (writes : instr.regWrite hart = some (rd, value)) (memory : Rv32im.Memory) :
    (executedWord word hart csrReadData).value memory = value := by
  have code := opcode_encodes encodes
  cases encodes with
  | lui _ form =>
    subst form
    rw [value_alu (by rw [InstructionDecode.exRegWriteSource, code]; rfl), aluResult_lui code]
    exact congrArg Prod.snd (Option.some.inj writes)
  | auipc _ form =>
    subst form
    rw [value_alu (by rw [InstructionDecode.exRegWriteSource, code]; rfl), aluResult_auipc code]
    exact congrArg Prod.snd (Option.some.inj writes)
  | jal _ form | jalr _ form =>
    subst form
    rw [value_link (by rw [InstructionDecode.exRegWriteSource, code]; rfl)]
    exact congrArg Prod.snd (Option.some.inj writes)
  | opImm op _ selected form =>
    subst form
    rw [value_alu (by rw [InstructionDecode.exRegWriteSource, code]; rfl),
      aluResult_opImm code selected]
    exact congrArg Prod.snd (Option.some.inj writes)
  | mulDiv _ multiply form =>
    subst form
    rw [value_alu (by rw [InstructionDecode.exRegWriteSource, code]; rfl),
      aluResult_mulDiv code multiply]
    exact congrArg Prod.snd (Option.some.inj writes)
  | opReg op _ other selected form =>
    subst form
    rw [value_alu (by rw [InstructionDecode.exRegWriteSource, code]; rfl),
      aluResult_opReg code other selected]
    exact congrArg Prod.snd (Option.some.inj writes)
  | load _ _ _ form =>
    subst form
    exact Bool.noConfusion notLoad
  | branch _ _ _ form | store _ _ _ form =>
    subst form
    exact absurd writes (Option.some_ne_none _).symm
  | fence _ form =>
    subst form
    exact absurd writes (Option.some_ne_none _).symm

theorem value_load {op : Rv32im.LoadOp} (code : InstructionDecode.opcode word = InstructionTypes.L)
    (selected : Rv32im.decodeLoadOp (Rv32im.funct3 word) = some op)
    (inside : Rv32im.lane (hart.get (Rv32im.rs1 word) + Rv32im.immI word) + op.size ≤ 4) :
    (executedWord word hart csrReadData).value hart.memory =
      op.eval hart.memory (hart.get (Rv32im.rs1 word) + Rv32im.immI word) := by
  have source : (executedWord word hart csrReadData).regsWriteSource = .memory := by
    change InstructionDecode.exRegWriteSource word = .memory
    rw [InstructionDecode.exRegWriteSource, code]
    rfl
  have immediate : InstructionDecode.exImmediate word = Rv32im.immI word := by
    rw [InstructionDecode.exImmediate, code]
    rfl
  have address : (executedWord word hart csrReadData).aluResult =
      hart.get (Rv32im.rs1 word) + Rv32im.immI word :=
    aluResult_address (Or.inl code) immediate
  have funct3 : (executedWord word hart csrReadData).funct3 = loadFunct3 op :=
    decodeLoadOp_funct3 selected
  rw [EX2MEM.value, source]
  simp only [MemoryAccess.memAddressIndex, MemoryAccess.busAddress, address, funct3]
  exact processedData_load _ _ _ inside

theorem value_executedWord (encodes : Encodes word instr)
    (inside : Rv32im.InsideWord instr hart) {rd : RegAddr}
    {value : Word} (writes : instr.regWrite hart = some (rd, value)) :
    (executedWord word hart csrReadData).value hart.memory = value := by
  cases loads : instr.loads with
  | false => exact value_encodes encodes loads writes hart.memory
  | true =>
    cases encodes with
    | load op code selected form =>
      subst form
      rw [value_load code selected (inside _ _ rfl)]
      exact congrArg Prod.snd (Option.some.inj writes)
    | lui _ form | auipc _ form | jal _ form | jalr _ form | fence _ form | mulDiv _ _ form =>
      subst form
      exact Bool.noConfusion loads
    | branch _ _ _ form | store _ _ _ form | opImm _ _ _ form =>
      subst form
      exact Bool.noConfusion loads
    | opReg _ _ _ _ form =>
      subst form
      exact Bool.noConfusion loads

theorem writeBack_regWrite (instr : Instr) (hart : Hart) :
    (writeBack instr).map Prod.fst = (instr.regWrite hart).map Prod.fst := by
  cases instr <;> rfl

/-- The register write of an executed word is that of its instruction. -/
theorem regWrite_executedWord (encodes : Encodes word instr)
    (inside : Rv32im.InsideWord instr hart) :
    (executedWord word hart csrReadData).regWrite hart.memory = instr.effectiveWrite hart := by
  have target := writeBack_regWrite instr hart
  rw [← writeBack_encodes encodes] at target
  rw [Instr.effectiveWrite]
  by_cases enabled : InstructionDecode.exRegWriteEnable word = true
  · rw [if_pos enabled, Option.map_some] at target
    obtain ⟨⟨rd, value⟩, writes, rfl⟩ := Option.map_eq_some_iff.mp target.symm
    rw [writes]
    exact regWrite_enabled enabled (value_executedWord encodes inside writes)
  · rw [if_neg enabled] at target
    rw [Option.map_eq_none_iff.mp target.symm]
    exact regWrite_disabled (Bool.eq_false_of_not_eq_true enabled)

/-! ### The bus write -/

theorem store_none (other : InstructionDecode.opcode word ≠ InstructionTypes.S) :
    (executedWord word hart csrReadData).store = none := by
  have disabled : (executedWord word hart csrReadData).memoryWriteEnable = false :=
    decide_eq_false other
  rw [EX2MEM.store, disabled, if_neg Bool.false_ne_true]

theorem store_some {op : Rv32im.StoreOp} (code : InstructionDecode.opcode word = InstructionTypes.S)
    (selected : Rv32im.decodeStoreOp (Rv32im.funct3 word) = some op)
    (inside : Rv32im.lane (hart.get (Rv32im.rs1 word) + Rv32im.immS word) + op.size ≤ 4) :
    (executedWord word hart csrReadData).store =
      some (op.busWrite (hart.get (Rv32im.rs1 word) + Rv32im.immS word)
        (hart.get (Rv32im.rs2 word))) := by
  have enabled : (executedWord word hart csrReadData).memoryWriteEnable = true :=
    decide_eq_true code
  have immediate : InstructionDecode.exImmediate word = Rv32im.immS word := by
    rw [InstructionDecode.exImmediate, code]
    rfl
  have address : (executedWord word hart csrReadData).aluResult =
      hart.get (Rv32im.rs1 word) + Rv32im.immS word :=
    aluResult_address (Or.inr code) immediate
  have funct3 : (executedWord word hart csrReadData).funct3 = storeFunct3 op :=
    decodeStoreOp_funct3 selected
  have data : (executedWord word hart csrReadData).reg2Data = hart.get (Rv32im.rs2 word) := by
    change hart.get (InstructionDecode.regsReg2ReadAddress word) = _
    rw [reg2_used _ (by rw [InstructionDecode.usesRs2, code]; rfl)]
  rw [EX2MEM.store, enabled, if_pos rfl, busWrite_eq _ _ inside]
  simp only [MemoryAccess.memAddressIndex, MemoryAccess.busAddress, address, funct3, data]
  rfl

theorem store_executedWord (encodes : Encodes word instr) (inside : Rv32im.InsideWord instr hart) :
    (executedWord word hart csrReadData).store =
      (instr.storeOf hart).map fun (op, address, value) => op.busWrite address value := by
  cases encodes with
  | lui code form | auipc code form | jal code form | jalr code form | fence code form =>
    subst form
    exact store_none fun store => absurd (code.symm.trans store) (by decide)
  | mulDiv code multiply form =>
    subst form
    exact store_none fun store => absurd (code.symm.trans store) (by decide)
  | opReg op code other selected form =>
    subst form
    exact store_none fun store => absurd (code.symm.trans store) (by decide)
  | branch _ code selected form | load _ code selected form | opImm _ code selected form =>
    subst form
    exact store_none fun store => absurd (code.symm.trans store) (by decide)
  | store op code selected form =>
    subst form
    exact store_some code selected (inside _ _ rfl)

theorem access_storeOf {op : Rv32im.StoreOp} {target value : Word}
    (stores : instr.storeOf hart = some (op, target, value)) :
    instr.access hart = some (target, op.size) := by
  cases instr with
  | store op' rs1 rs2 offset =>
    simp only [Instr.storeOf, Option.some.injEq, Prod.mk.injEq] at stores
    obtain ⟨rfl, rfl, rfl⟩ := stores
    rfl
  | _ => exact absurd stores (Option.some_ne_none _).symm

theorem nextMemory_executedWord (encodes : Encodes word instr)
    (inside : Rv32im.InsideWord instr hart) :
    (executedWord word hart csrReadData).nextMemory hart.memory = instr.nextMemory hart := by
  rw [EX2MEM.nextMemory, store_executedWord encodes inside, Instr.nextMemory]
  cases stores : instr.storeOf hart with
  | none => rfl
  | some transfer =>
    obtain ⟨op, target, value⟩ := transfer
    have within := inside _ _ (access_storeOf stores)
    simp only [Option.map_some, busWrite_eq target value within]
    exact writeWord_store hart.memory target value within

theorem events_executedWord (encodes : Encodes word instr) (inside : Rv32im.InsideWord instr hart) :
    (executedWord word hart csrReadData).storeEvents ++
      [(executedWord word hart csrReadData).retireEvent hart.memory] =
      instr.events hart := by
  rw [EX2MEM.storeEvents, EX2MEM.retireEvent, store_executedWord encodes inside,
    regWrite_executedWord encodes inside, Option.map_map]
  rfl

/-! ### The state after an instruction -/

theorem apply_regs (io : EX2MEM) (state : ArchState) (r : RegAddr) :
    (io.apply state).regs r =
      match io.regWrite state.memory with
      | some (target, value) => if r = target then value else state.regs r
      | none => state.regs r := by
  rw [EX2MEM.apply, EX2MEM.regWrite]
  by_cases writes : io.regsWriteEnable = true ∧ io.regsWriteAddress ≠ 0#5
  · rw [if_pos writes]
    simp [RegisterFile.write, writes]
  · rw [if_neg writes]
    have unchanged : ¬ (io.regsWriteEnable = true ∧ io.regsWriteAddress ≠ 0#5 ∧
        r = io.regsWriteAddress) :=
      fun all => writes ⟨all.1, all.2.1⟩
    simp only [RegisterFile.write, if_neg unchanged]

/-- The registers and the memory are those of the instruction-set state, apart from `x0` and the
    registers that `stale` allows to differ. -/
structure Represents (state : ArchState) (hart : Hart) (stale : RegAddr → Prop) : Prop where
  memory : state.memory = hart.memory
  regs : ∀ r, r ≠ 0#5 → ¬ stale r → state.regs r = hart.regs r

theorem Represents.get {state : ArchState} {stale : RegAddr → Prop}
    (represents : Represents state hart stale)
    {r : RegAddr} (current : r ≠ 0#5 → ¬ stale r) : state.regs.get r = hart.get r := by
  rw [RegisterFile.get, Hart.get]
  by_cases zero : r = 0#5
  · rw [if_pos zero, if_pos zero]
  · rw [if_neg zero, if_neg zero, represents.regs r zero (current zero)]

theorem Represents.weaken {state : ArchState} {stale : RegAddr → Prop}
    (represents : Represents state hart fun _ => False) : Represents state hart stale where
  memory := represents.memory
  regs := fun r nonzero _ => represents.regs r nonzero not_false

/-- An executed word takes a represented state to the state after its instruction, when the stale
    registers are among those that it writes. -/
theorem represents_executedWord (encodes : Encodes word instr)
    (inside : Rv32im.InsideWord instr hart)
    {state : ArchState} {stale : RegAddr → Prop} (represents : Represents state hart stale)
    (overwritten : ∀ r, r ≠ 0#5 → stale r → ∃ value, instr.effectiveWrite hart = some (r, value)) :
    Represents ((executedWord word hart csrReadData).apply state)
      (instr.exec hart) fun _ => False where
  memory := by
    rw [EX2MEM.apply, represents.memory]
    exact nextMemory_executedWord encodes inside
  regs := by
    intro r nonzero _
    rw [apply_regs, represents.memory, regWrite_executedWord encodes inside, Instr.exec]
    cases write : instr.effectiveWrite hart with
    | none =>
      have current : ¬ stale r := by
        intro old
        obtain ⟨value, writes⟩ := overwritten r nonzero old
        rw [write] at writes
        exact absurd writes (Option.some_ne_none _).symm
      exact represents.regs r nonzero current
    | some target =>
      obtain ⟨rd, value⟩ := target
      simp only [Function.update_apply]
      by_cases same : r = rd
      · rw [if_pos same, if_pos same]
      · have current : ¬ stale r := by
          intro old
          obtain ⟨value', writes⟩ := overwritten r nonzero old
          rw [write, Option.some.injEq, Prod.mk.injEq] at writes
          exact same writes.1.symm
        rw [if_neg same, if_neg same, represents.regs r nonzero current]

end Legal

end MyCpu
