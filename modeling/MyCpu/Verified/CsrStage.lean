import MyCpu.Isa.ZicsrMachine
import MyCpu.Verified.Phases

/-! # CSR instructions in the pipeline

The CSR file holds the machine's CSRs, apart from the counters, which count by
themselves.  A CSR instruction reads the file in ID and writes it in EX, in every
cycle that it spends there; the last of these writes has the forwarded operand.  So
the file with the write of EX applied is what the instructions up to EX leave, and
EX together with this file takes one step of the instruction set. -/

namespace MyCpu

open Rv32im (Hart Machine SystemInstr CsrOp CsrOperand Event)

/-! ## The CSR file as a table -/

namespace CSR

/-- The address is not that of a counter. -/
def plain (address : CsrAddr) : Bool :=
  Counter.all.all fun c => !c.readsLow address && !c.readsHigh address

/-- What a register keeps of the word that is written to it. -/
def legal (address : CsrAddr) (data : Word) : Word :=
  if address = CSRRegister.MSTATUS ∨ address = CSRRegister.MIE ∨ address = CSRRegister.MTVEC ∨
      address = CSRRegister.MSCRATCH ∨ address = CSRRegister.MEPC ∨
      address = CSRRegister.MCAUSE then data
  else if address = CSRRegister.MCOUNTINHIBIT then data &&& 0x000003fd#32
  else if address = CSRRegister.MISA then misa
  else 0#32

/-- The registers apart from the counters. -/
def contents (csr : CSR) (address : CsrAddr) : Word :=
  if plain address then csr.regLUT address else 0#32

theorem legal_legal (address : CsrAddr) (data : Word) :
    legal address (legal address data) = legal address data := by
  simp only [legal]
  split_ifs
  · rfl
  · rw [BitVec.and_assoc, BitVec.and_self]
  · rfl
  · rfl

/-- An address that is not that of a counter finds one of the named registers, or nothing. -/
theorem regLUT_plain (csr : CSR) {address : CsrAddr} (isPlain : plain address = true) :
    csr.regLUT address =
      if address = CSRRegister.MSTATUS then csr.mstatus
      else if address = CSRRegister.MISA then misa
      else if address = CSRRegister.MIE then csr.mie
      else if address = CSRRegister.MTVEC then csr.mtvec
      else if address = CSRRegister.MSCRATCH then csr.mscratch
      else if address = CSRRegister.MEPC then csr.mepc
      else if address = CSRRegister.MCAUSE then csr.mcause
      else if address = CSRRegister.MCOUNTINHIBIT then csr.mcountinhibit
      else 0#32 := by
  have none : ∀ c ∈ Counter.all, c.readsLow address = false ∧
      c.readsHigh address = false := fun c member => by
    have both := List.all_eq_true.mp isPlain c member
    simpa using both
  have low : Counter.all.find? (fun c => c.readsLow address) = Option.none :=
    List.find?_eq_none.mpr fun c member => by rw [(none c member).1]; exact Bool.false_ne_true
  have high : Counter.all.find? (fun c => c.readsHigh address) = Option.none :=
    List.find?_eq_none.mpr fun c member => by rw [(none c member).2]; exact Bool.false_ne_true
  rw [regLUT, low, high]

theorem register_cases {motive : CsrAddr → Prop} (mstatus : motive CSRRegister.MSTATUS)
    (misa : motive CSRRegister.MISA) (mie : motive CSRRegister.MIE)
    (mtvec : motive CSRRegister.MTVEC)
    (mscratch : motive CSRRegister.MSCRATCH) (mepc : motive CSRRegister.MEPC)
    (mcause : motive CSRRegister.MCAUSE)
    (mcountinhibit : motive CSRRegister.MCOUNTINHIBIT)
    (other : ∀ address, (∀ data, legal address data = 0#32) →
      (plain address = true → ∀ csr, regLUT csr address = 0#32) → motive address)
    (address : CsrAddr) : motive address := by
  by_cases isMstatus : address = CSRRegister.MSTATUS
  · exact isMstatus ▸ mstatus
  by_cases isMisa : address = CSRRegister.MISA
  · exact isMisa ▸ misa
  by_cases isMie : address = CSRRegister.MIE
  · exact isMie ▸ mie
  by_cases isMtvec : address = CSRRegister.MTVEC
  · exact isMtvec ▸ mtvec
  by_cases isMscratch : address = CSRRegister.MSCRATCH
  · exact isMscratch ▸ mscratch
  by_cases isMepc : address = CSRRegister.MEPC
  · exact isMepc ▸ mepc
  by_cases isMcause : address = CSRRegister.MCAUSE
  · exact isMcause ▸ mcause
  by_cases isMcountinhibit : address = CSRRegister.MCOUNTINHIBIT
  · exact isMcountinhibit ▸ mcountinhibit
  refine other address (fun data => ?_) fun isPlain csr => ?_
  · simp [legal, isMstatus, isMisa, isMie, isMtvec, isMscratch, isMepc, isMcause, isMcountinhibit]
  · rw [regLUT_plain csr isPlain]
    simp [isMstatus, isMisa, isMie, isMtvec, isMscratch, isMepc, isMcause, isMcountinhibit]

end CSR

namespace CsrWrite

/-- The table after the write. -/
def apply (write : CsrWrite) (registers : CsrAddr → Word) : CsrAddr → Word :=
  if write.enable then Function.update registers write.address
    (CSR.legal write.address write.data) else registers

theorem apply_at (write : CsrWrite) (registers : CsrAddr → Word) (address : CsrAddr) :
    write.apply registers address =
      if write.enable && write.address = address then CSR.legal address write.data
        else registers address := by
  rw [apply]
  cases write.enable with
  | false => rfl
  | true =>
    by_cases same : write.address = address
    · subst same
      simp
    · simp [same, Function.update_of_ne (Ne.symm same)]

theorem apply_disabled {write : CsrWrite} (disabled : write.enable = false)
    (registers : CsrAddr → Word) :
    write.apply registers = registers := by
  rw [apply, disabled, if_neg Bool.false_ne_true]

theorem apply_again {first second : CsrWrite} (enable : first.enable = second.enable)
    (address : first.address = second.address) (registers : CsrAddr → Word) :
    second.apply (first.apply registers) = second.apply registers := by
  rw [apply, apply, apply, enable, address]
  split_ifs
  · exact Function.update_idem _ _ _
  · rfl

end CsrWrite

namespace CSR

/-- One edge without a trap is the write of EX. -/
theorem contents_step (csr : CSR) (readAddress : CsrAddr) {write : CsrWrite} {trap : TrapAction}
    (event : Counter → Bool) (untrapped : trap.directWriteEnable = false)
    (named : write.enable = true → plain write.address = true) :
    (csr.step readAddress write trap event).contents = write.apply csr.contents := by
  funext address
  rw [CsrWrite.apply_at, contents, contents]
  cases isPlain : plain address with
  | false =>
    have other : (write.enable && write.address = address) = false := by
      rw [Bool.and_eq_false_iff, decide_eq_false_iff_not]
      by_contra both
      rw [not_or, Bool.not_eq_false, not_not] at both
      have named := named both.1
      rw [both.2, isPlain] at named
      exact Bool.noConfusion named
    rw [other, if_neg Bool.false_ne_true, if_neg Bool.false_ne_true, if_neg Bool.false_ne_true]
  | true =>
    rw [if_pos rfl, if_pos rfl]
    -- every register has its own bypass; the other addresses keep their constant
    cases address using register_cases with
    | mstatus | mepc | mcause => exact if_neg (Bool.eq_false_iff.mp untrapped)
    | misa => exact (ite_self _).symm
    | mie | mtvec | mscratch | mcountinhibit => rfl
    | other address nothing silent => rw [silent isPlain, silent isPlain, nothing, ite_self]

/-- Every CSR that is not a counter holds a word that it may hold. -/
def LegalContents (registers : CsrAddr → Word) : Prop :=
  ∀ address, plain address = true → legal address (registers address) = registers address

theorem legalContents {csr : CSR}
    (masked : csr.mcountinhibit &&& 0x000003fd#32 = csr.mcountinhibit) :
    LegalContents csr.contents := by
  intro address isPlain
  rw [contents, if_pos isPlain]
  cases address using register_cases with
  | mcountinhibit => exact masked
  | other address nothing silent => rw [nothing, silent isPlain]
  | _ => rfl

end CSR

/-! ## A CSR instruction in EX -/

section Words

variable {word : Word} {op : CsrOp} {immediate : Bool} {hart : Hart} {csrReadData : Word}
    {memory : Rv32im.Memory}

def csrFunct3 : CsrOp → Bool → BitVec 3
  | .rw, false => InstructionsTypeCSR.csrrw
  | .rs, false => InstructionsTypeCSR.csrrs
  | .rc, false => InstructionsTypeCSR.csrrc
  | .rw, true => InstructionsTypeCSR.csrrwi
  | .rs, true => InstructionsTypeCSR.csrrsi
  | .rc, true => InstructionsTypeCSR.csrrci

theorem decodeCsrForm_funct3 {funct3 : BitVec 3}
    (selected : Rv32im.decodeCsrForm funct3 = some (op, immediate)) :
    funct3 = csrFunct3 op immediate := by
  unfold Rv32im.decodeCsrForm at selected
  split at selected
  all_goals cases selected
  all_goals rfl

section Csr

variable (code : InstructionDecode.opcode word = Instructions.csr)
  (selected : Rv32im.decodeCsrForm (Rv32im.funct3 word) = some (op, immediate))

include code selected

theorem exCsrWriteEnable_csr : InstructionDecode.exCsrWriteEnable word = true := by
  have funct3 : InstructionDecode.funct3 word = csrFunct3 op immediate :=
    decodeCsrForm_funct3 selected
  rw [InstructionDecode.exCsrWriteEnable, code, funct3]
  cases op <;> cases immediate <;> rfl

/-- The register form reads its source, and the immediate form none. -/
theorem reg1ReadAddress_csr : InstructionDecode.regsReg1ReadAddress word =
    if immediate then 0#5 else Rv32im.rs1 word := by
  have funct3 : InstructionDecode.funct3 word = csrFunct3 op immediate :=
    decodeCsrForm_funct3 selected
  have uses : InstructionDecode.usesRs1 word = !immediate := by
    rw [InstructionDecode.usesRs1, InstructionDecode.csrUsesUimm, code, funct3]
    cases op <;> cases immediate <;> rfl
  rw [InstructionDecode.regsReg1ReadAddress, uses]
  cases immediate <;> rfl

/-- EX computes the word that the instruction set writes. -/
theorem csrWriteData_csr {ex : ID2EX} (instruction : ex.instruction = word) :
    Execute.csrWriteData ex (hart.get (InstructionDecode.regsReg1ReadAddress word)) =
      op.eval ex.csrReadData ((Rv32im.csrOperand word immediate).value hart) := by
  have funct3 : InstructionDecode.funct3 word = csrFunct3 op immediate :=
    decodeCsrForm_funct3 selected
  rw [reg1ReadAddress_csr code selected, Execute.csrWriteData, instruction, funct3]
  cases op <;> cases immediate <;> rfl

end Csr

section System

variable (code : InstructionDecode.opcode word = Instructions.csr)

include code

theorem regWrite_csr : (executedWord word hart csrReadData).regWrite memory =
    (some (Rv32im.rd word, csrReadData)).filter fun write => write.1 ≠ 0#5 := by
  have enabled : InstructionDecode.exRegWriteEnable word = true := by
    rw [InstructionDecode.exRegWriteEnable, code]
    rfl
  have source : (executedWord word hart csrReadData).regsWriteSource = .csr := by
    change InstructionDecode.exRegWriteSource word = .csr
    rw [InstructionDecode.exRegWriteSource, code]
    rfl
  exact regWrite_enabled enabled (by rw [EX2MEM.value, source]; rfl)

theorem store_csr : (executedWord word hart csrReadData).store = none :=
  store_none (by rw [code]; decide)

theorem current_csr (r : RegAddr) : ¬ System.Stale word r := by
  -- no register is stale behind a CSR instruction
  rintro ⟨jalr, _⟩
  rw [code] at jalr
  exact absurd jalr (by decide)

theorem represents_csr {state : ArchState} {stale : RegAddr → Prop}
    (represents : Represents state hart stale)
    (current : ∀ r, ¬ stale r) (pc : Word) :
    Represents ((executedWord word hart csrReadData).apply state)
      { hart.set (Rv32im.rd word) csrReadData with pc := pc } fun _ => False where
  memory := by
    rw [EX2MEM.apply, EX2MEM.nextMemory, store_csr code, represents.memory, Hart.set]
    split <;> rfl
  regs := by
    intro r nonzero _
    rw [apply_regs, regWrite_csr code, Hart.set]
    by_cases zero : Rv32im.rd word = 0#5
    · simp only [zero, Option.filter, ne_eq, not_true_eq_false, decide_false,
        Bool.false_eq_true, if_false, if_true]
      exact represents.regs r nonzero (current r)
    · simp only [zero, Option.filter, ne_eq, not_false_eq_true, decide_true, if_true, if_false,
        Function.update_apply]
      rw [represents.regs r nonzero (current r)]

end System

end Words

/-! ## What a CSR instruction does to the machine -/

namespace CSR

variable {m : Machine} {op : CsrOp} {operand : CsrOperand} {address : CsrAddr} {rd : RegAddr}

theorem eval_unwritten (unwritten : op.writes operand = false) (hart : Hart) (old : Word) :
    op.eval old (operand.value hart) = old := by
  simp only [CsrOp.writes, Bool.or_eq_false_iff, decide_eq_false_iff_not,
    Bool.and_eq_false_iff, not_not] at unwritten
  obtain ⟨other, source⟩ := unwritten
  have zero : operand.value hart = 0#32 := by
    obtain rfl | rfl := source <;> rfl
  rw [zero]
  cases op with
  | rw => exact absurd rfl other
  | rs => exact BitVec.or_zero
  | rc => exact BitVec.and_allOnes

/-- The CSRs after a CSR instruction, whether it writes or not. -/
theorem exec_csr (isPlain : plain address = true) (contents : LegalContents m.csr) :
    (SystemInstr.exec legal m (.csr op rd operand address)).csr =
      Function.update m.csr address
        (legal address (op.eval (m.csr address) (operand.value m.hart))) := by
  simp only [SystemInstr.exec]
  cases writes : op.writes operand with
  | true => rfl
  | false =>
    rw [eval_unwritten writes, contents address isPlain, Function.update_eq_self]
    rfl

theorem legalContents_exec (isPlain : plain address = true) (contents : LegalContents m.csr) :
    LegalContents (SystemInstr.exec legal m (.csr op rd operand address)).csr := by
  rw [exec_csr isPlain contents]
  intro other named
  by_cases same : other = address
  · subst same
    rw [Function.update_self, legal_legal]
  · rw [Function.update_of_ne same]
    exact contents other named

end CSR

/-! ## The CSR file behind ID -/

namespace System

variable {program : Rv32im.Program} {predictions : Predictions}
    {system : System} {stimulus : Stimulus}

/-- The CSR write of EX when the instruction in MEM has finished. -/
def exWrite (system : System) : CsrWrite where
  enable := system.cpu.id2ex.csrWriteEnable
  address := system.cpu.id2ex.csrAddress
  data := Execute.csrWriteData system.cpu.id2ex
    ((afterMem system).regs.get system.cpu.id2ex.regsReg1ReadAddress)

/-- The CSR file after the instruction in EX. -/
def csrAfterEx (system : System) : CsrAddr → Word :=
  (exWrite system).apply system.cpu.csrRegs.contents

/-- The stages up to EX lead to the CSRs of the instruction set. -/
structure CsrBacked (system : System) (registers : CsrAddr → Word) : Prop where
  named : system.cpu.id2ex.csrWriteEnable = true → CSR.plain system.cpu.id2ex.csrAddress = true
  other : system.ex ≠ .instruction → system.cpu.id2ex.csrWriteEnable = false
  agrees : ∀ address, CSR.plain address = true → csrAfterEx system address = registers address

section CsrBacked

variable {registers : CsrAddr → Word}

theorem csrAfterEx_disabled (disabled : system.cpu.id2ex.csrWriteEnable = false) :
    csrAfterEx system = system.cpu.csrRegs.contents :=
  CsrWrite.apply_disabled disabled _

/-- CLINT writes the CSR file in the cycles in which it redirects fetch. -/
theorem directWriteEnable_eq (cpu : PipelinedCPU) (io : PipelinedCPU.Inputs) :
    (PipelinedCPU.trap cpu io).directWriteEnable = PipelinedCPU.interruptAssert cpu io := by
  rw [PipelinedCPU.interruptAssert, PipelinedCPU.trap, CLINT.outputs]
  split_ifs <;> rfl

variable (predictions) in
theorem contents_next (backed : CsrBacked system registers)
    (noTrap : PipelinedCPU.interruptAssert system.cpu (inputs program system stimulus) = false) :
    (stepWith program predictions system stimulus).cpu.csrRegs.contents =
      (PipelinedCPU.csrWrite system.cpu
        (inputs program system stimulus)).apply system.cpu.csrRegs.contents :=
  CSR.contents_step _ _ _ ((directWriteEnable_eq _ _).trans noTrap) backed.named

theorem CsrBacked.stalled (backed : CsrBacked system registers) (steady : Steady system)
    (noTrap : PipelinedCPU.interruptAssert system.cpu (inputs program system stimulus) = false)
    (stalled : memStall program system stimulus = true)
    (kept : PipelinedCPU.id2exFlush system.cpu (inputs program system stimulus) = true →
      system.ex ≠ .instruction) :
    CsrBacked (stepWith program predictions system stimulus) registers := by
  -- while MEM waits, EX repeats its write
  have contents := contents_next predictions backed noTrap
  obtain ⟨flush, bubble, occupant⟩ | ⟨held, occupant⟩ := id2ex_stalled predictions stalled
  · have disabled :
        (stepWith program predictions system stimulus).cpu.id2ex.csrWriteEnable = false := by
      rw [bubble]
      rfl
    have idle := backed.other (kept flush)
    refine ⟨fun enabled => Bool.noConfusion (disabled.symm.trans enabled), fun _ => disabled,
      fun address isPlain => ?_⟩
    have same : csrAfterEx (stepWith program predictions system stimulus) = csrAfterEx system := by
      rw [csrAfterEx_disabled disabled, contents, csrAfterEx_disabled idle]
      exact CsrWrite.apply_disabled idle _
    rw [same]
    exact backed.agrees address isPlain
  · refine ⟨?_, ?_, fun address isPlain => ?_⟩
    · rw [held]
      exact backed.named
    · rw [held, occupant]
      exact backed.other
    · have write : exWrite (stepWith program predictions system stimulus) = exWrite system := by
        rw [exWrite, exWrite, held, afterMem_stalled steady stalled]
      have same : csrAfterEx (stepWith program predictions system stimulus) =
          csrAfterEx system := by
        rw [csrAfterEx, write, contents, csrAfterEx]
        exact @CsrWrite.apply_again (PipelinedCPU.csrWrite system.cpu
          (inputs program system stimulus))
          (exWrite system) rfl rfl system.cpu.csrRegs.contents
      rw [same]
      exact backed.agrees address isPlain

/-- In a cycle that moves the pipeline, EX writes with the operand of the instruction set. -/
theorem csrWrite_exWrite (steady : Steady system)
    (running : memStall program system stimulus = false) :
    PipelinedCPU.csrWrite system.cpu (inputs program system stimulus) = exWrite system := by
  have operand : PipelinedCPU.exReg1Data system.cpu (inputs program system stimulus) =
      (afterMem system).regs.get system.cpu.id2ex.regsReg1ReadAddress :=
    exOperand_afterMem steady running steady.operand1
  rw [PipelinedCPU.csrWrite, operand, exWrite]

theorem contents_running (backed : CsrBacked system registers) (steady : Steady system)
    (noTrap : PipelinedCPU.interruptAssert system.cpu (inputs program system stimulus) = false)
    (running : memStall program system stimulus = false) :
    (stepWith program predictions system stimulus).cpu.csrRegs.contents = csrAfterEx system := by
  rw [contents_next predictions backed noTrap, csrWrite_exWrite steady running, csrAfterEx]

theorem CsrBacked.moved (backed : CsrBacked system registers) (steady : Steady system)
    (noTrap : PipelinedCPU.interruptAssert system.cpu (inputs program system stimulus) = false)
    (running : memStall program system stimulus = false)
    (disabled : (stepWith program predictions system stimulus).cpu.id2ex.csrWriteEnable = false) :
    CsrBacked (stepWith program predictions system stimulus) registers := by
  -- another instruction enters EX, or none
  refine ⟨fun enabled => Bool.noConfusion (disabled.symm.trans enabled), fun _ => disabled,
    fun address isPlain => ?_⟩
  rw [csrAfterEx_disabled disabled, contents_running backed steady noTrap running]
  exact backed.agrees address isPlain

end CsrBacked

/-! ## A CSR instruction leaves ID -/

/-- What ID reads is what the instruction in EX leaves. -/
def CsrCurrent (cpu : PipelinedCPU) (io : PipelinedCPU.Inputs) : Prop :=
  (PipelinedCPU.csrWrite cpu io).enable = true →
    (PipelinedCPU.csrWrite cpu io).address = InstructionDecode.exCsrAddress cpu.if2id.instruction →
    CSR.legal (InstructionDecode.exCsrAddress cpu.if2id.instruction)
      (PipelinedCPU.csrWrite cpu io).data =
      CSR.regLUT cpu.csrRegs (InstructionDecode.exCsrAddress cpu.if2id.instruction)

section Issue

variable {m : Machine} {op : CsrOp} {immediate : Bool}
    (running : memStall program system stimulus = false)
  (kept : PipelinedCPU.id2exFlush system.cpu (inputs program system stimulus) = false)
  (steady : Steady system)
  (noTrap : PipelinedCPU.interruptAssert system.cpu (inputs program system stimulus) = false)
  (backed : CsrBacked system m.csr)
  (isPlain : CSR.plain (InstructionDecode.exCsrAddress system.cpu.if2id.instruction) = true)
  (current : CsrCurrent system.cpu (inputs program system stimulus))

include running steady backed isPlain current

theorem regLUT_current :
    CSR.regLUT system.cpu.csrRegs (InstructionDecode.exCsrAddress system.cpu.if2id.instruction) =
    m.csr (InstructionDecode.exCsrAddress system.cpu.if2id.instruction) := by
  rw [CsrCurrent, csrWrite_exWrite steady running] at current
  rw [← backed.agrees _ isPlain, csrAfterEx, CsrWrite.apply_at]
  by_cases addressed : ((exWrite system).enable && (exWrite system).address =
      InstructionDecode.exCsrAddress system.cpu.if2id.instruction) = true
  · rw [if_pos addressed]
    rw [Bool.and_eq_true, decide_eq_true_eq] at addressed
    exact (current addressed.1 addressed.2).symm
  · rw [if_neg addressed, CSR.contents, if_pos isPlain]

include kept

variable (represents : Represents (afterEx system) m.hart (Stale system.cpu.if2id.instruction))

include represents

variable (predictions) in
theorem executing_csr (address : system.cpu.if2id.instructionAddress = m.hart.pc) :
    executing (stepWith program predictions system stimulus) =
      executedWord system.cpu.if2id.instruction m.hart
        (m.csr (InstructionDecode.exCsrAddress system.cpu.if2id.instruction)) := by
  rw [executing_issued predictions running kept steady, address, executed_decodedWord
    (operandsAgree represents), regLUT_current running steady backed isPlain current]

variable (code : InstructionDecode.opcode system.cpu.if2id.instruction = Instructions.csr)
  (selected : Rv32im.decodeCsrForm (Rv32im.funct3 system.cpu.if2id.instruction) =
    some (op, immediate))

include code selected

variable (predictions) in
theorem exWrite_csr : exWrite (stepWith program predictions system stimulus) =
    { enable := true
      address := InstructionDecode.exCsrAddress system.cpu.if2id.instruction
      data := op.eval (m.csr (InstructionDecode.exCsrAddress system.cpu.if2id.instruction))
        ((Rv32im.csrOperand system.cpu.if2id.instruction immediate).value m.hart) } := by
  obtain ⟨flush, _⟩ | ⟨_, issued, _⟩ := id2ex_running predictions running
  · rw [kept] at flush
    exact Bool.noConfusion flush
  · have operand := (operandsAgree represents).reg1
    have enable := exCsrWriteEnable_csr code selected
    rw [exWrite, afterMem_running steady running, issued, id2exInput_eq,
      regLUT_current running steady backed isPlain current]
    simp only [decodedWord]
    rw [operand, csrWriteData_csr code selected rfl, enable]

include noTrap

theorem CsrBacked.issued (contents : CSR.LegalContents m.csr)
    (taken : (stepWith program predictions system stimulus).ex = .instruction) {rd : RegAddr} :
    CsrBacked (stepWith program predictions system stimulus)
      (SystemInstr.exec CSR.legal m
        (.csr op rd (Rv32im.csrOperand system.cpu.if2id.instruction immediate)
        (InstructionDecode.exCsrAddress system.cpu.if2id.instruction))).csr := by
  have write :=
    exWrite_csr predictions running kept steady backed isPlain current represents code selected
  refine ⟨fun _ => ?_, fun other => absurd taken other, fun address plainAddress => ?_⟩
  · have named : (stepWith program predictions system stimulus).cpu.id2ex.csrAddress =
        InstructionDecode.exCsrAddress system.cpu.if2id.instruction :=
          congrArg CsrWrite.address write
    rw [named]
    exact isPlain
  · rw [csrAfterEx, write, contents_running backed steady noTrap running,
      CSR.exec_csr isPlain contents, CsrWrite.apply_at, Function.update_apply]
    simp only [Bool.true_and, decide_eq_true_eq]
    by_cases same : InstructionDecode.exCsrAddress system.cpu.if2id.instruction = address
    · subst same
      rw [if_pos rfl, if_pos rfl]
    · rw [if_neg same, if_neg (Ne.symm same)]
      exact backed.agrees address plainAddress

end Issue

end System

end MyCpu
