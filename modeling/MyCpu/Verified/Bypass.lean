import MyCpu.Verified.PipelineRun

/-! # The bypass network

EX takes its operands from ID/EX, MEM or WB.  Whatever the bus and the hazards have done before,
they are the registers as WB and MEM leave them: an operand that ID has captured is that of the
register file, until one of the two stages behind EX writes the register. -/

namespace MyCpu

namespace RegisterFile

theorem get_write {rs : RegAddr} (regs : RegisterFile) (enabled : Bool)
    (target : RegAddr) (data : Word) :
    (write regs enabled target data).get rs =
      if enabled = true ∧ rs = target ∧ rs ≠ 0#5 then data else regs.get rs := by
  rw [get, get, write]
  by_cases zero : rs = 0#5
  · simp [zero]
  · by_cases same : rs = target
    · subst target
      simp [zero]
    · simp [zero, same]

end RegisterFile

namespace MemoryAccess

variable {mem : MemoryAccess} {io : EX2MEM} {bus : BusInputs}

/-- Only a load brings MEM to the read state, and only a store to the write state. -/
theorem nextState_read (reading : nextState mem io bus = .read) :
    mem.memAccessState = .read ∨ io.memoryReadEnable = true := by
  rw [nextState] at reading
  cases state : mem.memAccessState with
  | read => exact .inl rfl
  | write =>
    rw [state] at reading
    simp only at reading
    split_ifs at reading
  | idle =>
    rw [state] at reading
    simp only at reading
    split_ifs at reading with load
    exact .inr load

theorem nextState_write (writing : nextState mem io bus = .write) :
    mem.memAccessState = .write ∨ io.memoryWriteEnable = true := by
  rw [nextState] at writing
  cases state : mem.memAccessState with
  | write => exact .inl rfl
  | read =>
    rw [state] at writing
    simp only at writing
    split_ifs at writing
  | idle =>
    rw [state] at writing
    simp only at writing
    by_cases store : io.memoryWriteEnable = true
    · exact .inr store
    · rw [if_neg store] at writing
      split_ifs at writing

end MemoryAccess

namespace System

/-- A load and nothing else takes its value from memory, and a load is not a store. -/
structure LoadControl (source : RegWriteSource) (read write : Bool) : Prop where
  source : source = .memory ↔ read = true
  exclusive : read = true → write = false

theorem loadControl_decoded (word : Word) :
    LoadControl (InstructionDecode.exRegWriteSource word)
      (InstructionDecode.exMemoryReadEnable word)
      (InstructionDecode.exMemoryWriteEnable word) where
  source := by
    simp only [InstructionDecode.exRegWriteSource,
      InstructionDecode.exMemoryReadEnable, decide_eq_true_eq]
    split_ifs with load <;> simp [load]
  exclusive := by
    simp only [InstructionDecode.exMemoryReadEnable,
      InstructionDecode.exMemoryWriteEnable, decide_eq_true_eq, decide_eq_false_iff_not]
    intro load
    rw [load]
    decide

end System

namespace PipelinedCPU

open MyCpu.System (LoadControl loadControl_decoded)

/-! ## Registers and bypasses -/

variable (cpu : PipelinedCPU) (io : Inputs)

/-- The registers after the write of the instruction in WB. -/
def writtenBack : RegisterFile :=
  RegisterFile.write cpu.regs cpu.mem2wb.regsWriteEnable cpu.mem2wb.regsWriteAddress
    (regsWriteData cpu)

/-- What the instruction in MEM writes to its register, in the case of a load from the word on the
    bus. -/
def produced : Word :=
  match cpu.ex2mem.regsWriteSource with
  | .memory => MemoryAccess.processedData cpu.ex2mem.funct3
      (MemoryAccess.memAddressIndex cpu.ex2mem) io.bus.readData
  | .csr => cpu.ex2mem.csrReadData
  | .nextInstructionAddress => cpu.ex2mem.instructionAddress + 4#32
  | .aluResult => cpu.ex2mem.aluResult

/-- The registers after the writes of the instructions in WB and MEM. -/
def drained : RegisterFile :=
  RegisterFile.write (writtenBack cpu) cpu.ex2mem.regsWriteEnable cpu.ex2mem.regsWriteAddress
    (produced cpu io)

section Bypasses

variable {rs : RegAddr}

/-- What each answer of the bypass selector says about MEM and WB. -/
theorem forwarding_cases (cpu : PipelinedCPU) (rs : RegAddr) :
    (forwarding cpu rs = .forwardFromMEM ∧ cpu.ex2mem.regsWriteEnable = true ∧
        rs = cpu.ex2mem.regsWriteAddress ∧ rs ≠ 0#5) ∨
      (¬ (cpu.ex2mem.regsWriteEnable = true ∧ rs = cpu.ex2mem.regsWriteAddress ∧ rs ≠ 0#5) ∧
        ((forwarding cpu rs = .forwardFromWB ∧ cpu.mem2wb.regsWriteEnable = true ∧
            rs = cpu.mem2wb.regsWriteAddress ∧ rs ≠ 0#5) ∨
          (forwarding cpu rs = .noForward ∧
            ¬ (cpu.mem2wb.regsWriteEnable = true ∧
            rs = cpu.mem2wb.regsWriteAddress ∧ rs ≠ 0#5)))) := by
  rw [forwarding, Forwarding.select]
  by_cases fromMem : cpu.ex2mem.regsWriteEnable = true ∧ rs = cpu.ex2mem.regsWriteAddress ∧
      cpu.ex2mem.regsWriteAddress ≠ 0#5
  · rw [if_pos fromMem]
    exact Or.inl ⟨rfl, fromMem.1, fromMem.2.1, fromMem.2.1 ▸ fromMem.2.2⟩
  · rw [if_neg fromMem]
    refine Or.inr ⟨fun all => fromMem ⟨all.1, all.2.1, all.2.1 ▸ all.2.2⟩, ?_⟩
    by_cases fromWb : cpu.mem2wb.regsWriteEnable = true ∧ rs = cpu.mem2wb.regsWriteAddress ∧
        cpu.mem2wb.regsWriteAddress ≠ 0#5
    · rw [if_pos fromWb]
      exact Or.inl ⟨rfl, fromWb.1, fromWb.2.1, fromWb.2.1 ▸ fromWb.2.2⟩
    · rw [if_neg fromWb]
      exact Or.inr ⟨rfl, fun all => fromWb ⟨all.1, all.2.1, all.2.1 ▸ all.2.2⟩⟩

theorem forwarding_noForward {cpu : PipelinedCPU} (select : forwarding cpu rs = .noForward) :
    ¬ (cpu.mem2wb.regsWriteEnable = true ∧ rs = cpu.mem2wb.regsWriteAddress ∧ rs ≠ 0#5) := by
  obtain ⟨other, _⟩ | ⟨_, ⟨other, _⟩ | ⟨_, noWb⟩⟩ := forwarding_cases cpu rs
  · exact absurd (other.symm.trans select) (by decide)
  · exact absurd (other.symm.trans select) (by decide)
  · exact noWb

/-- The read port shows the register that WB leaves. -/
theorem regsReadData_eq {cpu : PipelinedCPU} :
    regsReadData cpu rs =
      (writtenBack cpu).get rs := by
  rw [writtenBack, RegisterFile.get_write, regsReadData, RegisterFile.readData, RegisterFile.get]
  by_cases zero : rs = 0#5
  · simp [zero]
  · by_cases same : cpu.mem2wb.regsWriteAddress = rs
    · subst rs
      simp [zero]
    · have other : ¬ rs = cpu.mem2wb.regsWriteAddress := fun all => same all.symm
      simp [zero, same, other]

/-- The bypass multiplexer delivers the register after the writes of WB and MEM, when its
    unforwarded operand is the register after WB and MEM forwards what it writes. -/
theorem mux_drained {cpu : PipelinedCPU} {data fromMem value : Word}
    (held : forwarding cpu rs = .noForward → data =
      (writtenBack cpu).get rs)
    (forwarded : forwarding cpu rs = .forwardFromMEM → fromMem = value) :
    Forwarding.mux (forwarding cpu rs) data fromMem (regsWriteData cpu) =
      (RegisterFile.write
        (writtenBack cpu) cpu.ex2mem.regsWriteEnable cpu.ex2mem.regsWriteAddress value).get rs := by
  rw [RegisterFile.get_write]
  obtain ⟨select, writes⟩ | ⟨noMem, ⟨select, writes⟩ | ⟨select, noWb⟩⟩ := forwarding_cases cpu rs
  · rw [select, if_pos writes]
    exact forwarded select
  · rw [select, if_neg noMem, writtenBack, RegisterFile.get_write, if_pos writes]
    rfl
  · rw [select, if_neg noMem]
    exact held select

end Bypasses

/-! ## MEM -/

/-- What MEM keeps about its access. -/
structure Accessing : Prop where
  control : LoadControl cpu.ex2mem.regsWriteSource cpu.ex2mem.memoryReadEnable cpu.ex2mem.memoryWriteEnable
  reading : cpu.mem.memAccessState = .read → cpu.ex2mem.memoryReadEnable = true
  writing : cpu.mem.memAccessState = .write → cpu.ex2mem.memoryWriteEnable = true

section Access

variable {cpu io} (accessing : Accessing cpu)

include accessing

/-- A load leaves MEM in the cycle in which its data arrives. -/
theorem load_finishes (load : cpu.ex2mem.memoryReadEnable = true)
    (running : memStall cpu io = false) :
    cpu.mem.memAccessState = .read ∧ io.bus.readValid = true := by
  rw [memStall, MemoryAccess.ctrlStallFlag] at running
  cases state : cpu.mem.memAccessState with
  | idle =>
    rw [state, load] at running
    exact absurd running (by simp)
  | read =>
    rw [state] at running
    exact ⟨rfl, (Bool.not_eq_false' _).mp running⟩
  | write =>
    have store := accessing.writing state
    rw [accessing.control.exclusive load] at store
    exact Bool.noConfusion store

theorem store_finishes (store : cpu.ex2mem.memoryWriteEnable = true)
    (running : memStall cpu io = false) :
    cpu.mem.memAccessState = .write := by
  rw [memStall, MemoryAccess.ctrlStallFlag] at running
  cases state : cpu.mem.memAccessState with
  | idle =>
    rw [state, store, Bool.or_true] at running
    exact Bool.noConfusion running
  | read =>
    have exclusive := accessing.control.exclusive (accessing.reading state)
    rw [store] at exclusive
    exact Bool.noConfusion exclusive
  | write => rfl

theorem not_inActiveRead (ready : cpu.ex2mem.memoryReadEnable = false ∨ memStall cpu io = false) :
    MemoryAccess.inActiveRead cpu.mem io.bus = false := by
  rw [MemoryAccess.inActiveRead]
  cases state : cpu.mem.memAccessState with
  | idle | write => rfl
  | read =>
    have load := accessing.reading state
    obtain none | running := ready
    · rw [load] at none
      exact Bool.noConfusion none
    · rw [(load_finishes accessing load running).2]
      rfl

/-- Without a load in MEM, or once the load has its data, MEM forwards what its instruction
    writes. -/
theorem forwardFromMem_produced
    (ready : cpu.ex2mem.memoryReadEnable = false ∨ memStall cpu io = false) :
    forwardFromMem cpu io = produced cpu io := by
  rw [forwardFromMem, MemoryAccess.forwardToEx, MemoryAccess.wbRegsWriteSource,
    not_inActiveRead accessing ready, if_neg Bool.false_ne_true, produced]
  cases selected : cpu.ex2mem.regsWriteSource with
  | aluResult | csr | nextInstructionAddress => rfl
  | memory =>
    have load := accessing.control.source.mp selected
    obtain none | running := ready
    · rw [load] at none
      exact Bool.noConfusion none
    · obtain ⟨state, valid⟩ := load_finishes accessing load running
      have completes : MemoryAccess.readCompletes cpu.mem io.bus = true := by
        rw [MemoryAccess.readCompletes, state]
        exact valid
      simp only [MemoryAccess.wbMemoryReadData, completes, if_true]

/-- WB gets the register write of the instruction in MEM. -/
theorem mem2wbInput_produced (running : memStall cpu io = false) :
    (mem2wbInput cpu io).regsWriteEnable = cpu.ex2mem.regsWriteEnable ∧
      (mem2wbInput cpu io).regsWriteAddress = cpu.ex2mem.regsWriteAddress ∧
      WriteBack.regsWriteData (mem2wbInput cpu io) = produced cpu io := by
  have idle := not_inActiveRead accessing (Or.inr running)
  refine ⟨?_, ?_, ?_⟩
  · rw [mem2wbInput, MemoryAccess.wbRegsWriteEnable, idle, if_neg Bool.false_ne_true]
  · rw [mem2wbInput, MemoryAccess.wbRegsWriteAddress, idle, if_neg Bool.false_ne_true]
  · rw [← forwardFromMem_produced accessing (Or.inr running), forwardFromMem,
      MemoryAccess.forwardToEx, WriteBack.regsWriteData]
    -- WB selects by the source that MEM hands over
    have source : (mem2wbInput cpu io).regsWriteSource =
        MemoryAccess.wbRegsWriteSource cpu.mem cpu.ex2mem io.bus := rfl
    rw [source]
    cases MemoryAccess.wbRegsWriteSource cpu.mem cpu.ex2mem io.bus <;> rfl

theorem idRegDataForwarded_drained (rs : RegAddr)
    (ready : cpu.ex2mem.memoryReadEnable = false ∨ memStall cpu io = false) :
    idRegDataForwarded cpu io rs = (drained cpu io).get rs :=
  mux_drained (fun _ => regsReadData_eq) fun _ => forwardFromMem_produced accessing ready

end Access

/-! ## The comparator of ID -/

section Comparator

variable {cpu io}

/-- A branch or jump that may resolve reads no register of the instruction in EX or of a load in
    MEM. -/
theorem branchHazard_false (ready : branchHazard cpu = false) (jump : isBranchOrJump cpu = true) :
    Control.names (ctrl cpu) cpu.id2ex.regsWriteAddress = false ∧
      (cpu.ex2mem.memoryReadEnable = true →
      Control.names (ctrl cpu) cpu.ex2mem.regsWriteAddress = false) := by
  have jumps : (ctrl cpu).jumpInstructionId = true := jump
  have rdEx : (ctrl cpu).rdEx = cpu.id2ex.regsWriteAddress := rfl
  have rdMem : (ctrl cpu).rdMem = cpu.ex2mem.regsWriteAddress := rfl
  have load : (ctrl cpu).memoryReadEnableMem = cpu.ex2mem.memoryReadEnable := rfl
  rw [branchHazard, Control.branchHazard, Control.hazard, Control.exHazardForBranch,
    Control.memHazardForBranch, jumps, rdEx, rdMem, load] at ready
  cases ex : Control.names (ctrl cpu) cpu.id2ex.regsWriteAddress with
  | true => simp [ex] at ready
  | false =>
    refine ⟨rfl, fun reads => ?_⟩
    cases mem : Control.names (ctrl cpu) cpu.ex2mem.regsWriteAddress with
    | true => simp [reads, mem] at ready
    | false => rfl

theorem not_names {rd rs : RegAddr} (unnamed : Control.names (ctrl cpu) rd = false)
    (source : rs = rs1Id cpu ∨ rs = rs2Id cpu) (nonzero : rs ≠ 0#5) : rs ≠ rd := by
  rintro rfl
  have first : (ctrl cpu).rs1Id = rs1Id cpu := rfl
  have second : (ctrl cpu).rs2Id = rs2Id cpu := rfl
  simp only [Control.names, first, second, Bool.and_eq_false_iff, Bool.or_eq_false_iff,
    decide_eq_false_iff_not]
    at unnamed
  obtain zero | ⟨notFirst, notSecond⟩ := unnamed
  · exact zero nonzero
  · obtain is | is := source
    · exact notFirst is
    · exact notSecond is

theorem comparator_drained (accessing : Accessing cpu) (ready : branchHazard cpu = false)
    (jump : isBranchOrJump cpu = true) {rs : RegAddr} {uses : Bool}
    (source : rs = rs1Id cpu ∨ rs = rs2Id cpu)
    (unused : uses = false → rs = 0#5) :
    InstructionDecode.forwarded uses (forwarding cpu rs) (regsReadData cpu rs) (regsWriteData cpu)
        (forwardFromMem cpu io) = (drained cpu io).get rs := by
  cases uses with
  | false => simp [InstructionDecode.forwarded, unused rfl, RegisterFile.get]
  | true =>
    have selected : ∀ data fromWb fromMem, InstructionDecode.forwarded true
        (forwarding cpu rs) data fromWb fromMem =
        Forwarding.mux (forwarding cpu rs) data fromMem fromWb := by
      intro data fromWb fromMem
      cases forwarding cpu rs <;> rfl
    rw [selected]
    refine mux_drained (fun _ => regsReadData_eq)
      fun fromMem => forwardFromMem_produced accessing (Or.inl ?_)
    -- A load that forwards is named by ID, and holds it.
    obtain ⟨_, _, target, nonzero⟩ | ⟨_, ⟨other, _⟩ | ⟨other, _⟩⟩ := forwarding_cases cpu rs
    · by_contra load
      exact not_names ((branchHazard_false ready jump).2
        (Bool.of_not_eq_false load)) source nonzero target
    · exact absurd (other.symm.trans fromMem) (by decide)
    · exact absurd (other.symm.trans fromMem) (by decide)

theorem idReg1Data_drained (accessing : Accessing cpu) (ready : branchHazard cpu = false)
    (jump : isBranchOrJump cpu = true) : idReg1Data cpu io = (drained cpu io).get (rs1Id cpu) :=
  comparator_drained accessing ready jump (Or.inl rfl) InstructionDecode.reg1_unused

theorem idReg2Data_drained (accessing : Accessing cpu) (ready : branchHazard cpu = false)
    (jump : isBranchOrJump cpu = true) : idReg2Data cpu io = (drained cpu io).get (rs2Id cpu) :=
  comparator_drained accessing ready jump (Or.inr rfl) InstructionDecode.reg2_unused

end Comparator

/-! ## EX -/

/-- The operand that ID captured is the register's, unless a stage behind forwards a newer one. -/
def Held (rs : RegAddr) (data : Word) : Prop :=
  forwarding cpu rs = .noForward → data = cpu.regs.get rs

/-- What EX and MEM keep in every run. -/
structure Bypassed : Prop extends Accessing cpu where
  exControl : LoadControl cpu.id2ex.regsWriteSource cpu.id2ex.memoryReadEnable cpu.id2ex.memoryWriteEnable
  operand1 : Held cpu cpu.id2ex.regsReg1ReadAddress cpu.id2ex.reg1Data
  operand2 : Held cpu cpu.id2ex.regsReg2ReadAddress cpu.id2ex.reg2Data

section Step

variable {cpu io} {predictions : Predictions}

theorem exOperand_drained (accessing : Accessing cpu) (running : memStall cpu io = false)
    {rs : RegAddr} {data : Word}
    (held : Held cpu rs data) :
    Forwarding.mux (forwarding cpu rs) data (forwardFromMem cpu io) (regsWriteData cpu) =
      (drained cpu io).get rs := by
  refine mux_drained (fun select => ?_) fun _ => forwardFromMem_produced accessing (Or.inr running)
  rw [held select, writtenBack, RegisterFile.get_write, if_neg (forwarding_noForward select)]

theorem step_regs : (stepWith predictions cpu io).regs = writtenBack cpu := rfl

theorem id2ex_next :
    (stepWith predictions cpu io).id2ex = ID2EX.bubble ∨
      (memStall cpu io = true ∧ (stepWith predictions cpu io).id2ex = cpu.id2ex) ∨
      memStall cpu io = false ∧ (stepWith predictions cpu io).id2ex = id2exInput cpu io := by
  simp only [stepWith]
  cases flush : id2exFlush cpu io with
  | true => exact .inl rfl
  | false =>
    cases stalled : memStall cpu io with
    | true => exact .inr (.inl ⟨rfl, rfl⟩)
    | false => exact .inr (.inr ⟨rfl, rfl⟩)

theorem held_stalled (stalled : memStall cpu io = true) {rs : RegAddr} {data : Word}
    (held : Held cpu rs data) :
    Held (stepWith predictions cpu io) rs data := by
  have ex2mem : (stepWith predictions cpu io).ex2mem = cpu.ex2mem := by
    simp only [stepWith, stalled, pipelineRegister_stall]
  have mem2wb : (stepWith predictions cpu io).mem2wb = cpu.mem2wb := by
    simp only [stepWith, stalled, pipelineRegister_stall]
  intro select
  rw [forwarding, ex2mem, mem2wb, ← forwarding] at select
  -- WB writes another register, or it would forward
  rw [held select, step_regs, writtenBack, RegisterFile.get_write,
    if_neg (forwarding_noForward select)]

theorem held_captured (accessing : Accessing cpu)
    (running : memStall cpu io = false) (rs : RegAddr) :
    Held (stepWith predictions cpu io) rs (idRegDataForwarded cpu io rs) := by
  intro select
  have wb : (stepWith predictions cpu io).mem2wb = mem2wbInput cpu io := by
    simp only [stepWith, running, pipelineRegister_capture]
  have unwritten := forwarding_noForward select
  obtain ⟨enable, address, _⟩ := mem2wbInput_produced accessing running
  rw [wb, enable, address] at unwritten
  rw [idRegDataForwarded_drained accessing rs (.inr running), drained,
    RegisterFile.get_write, if_neg unwritten, step_regs]

theorem bypassed_id2ex (accessing : Accessing (stepWith predictions cpu io))
    (bypassed : Bypassed cpu) :
    Bypassed (stepWith predictions cpu io) := by
  refine ⟨accessing, ?_, ?_, ?_⟩
  all_goals obtain bubble | ⟨stalled, kept⟩ | ⟨running, captured⟩ := @id2ex_next cpu io predictions
  · rw [bubble]
    exact ⟨by decide, fun load => Bool.noConfusion load⟩
  · rw [kept]
    exact bypassed.exControl
  · rw [captured]
    exact loadControl_decoded cpu.if2id.instruction
  · rw [bubble]
    exact fun _ => rfl
  · rw [kept]
    exact held_stalled stalled bypassed.operand1
  · rw [captured]
    exact held_captured bypassed.toAccessing running _
  · rw [bubble]
    exact fun _ => rfl
  · rw [kept]
    exact held_stalled stalled bypassed.operand2
  · rw [captured]
    exact held_captured bypassed.toAccessing running _

theorem accessing_step (bypassed : Bypassed cpu) : Accessing (stepWith predictions cpu io) := by
  cases stalled : memStall cpu io with
  | false =>
    have ex2mem : (stepWith predictions cpu io).ex2mem = ex2memInput cpu io := by
      simp only [stepWith, stalled, pipelineRegister_capture]
    have idle : (stepWith predictions cpu io).mem.memAccessState = .idle :=
      memAccessState_running cpu io stalled
    refine ⟨?_, fun reading => ?_, fun writing => ?_⟩
    · rw [ex2mem]
      exact bypassed.exControl
    · rw [idle] at reading
      cases reading
    · rw [idle] at writing
      cases writing
  | true =>
    have ex2mem : (stepWith predictions cpu io).ex2mem = cpu.ex2mem := by
      simp only [stepWith, stalled, pipelineRegister_stall]
    refine ⟨?_, fun reading => ?_, fun writing => ?_⟩
    · rw [ex2mem]
      exact bypassed.control
    · rw [ex2mem]
      exact (MemoryAccess.nextState_read reading).elim bypassed.reading fun load => load
    · rw [ex2mem]
      exact (MemoryAccess.nextState_write writing).elim bypassed.writing fun store => store

theorem bypassed_step (bypassed : Bypassed cpu) : Bypassed (stepWith predictions cpu io) :=
  bypassed_id2ex (accessing_step bypassed) bypassed

end Step

/-! ## The run -/

section Run

variable (contents : PowerUp) (inputs : ℕ → Inputs)

theorem bypassed_powerUp : Bypassed (powerUp contents) := by
  have control : LoadControl .aluResult false false :=
    ⟨by decide, fun load => Bool.noConfusion load⟩
  have accessing : Accessing (powerUp contents) := ⟨control, (nomatch ·), (nomatch ·)⟩
  exact ⟨accessing, control, fun _ => rfl, fun _ => rfl⟩

theorem bypassed_always (n : ℕ) : Bypassed (stateAt contents inputs n) :=
  Clocked.invariant_always (bypassed_powerUp contents) (fun _ _ => bypassed_step) n

/-- The operands of an instruction that leaves EX are the registers after the writes of WB and
    MEM. -/
theorem operands_current (n : ℕ)
    (leaves : memStall (stateAt contents inputs n) (inputs n) = false) :
    exReg1Data (stateAt contents inputs n) (inputs n) =
        (drained (stateAt contents inputs n) (inputs n)).get
          (stateAt contents inputs n).id2ex.regsReg1ReadAddress ∧
      exReg2Data (stateAt contents inputs n) (inputs n) =
        (drained (stateAt contents inputs n) (inputs n)).get
          (stateAt contents inputs n).id2ex.regsReg2ReadAddress := by
  have bypassed := bypassed_always contents inputs n
  exact ⟨exOperand_drained bypassed.toAccessing leaves bypassed.operand1,
    exOperand_drained bypassed.toAccessing leaves bypassed.operand2⟩

/-- `lw x1, 0(x0)`, to which the bus answers 5, `addi x1, x1, 1` and `add x2, x1, x1`, for which
    fetch waits. -/
def sumInputs (n : ℕ) : Inputs :=
  { Inputs.script [0x00002083#32, 0x00108093#32, 0x00108133#32, 0x00108133#32, 0x00108133#32] n with
    bus := ⟨5#32, true, true, true⟩ }

/-- The sum has read 5 from the registers, and leaves EX with the 6 that is still in MEM. -/
theorem operands_current_sum :
    (stateAt .zero sumInputs 6).id2ex.reg1Data = 5#32 ∧
      exReg1Data (stateAt .zero sumInputs 6) (sumInputs 6) = 6#32 ∧
      exReg1Data (stateAt .zero sumInputs 6) (sumInputs 6) =
        (drained (stateAt .zero sumInputs 6) (sumInputs 6)).get
          (stateAt .zero sumInputs 6).id2ex.regsReg1ReadAddress ∧
      exReg2Data (stateAt .zero sumInputs 6) (sumInputs 6) =
        (drained (stateAt .zero sumInputs 6) (sumInputs 6)).get
          (stateAt .zero sumInputs 6).id2ex.regsReg2ReadAddress := by
  have leaves : memStall (stateAt .zero sumInputs 6) (sumInputs 6) = false := by decide +kernel
  exact ⟨by decide +kernel, by decide +kernel, operands_current .zero sumInputs 6 leaves⟩

end Run

end PipelinedCPU

end MyCpu
