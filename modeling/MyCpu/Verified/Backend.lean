import MyCpu.Verified.Bypass
import MyCpu.Verified.Execution

/-! # The stages behind ID

The instructions in WB, MEM and EX are drained in order to the state after them:
`afterWb`, `afterMem` and `afterEx`.  The bypass network reads its operands from
these states, a memory stall leaves them alone, and an edge that moves the pipeline
makes `afterEx` the new `afterMem`. -/

namespace MyCpu.System

open Rv32im (Event)

variable (program : Rv32im.Program) (predictions : Predictions)
    (system : System) (stimulus : Stimulus)

/-! ## Draining -/

def wbData : Word := WriteBack.regsWriteData system.cpu.mem2wb

def afterWb : ArchState where
  regs := RegisterFile.write system.cpu.regs system.cpu.mem2wb.regsWriteEnable system.cpu.mem2wb.regsWriteAddress
    (wbData system)
  memory := system.dataMemory

def afterMem : ArchState := system.cpu.ex2mem.apply (afterWb system)

/-- What EX hands to MEM when the instruction in MEM has finished. -/
def executing : EX2MEM := system.cpu.id2ex.executed (afterMem system).regs

def afterEx : ArchState := (executing system).apply (afterMem system)

/-- The effects of the instruction in MEM that are still to come. -/
def memEvents : List Event :=
  if system.mem = .instruction then
    (if system.cpu.mem.memAccessState = .write then [] else system.cpu.ex2mem.storeEvents) ++
      [system.cpu.ex2mem.retireEvent system.dataMemory]
  else []

def exEvents : List Event :=
  if system.ex = .instruction then
    (executing system).storeEvents ++ [(executing system).retireEvent (afterMem system).memory]
  else []

/-! ## What the back of the pipeline keeps -/

/-- The operand that ID captured is the register's, unless a stage behind forwards a newer one. -/
def OperandHeld (rs : RegAddr) (data : Word) : Prop :=
  PipelinedCPU.forwarding system.cpu rs = .noForward → data = system.cpu.regs.get rs

/-- What EX and MEM keep, whatever the instructions do to the CSR file. -/
structure Steady : Prop where
  exControl : LoadControl system.cpu.id2ex.regsWriteSource system.cpu.id2ex.memoryReadEnable
    system.cpu.id2ex.memoryWriteEnable
  memControl : LoadControl system.cpu.ex2mem.regsWriteSource system.cpu.ex2mem.memoryReadEnable
    system.cpu.ex2mem.memoryWriteEnable
  operand1 : OperandHeld system system.cpu.id2ex.regsReg1ReadAddress system.cpu.id2ex.reg1Data
  operand2 : OperandHeld system system.cpu.id2ex.regsReg2ReadAddress system.cpu.id2ex.reg2Data
  reading : system.cpu.mem.memAccessState = .read → system.cpu.ex2mem.memoryReadEnable = true
  writing : system.cpu.mem.memAccessState = .write →
    system.cpu.ex2mem.memoryWriteEnable = true ∧
    system.cpu.ex2mem.nextMemory system.dataMemory = system.dataMemory
  exAccess : system.ex ≠ .instruction →
    system.cpu.id2ex.memoryReadEnable = false ∧ system.cpu.id2ex.memoryWriteEnable = false
  memAccess : system.mem ≠ .instruction →
    system.cpu.ex2mem.memoryReadEnable = false ∧ system.cpu.ex2mem.memoryWriteEnable = false
  exPassive : system.ex.passive = true → system.cpu.id2ex.regsWriteAddress = 0#5

structure Settled : Prop extends Steady system where
  noCsrWrite : system.cpu.id2ex.csrWriteEnable = false

theorem Steady.accessing {system : System} (steady : Steady system) :
    PipelinedCPU.Accessing system.cpu :=
  ⟨steady.memControl, steady.reading, fun writing => (steady.writing writing).1⟩

/-! ## Operands -/

section Operands

variable {program system stimulus}

theorem produced_eq : PipelinedCPU.produced system.cpu (inputs program system stimulus) =
    system.cpu.ex2mem.value system.dataMemory := by
  rw [PipelinedCPU.produced, EX2MEM.value]
  cases system.cpu.ex2mem.regsWriteSource <;> rfl

theorem drained_eq : PipelinedCPU.drained system.cpu (inputs program system stimulus) =
    (afterMem system).regs := by
  rw [PipelinedCPU.drained, produced_eq]
  rfl

variable (steady : Steady system)

include steady

theorem exOperand_afterMem (running : memStall program system stimulus = false)
    {rs : RegAddr} {data : Word}
    (held : OperandHeld system rs data) :
    Forwarding.mux (PipelinedCPU.forwarding system.cpu rs) data
        (PipelinedCPU.forwardFromMem system.cpu (inputs program system stimulus)) (wbData system) =
      (afterMem system).regs.get rs := by
  rw [← @drained_eq program system stimulus]
  exact PipelinedCPU.exOperand_drained steady.accessing running held

theorem ex2memInput_executing (running : memStall program system stimulus = false) :
    PipelinedCPU.ex2memInput system.cpu (inputs program system stimulus) = executing system := by
  have operand1 : PipelinedCPU.exReg1Data system.cpu (inputs program system stimulus) =
      (afterMem system).regs.get system.cpu.id2ex.regsReg1ReadAddress :=
    exOperand_afterMem steady running steady.operand1
  have operand2 : PipelinedCPU.exReg2Data system.cpu (inputs program system stimulus) =
      (afterMem system).regs.get system.cpu.id2ex.regsReg2ReadAddress :=
    exOperand_afterMem steady running steady.operand2
  rw [ex2memInput_eq, operand1, operand2, executing, ID2EX.executed]

theorem mem2wbInput_eq (running : memStall program system stimulus = false) :
    let wb := PipelinedCPU.mem2wbInput system.cpu (inputs program system stimulus)
    wb.regsWriteEnable = system.cpu.ex2mem.regsWriteEnable ∧
      wb.regsWriteAddress = system.cpu.ex2mem.regsWriteAddress ∧
      WriteBack.regsWriteData wb = system.cpu.ex2mem.value system.dataMemory := by
  have wb := PipelinedCPU.mem2wbInput_produced steady.accessing running
  rwa [produced_eq] at wb

end Operands

/-! ## A cycle in which MEM waits -/

section Stalled

variable {program predictions system stimulus}

theorem nextMemory_twice (io : EX2MEM) (memory : Rv32im.Memory) :
    io.nextMemory (io.nextMemory memory) = io.nextMemory memory := by
  rw [EX2MEM.nextMemory, EX2MEM.nextMemory]
  cases io.store with
  | none => rfl
  | some write => exact writeWord_twice memory write.address write.data write.strobe

/-- The bus is granted the write of a store, which no other state of MEM starts. -/
theorem writeGranted_store (granted : writeGranted system stimulus = true) :
    system.cpu.mem.memAccessState = .idle ∧ system.cpu.ex2mem.memoryReadEnable = false ∧
      system.cpu.ex2mem.memoryWriteEnable = true ∧ stimulus.granted = true := by
  simp only [writeGranted, PipelinedCPU.bus, MemoryAccess.busOutputs,
    MemoryAccess.startsWrite, Bool.and_eq_true, Bool.not_eq_true', decide_eq_true_eq] at granted
  exact ⟨granted.1.1.1, granted.1.1.2, granted.1.2, granted.2⟩

/-- A granted write is the bus write of the store in MEM. -/
theorem bus_store (granted : writeGranted system stimulus = true) :
    system.cpu.ex2mem.store = some
      ⟨(PipelinedCPU.bus system.cpu).address, (PipelinedCPU.bus system.cpu).writeData,
      (PipelinedCPU.bus system.cpu).writeStrobe⟩ := by
  obtain ⟨idle, noLoad, store, _⟩ := writeGranted_store granted
  have starts : MemoryAccess.startsWrite system.cpu.mem system.cpu.ex2mem = true := by
    simp [MemoryAccess.startsWrite, idle, noLoad, store]
  simp only [EX2MEM.store, store, if_true, PipelinedCPU.bus, MemoryAccess.busOutputs, starts]

theorem nextMemory_granted (granted : writeGranted system stimulus = true) :
    nextMemory system stimulus = system.cpu.ex2mem.nextMemory system.dataMemory := by
  rw [nextMemory, if_pos granted, EX2MEM.nextMemory, bus_store granted]

theorem nextMemory_notGranted (notGranted : writeGranted system stimulus = false) :
    nextMemory system stimulus = system.dataMemory := by
  rw [nextMemory, notGranted, if_neg Bool.false_ne_true]

/-- The write of a store is seen by nobody before the store has finished. -/
theorem memory_settles :
    system.cpu.ex2mem.nextMemory (nextMemory system stimulus) =
      system.cpu.ex2mem.nextMemory system.dataMemory := by
  cases granted : writeGranted system stimulus with
  | true => rw [nextMemory_granted granted, nextMemory_twice]
  | false => rw [nextMemory_notGranted granted]

theorem value_settles (steady : Steady system) :
    system.cpu.ex2mem.value (nextMemory system stimulus) =
      system.cpu.ex2mem.value system.dataMemory := by
  cases granted : writeGranted system stimulus with
  | false => rw [nextMemory_notGranted granted]
  | true =>
    obtain ⟨_, noLoad, _, _⟩ := writeGranted_store granted
    -- A store does not take a value from memory.
    have source : system.cpu.ex2mem.regsWriteSource ≠ .memory := by
      intro memory
      rw [steady.memControl.source.mp memory] at noLoad
      exact Bool.noConfusion noLoad
    rw [EX2MEM.value, EX2MEM.value]
    cases selected : system.cpu.ex2mem.regsWriteSource with
    | memory => exact absurd selected source
    | aluResult | csr | nextInstructionAddress => rfl

theorem write_twice (regs : RegisterFile) (enabled : Bool) (target : RegAddr) (data : Word) :
    RegisterFile.write (RegisterFile.write regs enabled target data) enabled target data =
      RegisterFile.write regs enabled target data := by
  funext address
  simp only [RegisterFile.write]
  split_ifs <;> rfl

theorem afterWb_stalled (stalled : memStall program system stimulus = true) :
    afterWb (stepWith program predictions system stimulus) =
      { regs := (afterWb system).regs, memory := nextMemory system stimulus } := by
  -- the register write of WB is repeated while MEM waits, and the bus may take the store
  have waits : PipelinedCPU.memStall system.cpu (inputs program system stimulus) = true := stalled
  have wb : (stepWith program predictions system stimulus).cpu.mem2wb = system.cpu.mem2wb := by
    simp only [stepWith, PipelinedCPU.stepWith, waits, pipelineRegister_stall]
  have again : (afterWb (stepWith program predictions system stimulus)).regs =
      RegisterFile.write
        (afterWb system).regs system.cpu.mem2wb.regsWriteEnable system.cpu.mem2wb.regsWriteAddress
        (wbData system) := by
    simp only [afterWb, wbData, wb]
    rfl
  exact congrArg (fun regs => ArchState.mk regs (nextMemory system stimulus))
    (again.trans (write_twice _ _ _ _))

variable (predictions) in
theorem ex2mem_stalled (stalled : memStall program system stimulus = true) :
    (stepWith program predictions system stimulus).cpu.ex2mem = system.cpu.ex2mem := by
  have waits : PipelinedCPU.memStall system.cpu (inputs program system stimulus) = true := stalled
  simp only [stepWith, PipelinedCPU.stepWith, waits, pipelineRegister_stall]

theorem afterMem_stalled (steady : Steady system)
    (stalled : memStall program system stimulus = true) :
    afterMem (stepWith program predictions system stimulus) = afterMem system := by
  have memory : (afterWb system).memory = system.dataMemory := rfl
  rw [afterMem, afterMem, ex2mem_stalled predictions stalled, afterWb_stalled stalled,
    EX2MEM.apply, EX2MEM.apply, memory]
  simp only [value_settles steady, memory_settles]

variable (predictions) in
theorem id2ex_flushed
    (flush : PipelinedCPU.id2exFlush system.cpu (inputs program system stimulus) = true) :
    (stepWith program predictions system stimulus).cpu.id2ex = ID2EX.bubble ∧
      (stepWith program predictions system stimulus).ex = .bubble := by
  constructor
  · simp only [stepWith, PipelinedCPU.stepWith, flush, pipelineRegister_flush]
  · simp only [stepWith, flush, pipelineRegister_flush]

variable (predictions) in
theorem id2ex_stalled (stalled : memStall program system stimulus = true) :
    (PipelinedCPU.id2exFlush system.cpu (inputs program system stimulus) = true ∧
        (stepWith program predictions system stimulus).cpu.id2ex = ID2EX.bubble ∧
        (stepWith program predictions system stimulus).ex = .bubble) ∨
      ((stepWith program predictions system stimulus).cpu.id2ex = system.cpu.id2ex ∧
        (stepWith program predictions system stimulus).ex = system.ex) := by
  -- a stage boundary behind ID that is flushed in a cycle of waiting, or kept
  have waits : PipelinedCPU.memStall system.cpu (inputs program system stimulus) = true := stalled
  cases flush : PipelinedCPU.id2exFlush system.cpu (inputs program system stimulus) with
  | true => exact .inl ⟨rfl, id2ex_flushed predictions flush⟩
  | false =>
    refine Or.inr ⟨?_, ?_⟩
    · simp only [stepWith, PipelinedCPU.stepWith, waits, flush, pipelineRegister_stall]
    · simp only [stepWith, stalled, flush, pipelineRegister_stall]

/-- An instruction without a register write and without a store leaves the state as it is. -/
theorem apply_passive {io : EX2MEM} (target : io.regsWriteAddress = 0#5)
    (noStore : io.memoryWriteEnable = false)
    (state : ArchState) : io.apply state = state := by
  have store : io.store = none := by rw [EX2MEM.store, noStore, if_neg Bool.false_ne_true]
  have regs : RegisterFile.write state.regs io.regsWriteEnable io.regsWriteAddress
      (io.value state.memory) =
      state.regs := by
    funext r
    simp [RegisterFile.write, target]
  rw [EX2MEM.apply, regs, EX2MEM.nextMemory, store]

theorem afterEx_passive (steady : Steady system) (passive : system.ex.passive = true) :
    afterEx system = afterMem system := by
  -- what passes through EX without an instruction of the program does nothing
  have notProgram : system.ex ≠ .instruction := by
    intro program
    rw [program] at passive
    exact Bool.noConfusion passive
  exact apply_passive (steady.exPassive passive) (steady.exAccess notProgram).2 _

variable (predictions) in
theorem afterEx_stalled (steady : Steady system)
    (stalled : memStall program system stimulus = true) :
    afterEx (stepWith program predictions system stimulus) = afterEx system ∨
      (PipelinedCPU.id2exFlush system.cpu (inputs program system stimulus) = true ∧
        afterEx (stepWith program predictions system stimulus) = afterMem system) := by
  -- EX is kept in a cycle of waiting, or loses what it holds
  obtain ⟨flush, bubble, _⟩ | ⟨held, _⟩ := id2ex_stalled predictions stalled
  · refine Or.inr ⟨flush, ?_⟩
    rw [afterEx, executing, bubble, afterMem_stalled steady stalled]
    exact apply_passive rfl rfl _
  · refine Or.inl ?_
    rw [afterEx, afterEx, executing, executing, held, afterMem_stalled steady stalled]

theorem exEvents_stalled (steady : Steady system)
    (stalled : memStall program system stimulus = true)
    (flushed : PipelinedCPU.id2exFlush system.cpu (inputs program system stimulus) = true →
      system.ex ≠ .instruction) :
    exEvents (stepWith program predictions system stimulus) = exEvents system := by
  obtain ⟨flush, _, bubble⟩ | ⟨held, occupant⟩ := id2ex_stalled predictions stalled
  · rw [exEvents, exEvents, bubble, if_neg (by decide), if_neg (flushed flush)]
  · rw [exEvents, exEvents, executing, executing, held, occupant, afterMem_stalled steady stalled]

variable (predictions) in
theorem write_stalled (stalled : memStall program system stimulus = true) :
    (stepWith program predictions system stimulus).cpu.mem.memAccessState = .write ↔
      system.cpu.mem.memAccessState = .write ∨ writeGranted system stimulus = true := by
  -- MEM reaches the write state by the grant of its store, and stays there while it waits
  have state : (stepWith program predictions system stimulus).cpu.mem.memAccessState =
      MemoryAccess.nextState system.cpu.mem system.cpu.ex2mem
        (inputs program system stimulus).bus := rfl
  have valid : (inputs program system stimulus).bus.writeValid = stimulus.writeValid := rfl
  have granted : (inputs program system stimulus).bus.granted = stimulus.granted := rfl
  rw [memStall, PipelinedCPU.memStall, MemoryAccess.ctrlStallFlag] at stalled
  rw [state, MemoryAccess.nextState, writeGranted, PipelinedCPU.bus, MemoryAccess.busOutputs,
    MemoryAccess.startsWrite]
  cases current : system.cpu.mem.memAccessState with
  | read =>
    cases (inputs program system stimulus).bus.readValid <;> simp
  | write =>
    rw [current] at stalled
    simp [(Bool.not_eq_true' _).mp stalled]
  | idle =>
    rw [granted]
    cases system.cpu.ex2mem.memoryReadEnable <;> cases system.cpu.ex2mem.memoryWriteEnable <;>
      cases stimulus.granted <;> simp

variable (program predictions stimulus) in
theorem read_stalled (steady : Steady system)
    (reading : (stepWith program predictions system stimulus).cpu.mem.memAccessState = .read) :
    system.cpu.ex2mem.memoryReadEnable = true := by
  exact (MemoryAccess.nextState_read reading).elim steady.reading fun load => load

variable (predictions) in
theorem memEvents_stalled (steady : Steady system)
    (stalled : memStall program system stimulus = true) :
    memEvents system = emit program system stimulus ++ memEvents
      (stepWith program predictions system stimulus) := by
  -- in a cycle of waiting the log takes exactly the bus write that is granted
  have occupant : (stepWith program predictions system stimulus).mem = system.mem := by
    simp only [stepWith, stalled, pipelineRegister_stall]
  have retire : system.cpu.ex2mem.retireEvent (nextMemory system stimulus) =
      system.cpu.ex2mem.retireEvent system.dataMemory := by
    rw [EX2MEM.retireEvent, EX2MEM.retireEvent, EX2MEM.regWrite,
      EX2MEM.regWrite, value_settles steady]
  have memory : (stepWith program predictions system stimulus).dataMemory =
      nextMemory system stimulus := rfl
  have writes := write_stalled predictions stalled
  rw [memEvents, memEvents, emit, occupant, ex2mem_stalled predictions stalled,
    memory, retire, stalled]
  cases granted : writeGranted system stimulus with
  | false =>
    simp only [granted, Bool.false_eq_true, or_false] at writes
    simp only [writes, Bool.false_eq_true, if_false, Bool.not_true, false_and,
      List.append_nil, List.nil_append]
  | true =>
    obtain ⟨idle, _, store, _⟩ := writeGranted_store granted
    -- Only a store of the program can be granted.
    have program : system.mem = .instruction := by
      by_contra other
      rw [(steady.memAccess other).2] at store
      exact Bool.noConfusion store
    have writing := writes.mpr (Or.inr granted)
    rw [if_pos program, if_pos program, writing, idle, EX2MEM.storeEvents, bus_store granted]
    simp

theorem steady_bubble (bubble : system.cpu.id2ex = ID2EX.bubble)
    (memControl : LoadControl system.cpu.ex2mem.regsWriteSource system.cpu.ex2mem.memoryReadEnable
      system.cpu.ex2mem.memoryWriteEnable)
    (reading : system.cpu.mem.memAccessState = .read → system.cpu.ex2mem.memoryReadEnable = true)
    (writing : system.cpu.mem.memAccessState = .write → system.cpu.ex2mem.memoryWriteEnable = true ∧
      system.cpu.ex2mem.nextMemory system.dataMemory = system.dataMemory)
    (memAccess : system.mem ≠ .instruction →
      system.cpu.ex2mem.memoryReadEnable = false ∧
      system.cpu.ex2mem.memoryWriteEnable = false) : Steady system := by
  -- an empty EX asks nothing of the stages behind it
  refine ⟨?_, memControl, ?_, ?_, reading, writing, ?_, memAccess, ?_⟩
  all_goals rw [bubble]
  · exact ⟨by decide, fun load => Bool.noConfusion load⟩
  · exact fun _ => rfl
  · exact fun _ => rfl
  · exact fun _ => ⟨rfl, rfl⟩
  · exact fun _ => rfl

theorem operandHeld_stalled (stalled : memStall program system stimulus = true)
    {rs : RegAddr} {data : Word}
    (held : OperandHeld system rs data) :
    OperandHeld (stepWith program predictions system stimulus) rs data :=
  PipelinedCPU.held_stalled stalled held

theorem steady_stalled (steady : Steady system)
    (stalled : memStall program system stimulus = true) :
    Steady (stepWith program predictions system stimulus) := by
  have memory : (stepWith program predictions system stimulus).dataMemory =
      nextMemory system stimulus := rfl
  have occupant : (stepWith program predictions system stimulus).mem = system.mem := by
    simp only [stepWith, stalled, pipelineRegister_stall]
  have reading := read_stalled program predictions stimulus steady
  have writing : (stepWith program predictions system stimulus).cpu.mem.memAccessState = .write →
      system.cpu.ex2mem.memoryWriteEnable = true ∧
        system.cpu.ex2mem.nextMemory (nextMemory system stimulus) = nextMemory system stimulus := by
    intro state
    -- a store that waits in `Write` has been granted before, and one that is granted now writes its
    -- word
    obtain already | granted := (write_stalled predictions stalled).mp state
    · have notGranted : writeGranted system stimulus = false := by
        by_contra granted
        rw [(writeGranted_store (Bool.of_not_eq_false granted)).1] at already
        exact MemoryAccessStates.noConfusion already
      rw [nextMemory_notGranted notGranted]
      exact steady.writing already
    · rw [nextMemory_granted granted, nextMemory_twice]
      exact ⟨(writeGranted_store granted).2.2.1, rfl⟩
  rw [← ex2mem_stalled predictions stalled] at reading writing
  have memControl := steady.memControl
  have memAccess := steady.memAccess
  rw [← ex2mem_stalled predictions stalled] at memControl memAccess
  rw [← occupant] at memAccess
  obtain ⟨_, bubble, _⟩ | ⟨held, kept⟩ := id2ex_stalled predictions stalled
  · exact steady_bubble bubble memControl reading writing memAccess
  · refine ⟨?_, memControl, ?_, ?_, reading, writing, ?_, memAccess, ?_⟩
    all_goals rw [held]
    · exact steady.exControl
    · exact operandHeld_stalled stalled steady.operand1
    · exact operandHeld_stalled stalled steady.operand2
    · rw [kept]
      exact steady.exAccess
    · rw [kept]
      exact steady.exPassive

theorem settled_stalled (settled : Settled system)
    (stalled : memStall program system stimulus = true) :
    Settled (stepWith program predictions system stimulus) := by
  refine ⟨steady_stalled settled.toSteady stalled, ?_⟩
  obtain ⟨_, bubble, _⟩ | ⟨held, _⟩ := id2ex_stalled predictions stalled
  · rw [bubble]
    rfl
  · rw [held]
    exact settled.noCsrWrite

end Stalled

/-! ## A cycle in which the pipeline moves -/

section Running

variable {program predictions system stimulus}

theorem nextMemory_finished (steady : Steady system)
    (running : memStall program system stimulus = false) :
    nextMemory system stimulus = system.dataMemory ∧
      system.cpu.ex2mem.nextMemory system.dataMemory = system.dataMemory := by
  -- a finished store has already reached the memory
  cases store : system.cpu.ex2mem.memoryWriteEnable with
  | true =>
    have state := PipelinedCPU.store_finishes steady.accessing store running
    refine ⟨nextMemory_notGranted ?_, (steady.writing state).2⟩
    by_contra granted
    rw [(writeGranted_store (Bool.of_not_eq_false granted)).1] at state
    exact MemoryAccessStates.noConfusion state
  | false =>
    refine ⟨nextMemory_notGranted ?_, ?_⟩
    · by_contra granted
      rw [(writeGranted_store (Bool.of_not_eq_false granted)).2.2.1] at store
      exact Bool.noConfusion store
    · rw [EX2MEM.nextMemory, EX2MEM.store, store, if_neg Bool.false_ne_true]

theorem afterWb_running (steady : Steady system)
    (running : memStall program system stimulus = false) :
    afterWb (stepWith program predictions system stimulus) = afterMem system := by
  have moves : PipelinedCPU.memStall system.cpu (inputs program system stimulus) = false := running
  have wb : (stepWith program predictions system stimulus).cpu.mem2wb =
      PipelinedCPU.mem2wbInput system.cpu (inputs program system stimulus) := by
    simp only [stepWith, PipelinedCPU.stepWith, moves, pipelineRegister_capture]
  obtain ⟨enable, address, data⟩ := mem2wbInput_eq steady running
  obtain ⟨kept, finished⟩ := nextMemory_finished steady running
  have memory : (stepWith program predictions system stimulus).dataMemory =
      system.dataMemory := kept
  have regs : (stepWith program predictions system stimulus).cpu.regs = (afterWb system).regs := rfl
  have drained : (afterWb system).memory = system.dataMemory := rfl
  rw [afterMem, EX2MEM.apply, afterWb, wbData, wb, enable, address, data, memory,
    regs, drained, finished]

variable (predictions) in
theorem ex2mem_running (steady : Steady system)
    (running : memStall program system stimulus = false) :
    (stepWith program predictions system stimulus).cpu.ex2mem = executing system := by
  have moves : PipelinedCPU.memStall system.cpu (inputs program system stimulus) = false := running
  rw [← ex2memInput_executing steady running]
  simp only [stepWith, PipelinedCPU.stepWith, moves, pipelineRegister_capture]

theorem afterMem_running (steady : Steady system)
    (running : memStall program system stimulus = false) :
    afterMem (stepWith program predictions system stimulus) = afterEx system := by
  rw [afterMem, afterWb_running steady running, ex2mem_running predictions steady running, afterEx]

theorem memEvents_running (steady : Steady system)
    (running : memStall program system stimulus = false) :
    memEvents system = emit program system stimulus := by
  -- a cycle that moves the pipeline logs what is left of the instruction in MEM
  have notGranted : writeGranted system stimulus = false := by
    by_contra granted
    have store := (writeGranted_store (Bool.of_not_eq_false granted)).2.2.1
    have state := PipelinedCPU.store_finishes steady.accessing store running
    rw [(writeGranted_store (Bool.of_not_eq_false granted)).1] at state
    exact MemoryAccessStates.noConfusion state
  have store : (if system.cpu.mem.memAccessState = .write then []
      else system.cpu.ex2mem.storeEvents) = [] := by
    cases enabled : system.cpu.ex2mem.memoryWriteEnable with
    | true => rw [if_pos (PipelinedCPU.store_finishes steady.accessing enabled running)]
    | false => simp [EX2MEM.storeEvents, EX2MEM.store, enabled]
  obtain ⟨enable, address, data⟩ := mem2wbInput_eq steady running
  have retires : regWrite program system stimulus =
      system.cpu.ex2mem.regWrite system.dataMemory := by
    simp only [regWrite, EX2MEM.regWrite, enable, address, data]
  rw [memEvents, emit, store, notGranted, running, retires]
  by_cases program : system.mem = .instruction
  · rw [if_pos program, if_neg Bool.false_ne_true, if_pos ⟨rfl, program⟩]
    rfl
  · rw [if_neg program, if_neg Bool.false_ne_true, if_neg fun both => program both.2]
    rfl

variable (predictions) in
theorem memAccessState_moved (running : memStall program system stimulus = false) :
    (stepWith program predictions system stimulus).cpu.mem.memAccessState = .idle :=
  PipelinedCPU.memAccessState_running system.cpu (inputs program system stimulus) running

theorem exEvents_running (steady : Steady system)
    (running : memStall program system stimulus = false) :
    memEvents (stepWith program predictions system stimulus) = exEvents system := by
  have occupant : (stepWith program predictions system stimulus).mem = system.ex := by
    simp only [stepWith, running, pipelineRegister_capture]
  obtain ⟨kept, finished⟩ := nextMemory_finished steady running
  have memory : (stepWith program predictions system stimulus).dataMemory =
      (afterMem system).memory :=
    kept.trans finished.symm
  rw [memEvents, exEvents, occupant, memAccessState_moved predictions running,
    ex2mem_running predictions steady running, memory,
    if_neg (show ¬ MemoryAccessStates.idle = .write by decide)]

/-- What ID may hand to EX. -/
structure Passable (system : System) : Prop where
  access : issues system ≠ .instruction →
    InstructionDecode.exMemoryReadEnable system.cpu.if2id.instruction = false ∧
      InstructionDecode.exMemoryWriteEnable system.cpu.if2id.instruction = false
  passive : (issues system).passive = true →
    InstructionDecode.exRegWriteAddress system.cpu.if2id.instruction = 0#5

structure Issuable (system : System) : Prop extends Passable system where
  noCsrWrite : InstructionDecode.exCsrWriteEnable system.cpu.if2id.instruction = false

variable (predictions) in
theorem id2ex_running (running : memStall program system stimulus = false) :
    (PipelinedCPU.id2exFlush system.cpu (inputs program system stimulus) = true ∧
        (stepWith program predictions system stimulus).cpu.id2ex = ID2EX.bubble ∧
        (stepWith program predictions system stimulus).ex = .bubble) ∨
      (PipelinedCPU.id2exFlush system.cpu (inputs program system stimulus) = false ∧
        (stepWith program predictions system stimulus).cpu.id2ex =
          PipelinedCPU.id2exInput system.cpu (inputs program system stimulus) ∧
        (stepWith program predictions system stimulus).ex = issues system) := by
  have moves : PipelinedCPU.memStall system.cpu (inputs program system stimulus) = false := running
  cases flush : PipelinedCPU.id2exFlush system.cpu (inputs program system stimulus) with
  | true => exact .inl ⟨rfl, id2ex_flushed predictions flush⟩
  | false =>
    refine Or.inr ⟨rfl, ?_, ?_⟩
    · simp only [stepWith, PipelinedCPU.stepWith, moves, flush, pipelineRegister_capture]
    · simp only [stepWith, running, flush, pipelineRegister_capture]

theorem operandHeld_captured (steady : Steady system)
    (running : memStall program system stimulus = false)
    (rs : RegAddr) :
    OperandHeld (stepWith program predictions system stimulus) rs
      (PipelinedCPU.idRegDataForwarded system.cpu (inputs program system stimulus) rs) :=
  PipelinedCPU.held_captured steady.accessing running rs

theorem steady_running (steady : Steady system) (running : memStall program system stimulus = false)
    (passable : Passable system) : Steady (stepWith program predictions system stimulus) := by
  have state := memAccessState_moved predictions running
  have occupant : (stepWith program predictions system stimulus).mem = system.ex := by
    simp only [stepWith, running, pipelineRegister_capture]
  have memControl : LoadControl (executing system).regsWriteSource
      (executing system).memoryReadEnable
      (executing system).memoryWriteEnable := steady.exControl
  have memAccess : system.ex ≠ .instruction →
      (executing system).memoryReadEnable = false ∧
      (executing system).memoryWriteEnable = false := steady.exAccess
  rw [← ex2mem_running predictions steady running] at memControl memAccess
  rw [← occupant] at memAccess
  have reading : (stepWith program predictions system stimulus).cpu.mem.memAccessState ≠ .read := by
    rw [state]
    decide
  have writing : (stepWith program predictions system stimulus).cpu.mem.memAccessState ≠
      .write := by
    rw [state]
    decide
  obtain ⟨_, bubble, _⟩ | ⟨_, issued, taken⟩ := id2ex_running predictions running
  · exact steady_bubble bubble memControl (absurd · reading) (absurd · writing) memAccess
  · refine ⟨?_, memControl, ?_, ?_, (absurd · reading), (absurd · writing), ?_, memAccess, ?_⟩
    all_goals rw [issued]
    · exact loadControl_decoded system.cpu.if2id.instruction
    · exact operandHeld_captured steady running _
    · exact operandHeld_captured steady running _
    · rw [taken]
      exact passable.access
    · rw [taken]
      exact passable.passive

theorem settled_running (settled : Settled system)
    (running : memStall program system stimulus = false)
    (issuable : Issuable system) : Settled (stepWith program predictions system stimulus) := by
  refine ⟨steady_running settled.toSteady running issuable.toPassable, ?_⟩
  obtain ⟨_, bubble, _⟩ | ⟨_, issued, _⟩ := id2ex_running predictions running
  · rw [bubble]
    rfl
  · rw [issued]
    exact issuable.noCsrWrite

end Running

/-! ## The start -/

section Start

variable (setup : Setup) (hart : Rv32im.Hart)

theorem steady_start : Steady (start setup hart) :=
  steady_bubble rfl
    ⟨⟨fun memory => RegWriteSource.noConfusion memory, fun load => Bool.noConfusion load⟩,
      fun load => Bool.noConfusion load⟩
    (fun reading => MemoryAccessStates.noConfusion reading)
    (fun writing => MemoryAccessStates.noConfusion writing)
    fun _ => ⟨rfl, rfl⟩

theorem represents_start : Represents (afterEx (start setup hart)) hart fun _ => False := by
  rw [afterEx_passive (steady_start setup hart) rfl]
  refine ⟨rfl, fun r _ _ => ?_⟩
  simp [afterMem, afterWb, EX2MEM.apply, start, PipelinedCPU.reset, EX2MEM.reset,
    MEM2WB.reset, RegisterFile.write]

end Start

end MyCpu.System
