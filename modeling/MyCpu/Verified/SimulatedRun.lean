import MyCpu.Bus.Simulation
import MyCpu.Verified.BusDelivery
import MyCpu.Verified.ForwardProgress
import MyCpu.Verified.StoreThenLoad
import MyCpu.Verified.UnreadData

/-! # The simulated computer executes its image

The core, the wired bus and the memory of the simulator together are the pipeline
with an ideal data memory, whose bus delays are those of the wired bus: the ideal
memory takes a store when the master accepts it, the memory of the simulator when
the store has crossed the bus.  So the stores that reach the memory and the
peripherals are, in order, those of the sequential machine that executes the image,
and when no branch waits for its own copy all of them arrive. -/

namespace MyCpu

open Rv32im (Memory BusWrite Event)

/-! ## The two memories -/

namespace SimMemory

/-- The ideal memory holds the bytes of the simulator's, within its size. -/
def Agrees (memory : SimMemory) (data : Memory) : Prop :=
  ∀ address : Word, address.toNat / 4 < memory.mem.size → data address = memory.bytes address

variable {memory : SimMemory} {data : Memory}

theorem size_write (address val : Word) (strobe : BitVec 8) :
    (memory.write address val strobe).mem.size = memory.mem.size := by
  rw [write]
  split_ifs
  · rfl
  · exact Array.size_setIfInBounds

theorem write_outside {address : Word}
    (outside : ¬ address.toNat / 4 < memory.mem.size) (val : Word)
    (strobe : BitVec 8) : memory.write address val strobe = memory := by
  have behind : memory.mem.size ≤ (address >>> 2).toNat := by
    rw [index_toNat]
    exact Nat.le_of_not_lt outside
  rw [write, if_pos behind]

theorem wordAddress_aligned {address : Word} (aligned : address.toNat % 4 = 0) :
    wordAddress address = address := by
  apply BitVec.eq_of_toNat_eq
  rw [wordAddress_toNat]
  omega

theorem Agrees.read (agrees : memory.Agrees data) {address : Word} (aligned : address.toNat % 4 = 0)
    (inside : address.toNat / 4 < memory.mem.size) : System.readWord data address =
      memory.read address := by
  have place : ∀ k < 4, data (address + BitVec.ofNat 32 k) =
      memory.bytes (address + BitVec.ofNat 32 k) := by
    intro k low
    apply agrees
    have offset := wordAddress_offset address low
    rw [wordAddress_aligned aligned] at offset
    omega
  have first := place 0 (by decide)
  rw [BitVec.add_zero] at first
  rw [memory.read_bytes, wordAddress_aligned aligned, System.readWord, System.readWord,
    first, place 1 (by decide), place 2 (by decide), place 3 (by decide)]

theorem Agrees.write (agrees : memory.Agrees data) {address : Word}
    (aligned : address.toNat % 4 = 0) (val : Word)
    (strobe : Strobe) :
    (memory.write address val (strobe.zeroExtend 8)).Agrees
      (System.writeWord data address val strobe) := by
  intro target inside'
  rw [size_write] at inside'
  by_cases inside : address.toNat / 4 < memory.mem.size
  · rw [write_bytes memory address val strobe inside, wordAddress_aligned aligned,
      System.writeWord, System.writeWord, agrees target inside']
  · -- a store behind the end leaves both memories as they are within it
    have bound := address.isLt
    have bound' := target.isLt
    have far : ¬ (target - address).toNat < 4 := by
      rw [BitVec.toNat_sub]
      omega
    rw [write_outside inside, System.writeWord, if_neg fun both => far both.1]
    exact agrees target inside'

end SimMemory

/-! ## The access in flight -/

/-- The address of a finished access. -/
def BusAccess.address : BusAccess → Word
  | .read address _ => address
  | .write address _ _ => address

namespace BusPhase

/-- The state of MEM while the access is in this phase. -/
def memAccessState : BusPhase → MemoryAccessStates
  | .ready none => .idle
  | .ready (some
      (.read _ _)) | .readIssued _ | .readAddressed _ | .readPending _ | .readSupplied _ _ => .read
  | .ready (some (.write _ _ _)) | .writeIssued _ _ _ | .writeAddressed _ _ _ | .writeAccepted _ _ _
  | .writeDelivering _ _ _ | .writeDelivered _ _ _ => .write

/-- The address of the access that MEM waits for. -/
def awaited : BusPhase → Option Word
  | .ready finished => finished.map BusAccess.address
  | phase => phase.address

/-- The memory once the store in flight has crossed the bus. -/
def settled (memory : SimMemory) : BusPhase → SimMemory
  | .writeIssued a d s | .writeAddressed a d s | .writeAccepted a d s | .writeDelivering a d s =>
    memory.write a d (s.zeroExtend 8)
  | _ => memory

/-- The memory after the cycle. -/
def taken (memory : SimMemory) : BusPhase → SimMemory
  | .writeDelivering a d s => memory.write a d (s.zeroExtend 8)
  | _ => memory

/-- What has been read is what the memory holds. -/
def Answered (memory : SimMemory) : BusPhase → Prop
  | .readSupplied a d | .ready (some (.read a d)) => d = memory.read a
  | _ => True

/-! ### A cycle of an access in flight -/

section Flying

variable {phase : BusPhase} {a : Word} (flying : phase.address = some a)
    (request : Option BusRequest)
  (answer : Fin 8 → Option Word)

include flying

theorem awaited_flying : phase.awaited = some a := by
  cases phase with
  | ready finished => cases flying
  | _ => exact flying

theorem awaited_next : (phase.next request answer).awaited = some a := by
  cases phase with
  | ready finished => cases flying
  | readPending b =>
    rw [next]
    cases answer (BusSwitch.index b) <;> exact flying
  | _ => exact flying

theorem memAccessState_next : (phase.next request answer).memAccessState =
    phase.memAccessState := by
  cases phase with
  | ready finished => cases flying
  | readPending b =>
    rw [next]
    cases answer (BusSwitch.index b) <;> rfl
  | _ => rfl

theorem settled_next (memory : SimMemory) :
    (phase.next request answer).settled (phase.taken memory) = phase.settled memory := by
  cases phase with
  | ready finished => cases flying
  | readPending b =>
    rw [next]
    cases answer (BusSwitch.index b) <;> rfl
  | _ => rfl

theorem answered_next {memory : SimMemory} (answered : phase.Answered memory)
    (read : ∀ b, phase = .readPending b → answer (BusSwitch.index b) = some (memory.read b)) :
    (phase.next request answer).Answered (phase.taken memory) := by
  cases phase with
  | ready finished => cases flying
  | readPending b =>
    rw [next, read b rfl]
    rfl
  | readSupplied b d => exact answered
  | _ => trivial

end Flying

end BusPhase

namespace Simulation

/-- The access in flight is in this phase, and the ideal memory is ahead of the memory by the store
    in flight. -/
structure Carries (phase : BusPhase) (sim : Simulation) (data : Memory) : Prop where
  bus : phase.Refines sim.top
  state : sim.cpu.mem.memAccessState = phase.memAccessState
  address : ∀ a, phase.awaited = some a → MemoryAccess.busAddress sim.cpu.ex2mem = a ∧
    (BusSwitch.index a).val < 3
  inside : phase.memAccessState = .read →
    (MemoryAccess.busAddress sim.cpu.ex2mem).toNat / 4 < sim.mem.mem.size
  answered : phase.Answered sim.mem
  memory : (phase.settled sim.mem).Agrees data
  small : sim.mem.mem.size ≤ 134217728

/-- The core reads the memory only, and writes the memory and the two peripherals only. -/
@[mk_iff] structure WithinBus (sim : Simulation) : Prop where
  reads : (PipelinedCPU.bus sim.cpu).read = true →
    (PipelinedCPU.bus sim.cpu).address.toNat / 4 < sim.mem.mem.size
  writes : (PipelinedCPU.bus sim.cpu).write = true →
    (BusSwitch.index (PipelinedCPU.bus sim.cpu).address).val < 3

instance (sim : Simulation) : Decidable (WithinBus sim) :=
  decidable_of_iff _ (withinBus_iff sim).symm

/-- The ideal memory after the cycle: it takes a store when the master accepts it. -/
def nextData (sim : Simulation) (data : Memory) : Memory :=
  let bus := PipelinedCPU.bus sim.cpu
  if bus.write && (CPU.busInputs sim.top.axiMaster).granted then
    System.writeWord data bus.address bus.writeData bus.writeStrobe
  else data

variable {phase : BusPhase} {sim : Simulation} {io : Inputs} {data : Memory}

theorem index_memory {address : Word} {size : ℕ} (inside : address.toNat / 4 < size)
    (small : size ≤ 134217728) :
    BusSwitch.index address = 0 := by
  have region : (BusSwitch.index address).val = address.toNat / 536870912 % 8 := by
    rw [BusSwitch.index, BitVec.val_toFin, BitVec.extractLsb'_toNat, Nat.shiftRight_eq_div_pow]
  apply Fin.ext
  rw [region]
  omega

/-! ## One cycle -/

section Cycle

variable (carries : Carries phase sim data)

include carries

theorem Carries.control : sim.top.axiMaster.readValid = phase.masterControl.readValid ∧
    sim.top.axiMaster.writeValid = phase.masterControl.writeValid :=
  ⟨congrArg AXI4LiteMaster.Control.readValid carries.bus.master,
    congrArg AXI4LiteMaster.Control.writeValid carries.bus.master⟩

theorem Carries.granted : (CPU.busInputs sim.top.axiMaster).granted = phase.address.isNone := by
  rw [CPU.busInputs, carries.bus.busy]
  cases phase.address <;> rfl

/-- MEM waits unless nothing is in flight or the access is over. -/
theorem Carries.waits {a : Word} (flying : phase.address = some a) (io' : PipelinedCPU.Inputs)
    (bus : io'.bus = CPU.busInputs sim.top.axiMaster) :
    PipelinedCPU.memStall sim.cpu io' = true := by
  obtain ⟨readValid, writeValid⟩ := carries.control
  rw [PipelinedCPU.memStall, MemoryAccess.ctrlStallFlag, bus, carries.state, CPU.busInputs,
    readValid, writeValid]
  cases phase with
  | ready finished => cases flying
  | _ => rfl

theorem Carries.quiet {a : Word} (awaited : phase.awaited = some a) :
    Top.request (PipelinedCPU.bus sim.cpu) = none := by
  have busy : sim.cpu.mem.memAccessState ≠ .idle := by
    rw [carries.state]
    cases phase with
    | ready finished =>
      obtain _ | access := finished
      · cases awaited
      · cases access <;> exact MemoryAccessStates.noConfusion
    | _ => exact MemoryAccessStates.noConfusion
  simp [Top.request, PipelinedCPU.bus, MemoryAccess.busOutputs, MemoryAccess.startsRead,
    MemoryAccess.startsWrite, busy]

/-- The memory port is written in one phase of a store, and only when the store is for the
    memory. -/
theorem Carries.nextMem : sim.nextMem = phase.taken sim.mem := by
  by_cases selected : phase.region = some 0
  · obtain ⟨control, data'⟩ := carries.bus.memSlave.selected selected
    have strobe : sim.top.memSlave.write = phase.slaveControl.write :=
      congrArg AXI4LiteSlave.Control.write control
    rw [Simulation.nextMem, strobe]
    cases phase with
    | writeDelivering a d s =>
      obtain ⟨address, val, lanes⟩ := data'
      rw [BitVec.setWidth_eq] at address
      rw [address, val, lanes]
      rfl
    | _ => rfl
  · have strobe : sim.top.memSlave.write = false :=
      congrArg AXI4LiteSlave.Control.write (carries.bus.memSlave.unselected selected)
    rw [Simulation.nextMem, strobe, if_neg Bool.false_ne_true]
    cases phase with
    | writeDelivering a d s =>
      refine (SimMemory.write_outside (fun inside => selected ?_) d _).symm
      exact congrArg some (index_memory inside carries.small)
    | _ => rfl

theorem Carries.size : sim.nextMem.mem.size = sim.mem.mem.size := by
  rw [carries.nextMem]
  cases phase with
  | writeDelivering a d s => exact SimMemory.size_write a d _
  | _ => rfl

/-- What the memory answers to the read in flight. -/
theorem Carries.answer {a : Word} (io : Inputs) (pending : phase = .readPending a) :
    Top.answer (sim.topInputs io) (BusSwitch.index a) = some (sim.mem.read a) := by
  subst pending
  have inside := carries.inside rfl
  rw [(carries.address a rfl).1] at inside
  have region : BusSwitch.index a = 0 := index_memory inside carries.small
  obtain ⟨control, place⟩ := carries.bus.memSlave.selected (congrArg some region)
  have reads : sim.top.memSlave.read = true := congrArg AXI4LiteSlave.Control.read control
  have address : sim.top.memSlave.addr = a := place.trans (BitVec.setWidth_eq a)
  rw [region, Top.answer]
  simp only [topInputs, nextReadData, reads, address, if_true]

theorem Carries.populated (within : WithinBus sim) (io : Inputs) :
    Top.Populated (sim.topInputs io) := by
  intro request
  cases awaited : phase.awaited with
  | some a =>
    obtain ⟨place, region⟩ := carries.address a awaited
    change (BusSwitch.index (MemoryAccess.busAddress sim.cpu.ex2mem)).val < 3
    rw [place]
    exact region
  | none =>
    -- nothing is awaited, so MEM is idle and asks for a new access
    have idle : sim.cpu.mem.memAccessState = .idle := by
      rw [carries.state]
      cases phase with
      | ready finished =>
        obtain _ | access := finished
        · rfl
        · cases awaited
      | _ => cases awaited
    change (sim.cpu.mem.memAccessState ≠ .idle || sim.cpu.ex2mem.memoryReadEnable ||
      sim.cpu.ex2mem.memoryWriteEnable) = true at request
    cases load : sim.cpu.ex2mem.memoryReadEnable with
    | true =>
      have reads : (PipelinedCPU.bus sim.cpu).read = true := by
        simp [PipelinedCPU.bus, MemoryAccess.busOutputs, MemoryAccess.startsRead, idle, load]
      change (BusSwitch.index (PipelinedCPU.bus sim.cpu).address).val < 3
      rw [index_memory (within.reads reads) carries.small]
      decide
    | false =>
      have store : sim.cpu.ex2mem.memoryWriteEnable = true := by
        simpa [idle, load] using request
      exact within.writes (by
        simp [PipelinedCPU.bus, MemoryAccess.busOutputs,
          MemoryAccess.startsWrite, idle, load, store])

/-- The phase after the cycle. -/
theorem Carries.nextBus (within : WithinBus sim) (io : Inputs) :
    (phase.next (Top.request (PipelinedCPU.bus sim.cpu)) (Top.answer (sim.topInputs io))).Refines
      (sim.step io).top :=
  BusPhase.refines_next carries.bus (sim.topInputs io) (carries.populated within io)

/-- No store is accepted while an access is awaited. -/
theorem Carries.noStore {a : Word} (awaited : phase.awaited = some a) :
    (PipelinedCPU.bus sim.cpu).write = false := by
  have quiet := carries.quiet awaited
  by_contra store
  have store := Bool.eq_true_of_not_eq_false store
  have asks : (PipelinedCPU.bus sim.cpu).request = true := by
    simp only [PipelinedCPU.bus, MemoryAccess.busOutputs, MemoryAccess.startsWrite,
      Bool.and_eq_true] at store ⊢
    rw [store.2, Bool.or_true]
  rw [Top.request, asks, store] at quiet
  exact Option.some_ne_none _ quiet

theorem Carries.nextData_awaited {a : Word} (awaited : phase.awaited = some a) :
    sim.nextData data = data := by
  rw [Simulation.nextData]
  simp only [carries.noStore awaited, Bool.false_and, Bool.false_eq_true, if_false]

theorem Carries.flying_step {a : Word} (flying : phase.address = some a)
    (within : WithinBus sim) (io : Inputs) :
    Carries (phase.next (Top.request (PipelinedCPU.bus sim.cpu)) (Top.answer (sim.topInputs io)))
      (sim.step io)
      (sim.nextData data) := by
  have waits := carries.waits flying sim.cpuInputs rfl
  have held : (sim.step io).cpu.ex2mem = sim.cpu.ex2mem := by
    simp only [step, PipelinedCPU.step, PipelinedCPU.stepWith, waits, pipelineRegister_stall]
  have state : (sim.step io).cpu.mem.memAccessState = sim.cpu.mem.memAccessState := by
    obtain ⟨readValid, writeValid⟩ := carries.control
    change MemoryAccess.nextState sim.cpu.mem sim.cpu.ex2mem (CPU.busInputs sim.top.axiMaster) = _
    rw [MemoryAccess.nextState, carries.state, CPU.busInputs, readValid, writeValid]
    cases phase with
    | ready finished => cases flying
    | _ => rfl
  have mem : (sim.step io).mem = phase.taken sim.mem := carries.nextMem
  refine ⟨carries.nextBus within io, ?_, ?_, ?_, ?_, ?_, ?_⟩
  · rw [state, carries.state, BusPhase.memAccessState_next flying]
  · intro b awaited
    rw [BusPhase.awaited_next flying] at awaited
    rw [held]
    exact carries.address b ((BusPhase.awaited_flying flying).trans awaited)
  · intro reading
    rw [BusPhase.memAccessState_next flying] at reading
    have size : (sim.step io).mem.mem.size = sim.mem.mem.size := carries.size
    rw [held, size]
    exact carries.inside reading
  · rw [mem]
    exact BusPhase.answered_next flying _ _ carries.answered
      fun b pending => carries.answer io pending
  · rw [mem, BusPhase.settled_next flying, carries.nextData_awaited
      (BusPhase.awaited_flying flying)]
    exact carries.memory
  · have size : (sim.step io).mem.mem.size = sim.mem.mem.size := carries.size
    rw [size]
    exact carries.small

theorem Carries.finished_step {access : BusAccess} (finished : phase = .ready (some access))
    (within : WithinBus sim)
    (io : Inputs) :
    Carries (phase.next (Top.request (PipelinedCPU.bus sim.cpu)) (Top.answer (sim.topInputs io)))
      (sim.step io)
      (sim.nextData data) := by
  have awaited : phase.awaited = some access.address := by
    rw [finished]
    rfl
  have ended : phase.next (Top.request (PipelinedCPU.bus sim.cpu))
      (Top.answer (sim.topInputs io)) = .ready none := by
    rw [carries.quiet awaited, finished]
    rfl
  have mem : (sim.step io).mem = sim.mem := by
    have taken := carries.nextMem
    rw [finished] at taken
    exact taken
  -- the answer has come, so MEM goes back to `Idle`
  have state : (sim.step io).cpu.mem.memAccessState = .idle := by
    obtain ⟨readValid, writeValid⟩ := carries.control
    change MemoryAccess.nextState sim.cpu.mem sim.cpu.ex2mem (CPU.busInputs sim.top.axiMaster) = _
    rw [MemoryAccess.nextState, carries.state, CPU.busInputs, readValid, writeValid, finished]
    cases access <;> rfl
  have bus := carries.nextBus within io
  have memory := carries.memory
  have settled : phase.settled sim.mem = sim.mem := by
    rw [finished]
    rfl
  rw [ended] at bus
  rw [settled] at memory
  rw [ended, carries.nextData_awaited awaited]
  refine ⟨bus, state, fun b none => (by cases none),
    fun reading => (by cases reading), trivial, ?_, ?_⟩
  · rw [mem]
    exact memory
  · rw [mem]
    exact carries.small

end Cycle

section Idle

variable (carries : Carries (.ready none) sim data)

include carries

theorem Carries.idle_state (io : Inputs) : (sim.step io).cpu.mem.memAccessState =
    if sim.cpu.ex2mem.memoryReadEnable then .read
    else if sim.cpu.ex2mem.memoryWriteEnable then .write else .idle := by
  have idle : sim.cpu.mem.memAccessState = .idle := carries.state
  have granted : (CPU.busInputs sim.top.axiMaster).granted = true := carries.granted
  change MemoryAccess.nextState sim.cpu.mem sim.cpu.ex2mem (CPU.busInputs sim.top.axiMaster) = _
  rw [MemoryAccess.nextState, idle, granted]
  rfl

theorem Carries.idle_held (io : Inputs)
    (access : sim.cpu.ex2mem.memoryReadEnable = true ∨ sim.cpu.ex2mem.memoryWriteEnable = true) :
    (sim.step io).cpu.ex2mem = sim.cpu.ex2mem := by
  have idle : sim.cpu.mem.memAccessState = .idle := carries.state
  have waits : PipelinedCPU.memStall sim.cpu sim.cpuInputs = true := by
    rw [PipelinedCPU.memStall, MemoryAccess.ctrlStallFlag, idle]
    exact (Bool.or_eq_true _ _).mpr access
  simp only [step, PipelinedCPU.step, PipelinedCPU.stepWith, waits, pipelineRegister_stall]

theorem Carries.load_request (load : sim.cpu.ex2mem.memoryReadEnable = true) :
    Top.request (PipelinedCPU.bus sim.cpu) =
      some (.read (MemoryAccess.busAddress sim.cpu.ex2mem)) := by
  have idle : sim.cpu.mem.memAccessState = .idle := carries.state
  simp [Top.request, PipelinedCPU.bus, MemoryAccess.busOutputs, MemoryAccess.startsRead,
    MemoryAccess.startsWrite, idle, load]

theorem Carries.store_writes (noLoad : sim.cpu.ex2mem.memoryReadEnable = false)
    (store : sim.cpu.ex2mem.memoryWriteEnable = true) :
    (PipelinedCPU.bus sim.cpu).write = true := by
  have idle : sim.cpu.mem.memAccessState = .idle := carries.state
  simp [PipelinedCPU.bus, MemoryAccess.busOutputs, MemoryAccess.startsWrite, idle, noLoad, store]

theorem Carries.store_request (noLoad : sim.cpu.ex2mem.memoryReadEnable = false)
    (store : sim.cpu.ex2mem.memoryWriteEnable = true) :
    Top.request (PipelinedCPU.bus sim.cpu) = some (.write (MemoryAccess.busAddress sim.cpu.ex2mem)
      (PipelinedCPU.bus sim.cpu).writeData (PipelinedCPU.bus sim.cpu).writeStrobe) := by
  have asks : (PipelinedCPU.bus sim.cpu).request = true := by
    simp [PipelinedCPU.bus, MemoryAccess.busOutputs, store]
  rw [Top.request, asks, carries.store_writes noLoad store]
  rfl

omit carries in
theorem rest_request (noLoad : sim.cpu.ex2mem.memoryReadEnable = false)
    (noStore : sim.cpu.ex2mem.memoryWriteEnable = false) :
    Top.request (PipelinedCPU.bus sim.cpu) = none := by
  simp [Top.request, PipelinedCPU.bus, MemoryAccess.busOutputs, MemoryAccess.startsRead,
    MemoryAccess.startsWrite, noLoad, noStore]

theorem Carries.load_step (load : sim.cpu.ex2mem.memoryReadEnable = true)
    (within : WithinBus sim) (io : Inputs) :
    Carries (.readIssued (MemoryAccess.busAddress sim.cpu.ex2mem)) (sim.step io)
      (sim.nextData data) := by
  have idle : sim.cpu.mem.memAccessState = .idle := carries.state
  have reads : (PipelinedCPU.bus sim.cpu).read = true := by
    simp [PipelinedCPU.bus, MemoryAccess.busOutputs, MemoryAccess.startsRead, idle, load]
  have noStore : (PipelinedCPU.bus sim.cpu).write = false := by
    simp [PipelinedCPU.bus, MemoryAccess.busOutputs, MemoryAccess.startsWrite, load]
  have inside : (MemoryAccess.busAddress sim.cpu.ex2mem).toNat / 4 <
      sim.mem.mem.size := within.reads reads
  have mem : (sim.step io).mem = sim.mem := carries.nextMem
  have held := carries.idle_held io (Or.inl load)
  have state := carries.idle_state io
  have bus := carries.nextBus within io
  rw [carries.load_request load] at bus
  rw [load, if_pos rfl] at state
  have kept : sim.nextData data = data := by
    rw [Simulation.nextData]
    simp only [noStore, Bool.false_and, Bool.false_eq_true, if_false]
  rw [kept]
  refine ⟨bus, state, fun b awaited => ?_, fun _ => ?_, trivial, ?_, ?_⟩
  · obtain rfl : MemoryAccess.busAddress sim.cpu.ex2mem = b := Option.some.inj awaited
    rw [held, index_memory inside carries.small]
    exact ⟨rfl, by decide⟩
  · rw [held, mem]
    exact inside
  · rw [mem]
    exact carries.memory
  · rw [mem]
    exact carries.small

theorem Carries.store_step (noLoad : sim.cpu.ex2mem.memoryReadEnable = false)
    (store : sim.cpu.ex2mem.memoryWriteEnable = true) (within : WithinBus sim) (io : Inputs) :
    Carries (.writeIssued (MemoryAccess.busAddress sim.cpu.ex2mem)
      (PipelinedCPU.bus sim.cpu).writeData
      (PipelinedCPU.bus sim.cpu).writeStrobe) (sim.step io) (sim.nextData data) := by
  have granted : (CPU.busInputs sim.top.axiMaster).granted = true := carries.granted
  have writes := carries.store_writes noLoad store
  have aligned : (MemoryAccess.busAddress sim.cpu.ex2mem).toNat % 4 = 0 := by
    have word := wordAddress_toNat sim.cpu.ex2mem.aluResult
    change (wordAddress sim.cpu.ex2mem.aluResult).toNat % 4 = 0
    omega
  have mem : (sim.step io).mem = sim.mem := carries.nextMem
  have held := carries.idle_held io (Or.inr store)
  have state := carries.idle_state io
  have bus := carries.nextBus within io
  rw [carries.store_request noLoad store] at bus
  rw [noLoad, store, if_neg Bool.false_ne_true, if_pos rfl] at state
  have taken : sim.nextData data = System.writeWord data (MemoryAccess.busAddress sim.cpu.ex2mem)
      (PipelinedCPU.bus sim.cpu).writeData (PipelinedCPU.bus sim.cpu).writeStrobe := by
    rw [Simulation.nextData]
    simp only [writes, granted, Bool.true_and, if_true]
    rfl
  rw [taken]
  refine ⟨bus, state, fun b awaited => ?_, fun reading => (by cases reading), trivial, ?_, ?_⟩
  · obtain rfl : MemoryAccess.busAddress sim.cpu.ex2mem = b := Option.some.inj awaited
    rw [held]
    exact ⟨rfl, within.writes writes⟩
  · rw [mem]
    exact SimMemory.Agrees.write carries.memory aligned _ _
  · rw [mem]
    exact carries.small

theorem Carries.rest_step (noLoad : sim.cpu.ex2mem.memoryReadEnable = false)
    (noStore : sim.cpu.ex2mem.memoryWriteEnable = false) (within : WithinBus sim) (io : Inputs) :
    Carries (.ready none) (sim.step io) (sim.nextData data) := by
  have quiet : (PipelinedCPU.bus sim.cpu).write = false := by
    simp [PipelinedCPU.bus, MemoryAccess.busOutputs, MemoryAccess.startsWrite, noStore]
  have mem : (sim.step io).mem = sim.mem := carries.nextMem
  have state := carries.idle_state io
  have bus := carries.nextBus within io
  rw [rest_request noLoad noStore] at bus
  rw [noLoad, noStore, if_neg Bool.false_ne_true, if_neg Bool.false_ne_true] at state
  have kept : sim.nextData data = data := by
    rw [Simulation.nextData]
    simp only [quiet, Bool.false_and, Bool.false_eq_true, if_false]
  rw [kept]
  refine ⟨bus, state, fun b none => (by cases none),
    fun reading => (by cases reading), trivial, ?_, ?_⟩
  · rw [mem]
    exact carries.memory
  · rw [mem]
    exact carries.small

end Idle

/-- One clock cycle of the simulated computer, in every phase of the access in flight. -/
theorem Carries.step (carries : Carries phase sim data) (within : WithinBus sim) (io : Inputs) :
    Carries (phase.next (Top.request (PipelinedCPU.bus sim.cpu)) (Top.answer (sim.topInputs io)))
      (sim.step io)
      (sim.nextData data) := by
  cases flying : phase.address with
  | some a => exact carries.flying_step flying within io
  | none =>
    cases phase with
    | ready finished =>
      obtain _ | access := finished
      · cases load : sim.cpu.ex2mem.memoryReadEnable with
        | true =>
          rw [carries.load_request load]
          exact carries.load_step load within io
        | false =>
          cases store : sim.cpu.ex2mem.memoryWriteEnable with
          | true =>
            rw [carries.store_request load store]
            exact carries.store_step load store within io
          | false =>
            rw [rest_request load store]
            exact carries.rest_step load store within io
      · exact carries.finished_step rfl within io
    | _ => cases flying

/-! ## The core sees the ideal memory -/

/-- The bus delays that the core sees in this cycle. -/
def supply (sim : Simulation) : Supply where
  granted := (CPU.busInputs sim.top.axiMaster).granted
  readValid := (CPU.busInputs sim.top.axiMaster).readValid
  writeValid := (CPU.busInputs sim.top.axiMaster).writeValid
  instructionValid := true

section Core

variable {program : Rv32im.Program} {system : System}

/-- In a cycle in which the read data matters, the wired bus presents what the ideal memory
    holds. -/
theorem Carries.readData (carries : Carries phase sim data)
    (completes : MemoryAccess.readCompletes sim.cpu.mem (CPU.busInputs sim.top.axiMaster) = true) :
    System.readWord data (PipelinedCPU.bus sim.cpu).address = sim.top.axiMaster.readData := by
  obtain ⟨readValid, _⟩ := carries.control
  rw [MemoryAccess.readCompletes, CPU.busInputs, readValid, Bool.and_eq_true] at completes
  cases phase with
  | ready finished =>
    obtain _ | access := finished
    · exact Bool.noConfusion completes.2
    · cases access with
      | write a d s => exact Bool.noConfusion completes.2
      | read a d =>
        have inside := carries.inside rfl
        have place := (carries.address a rfl).1
        have answered : d = sim.mem.read a := carries.answered
        have driven : sim.top.axiMaster.readData = d := carries.bus.masterData
        have aligned : a.toNat % 4 = 0 := by
          have word := wordAddress_toNat sim.cpu.ex2mem.aluResult
          have same : wordAddress sim.cpu.ex2mem.aluResult = a := place
          rw [same] at word
          omega
        have shown : (PipelinedCPU.bus sim.cpu).address = a := place
        rw [place] at inside
        rw [shown, driven, answered]
        exact SimMemory.Agrees.read carries.memory aligned inside
  | _ => exact Bool.noConfusion completes.2

/-- The inputs of the core with the ideal memory are those of the simulated core, but for read data
    that is not read. -/
theorem Carries.same_inputs (carries : Carries phase sim system.dataMemory)
    (same : system.cpu = sim.cpu)
    (fetched : sim.inst = program sim.cpu.instFetch.pc) :
    PipelinedCPU.SameButReadData sim.cpu sim.cpuInputs
      (System.suppliedInputs program system sim.supply) where
  instruction := by
    change program system.cpu.instFetch.pc = sim.inst
    rw [same, fetched]
  instructionValid := rfl
  interruptFlag := rfl
  readValid := rfl
  writeValid := rfl
  granted := rfl
  readData := fun completes => by
    change System.readWord system.dataMemory (PipelinedCPU.bus system.cpu).address =
      sim.top.axiMaster.readData
    rw [same]
    exact carries.readData completes

theorem Carries.cpu_step (carries : Carries phase sim system.dataMemory)
    (same : system.cpu = sim.cpu)
    (fetched : sim.inst = program sim.cpu.instFetch.pc) (io : Inputs) :
    (System.stepSupplied program system sim.supply).cpu = (sim.step io).cpu := by
  have stepped := (carries.same_inputs same fetched).stepWith sim.cpu.instFetch.predict
  change _ = PipelinedCPU.stepWith sim.cpu.instFetch.predict sim.cpu sim.cpuInputs
  rw [← same] at stepped ⊢
  exact stepped

theorem Carries.copies_itself (carries : Carries phase sim system.dataMemory)
    (same : system.cpu = sim.cpu)
    (fetched : sim.inst = program sim.cpu.instFetch.pc) :
    PipelinedCPU.copiesItself system.cpu (System.suppliedInputs program system sim.supply) =
      PipelinedCPU.copiesItself sim.cpu sim.cpuInputs := by
  have inputs := carries.same_inputs same fetched
  rw [same, PipelinedCPU.copiesItself, PipelinedCPU.copiesItself, PipelinedCPU.copiesHeld,
    PipelinedCPU.copiesHeld, PipelinedCPU.holdsId, PipelinedCPU.holdsId, PipelinedCPU.issuesId,
    PipelinedCPU.issuesId, PipelinedCPU.if2idStall, PipelinedCPU.if2idStall, inputs.memStall,
    inputs.if2idFlush, inputs.id2exFlush]

theorem nextMemory_eq (same : system.cpu = sim.cpu) :
    (System.stepSupplied program system sim.supply).dataMemory =
      sim.nextData system.dataMemory := by
  rw [Simulation.nextData, ← same]
  rfl

end Core

/-! ## What the devices see -/

/-- What a device sees of a store. -/
def delivery (address data : Word) (strobe : Strobe) : Delivery :=
  ⟨BusSwitch.index address, deviceAddress (BusSwitch.index address) address, data, strobe⟩

/-- The store that has been accepted and not delivered. -/
def crossing : BusPhase → List Delivery
  | .writeIssued a d s | .writeAddressed a d s | .writeAccepted a d s | .writeDelivering a d s =>
    [delivery a d s]
  | _ => []

def storeDelivery : Event → Option Delivery
  | .busWrite write => some (delivery write.address write.data write.strobe)
  | .retire _ _ => none

/-- The stores of a log, as the devices see them. -/
def stores (log : List Event) : List Delivery := log.filterMap storeDelivery

theorem stores_append (log events : List Event) :
    stores (log ++ events) = stores log ++ stores events :=
  List.filterMap_append

/-- The store that is delivered in this phase. -/
def arriving : BusPhase → List Delivery
  | .writeDelivering a d s => [delivery a d s]
  | _ => []

theorem delivered_at {w : ℕ} {region : Fin 8} {slave : AXI4LiteSlave w}
    (inPhase : phase.SlaveAt region slave)
    (width : ∀ a : Word, (a.setWidth w).setWidth 32 = deviceAddress region a) :
    delivered region slave = if phase.region = some region then arriving phase else [] := by
  by_cases selected : phase.region = some region
  · obtain ⟨control, data⟩ := inPhase.selected selected
    have strobe : slave.write = phase.slaveControl.write :=
      congrArg AXI4LiteSlave.Control.write control
    rw [delivered, strobe, if_pos selected]
    cases phase with
    | writeDelivering a d s =>
      obtain ⟨address, val, lanes⟩ := data
      obtain rfl : BusSwitch.index a = region := Option.some.inj selected
      rw [address, val, lanes, width]
      rfl
    | _ => rfl
  · have strobe : slave.write = false :=
      congrArg AXI4LiteSlave.Control.write (inPhase.unselected selected)
    rw [delivered, strobe, if_neg selected]
    rfl

theorem Carries.deliveries (carries : Carries phase sim data) :
    sim.deliveries = arriving phase := by
  have memSlave := delivered_at carries.bus.memSlave fun a => by simp [deviceAddress]
  have vga := delivered_at carries.bus.vga fun a => rfl
  have uart := delivered_at carries.bus.uart fun a => rfl
  rw [Simulation.deliveries, memSlave, vga, uart]
  cases phase with
  | writeDelivering a d s =>
    have region := (carries.address a rfl).2
    have selected : (BusPhase.writeDelivering a d s).region = some (BusSwitch.index a) := rfl
    rw [selected]
    generalize BusSwitch.index a = region' at region ⊢
    have regions : region' = 0 ∨ region' = 1 ∨ region' = 2 := by omega
    obtain rfl | rfl | rfl := regions <;> rfl
  | _ => simp [arriving]

/-- The store that the core hands to the bus in this cycle. -/
def accepted (sim : Simulation) : List Delivery :=
  let bus := PipelinedCPU.bus sim.cpu
  if bus.write && (CPU.busInputs sim.top.axiMaster).granted then
    [delivery bus.address bus.writeData bus.writeStrobe]
  else []

theorem accepted_emitted {program : Rv32im.Program} {system : System}
    (same : system.cpu = sim.cpu) :
    stores (System.emitSupplied program system sim.supply) = sim.accepted := by
  have retired : ∀ (moves : Prop) [Decidable moves] (address : Word)
      (write : Option (RegAddr × Word)),
      stores (if moves then [Event.retire address write] else []) = [] := by
    intro moves _ address write
    split_ifs <;> rfl
  have granted : sim.supply.quiet.granted = (CPU.busInputs sim.top.axiMaster).granted := rfl
  rw [System.emitSupplied, System.emit, stores_append, retired, List.append_nil,
    System.writeGranted, same, granted, accepted]
  split_ifs <;> rfl

theorem crossing_flying {a : Word} (flying : phase.address = some a) (request : Option BusRequest)
    (answer : Fin 8 → Option Word) :
    crossing phase = arriving phase ++ crossing (phase.next request answer) := by
  cases phase with
  | ready finished => cases flying
  | readPending b =>
    rw [BusPhase.next]
    cases answer (BusSwitch.index b) <;> rfl
  | _ => rfl

/-- What is handed to the bus crosses it, and nothing else does. -/
theorem Carries.crosses (carries : Carries phase sim data) (answer : Fin 8 → Option Word) :
    crossing phase ++ sim.accepted =
      sim.deliveries ++ crossing (phase.next (Top.request (PipelinedCPU.bus sim.cpu)) answer) := by
  rw [carries.deliveries]
  cases awaited : phase.awaited with
  | some a =>
    -- MEM starts no store while it waits for an access
    have none : sim.accepted = [] := by
      simp only [accepted, carries.noStore awaited, Bool.false_and, Bool.false_eq_true, if_false]
    rw [none, List.append_nil]
    cases flying : phase.address with
    | some b => exact crossing_flying flying _ _
    | none =>
      cases phase with
      | ready finished =>
        rw [carries.quiet awaited]
        rfl
      | _ => cases flying
  | none =>
    cases phase with
    | ready finished =>
      obtain _ | access := finished
      · have granted : (CPU.busInputs sim.top.axiMaster).granted = true := carries.granted
        cases load : sim.cpu.ex2mem.memoryReadEnable with
        | true =>
          have noStore : (PipelinedCPU.bus sim.cpu).write = false := by
            simp [PipelinedCPU.bus, MemoryAccess.busOutputs, MemoryAccess.startsWrite, load]
          rw [carries.load_request load, accepted]
          simp only [noStore, Bool.false_and, Bool.false_eq_true, if_false]
          rfl
        | false =>
          cases store : sim.cpu.ex2mem.memoryWriteEnable with
          | true =>
            rw [carries.store_request load store, accepted]
            simp only [carries.store_writes load store, granted, Bool.true_and, if_true]
            rfl
          | false =>
            have noStore : (PipelinedCPU.bus sim.cpu).write = false := by
              simp [PipelinedCPU.bus, MemoryAccess.busOutputs, MemoryAccess.startsWrite, store]
            rw [rest_request load store, accepted]
            simp only [noStore, Bool.false_and, Bool.false_eq_true, if_false]
            rfl
      · cases awaited
    | _ => cases awaited

/-- The memory takes what is delivered to it. -/
def take (memory : SimMemory) (delivery : Delivery) : SimMemory :=
  if delivery.region = 0 then memory.write delivery.address delivery.data
    (delivery.strobe.zeroExtend 8) else memory

theorem nextMem_deliveries (sim : Simulation) :
    sim.nextMem = sim.deliveries.foldl take sim.mem := by
  have elsewhere : ∀ {w : ℕ} (region : Fin 8) (slave : AXI4LiteSlave w)
      (memory : SimMemory), region ≠ 0 →
      (delivered region slave).foldl take memory = memory := by
    intro w region slave memory other
    rw [delivered]
    split_ifs
    · rw [List.foldl_cons, List.foldl_nil, take, if_neg other]
    · rfl
  rw [Simulation.deliveries, List.foldl_append, List.foldl_append, elsewhere 2 _ _ (by decide),
    elsewhere 1 _ _ (by decide), delivered, Simulation.nextMem]
  split_ifs
  · rw [List.foldl_cons, List.foldl_nil, take, if_pos rfl, BitVec.setWidth_eq]
  · rfl

/-! ## Runs from power-up -/

/-- What the core holds after reset, beside its architectural state. -/
def powerUpSetup (contents : PowerUp) : Setup :=
  ⟨CSR.reset, contents.btb, contents.ras, contents.ibtb⟩

theorem powerUp_masked (contents : PowerUp) :
    (powerUpSetup contents).csrRegs.mcountinhibit &&& 0x000003fd#32 =
      (powerUpSetup contents).csrRegs.mcountinhibit :=
  BitVec.zero_and

/-- The architectural state after reset, with the image in memory. -/
def powerUpHart (contents : PowerUp) (image : SimMemory) : Rv32im.Hart :=
  ⟨ProgramCounter.entryAddress, contents.regs, image.bytes⟩

/-- The cycle fetches from the program, reads the memory only, and writes within the populated
    regions. -/
@[mk_iff] structure Executes (program : Rv32im.Program) (sim : Simulation) :
    Prop extends WithinBus sim where
  fetched : sim.inst = program sim.cpu.instFetch.pc

instance (program : Rv32im.Program) (sim : Simulation) : Decidable (Executes program sim) :=
  decidable_of_iff _ (executes_iff program sim).symm

section Runs

variable (program : Rv32im.Program) (contents : PowerUp) (image : SimMemory) (inputs : ℕ → Inputs)

def simAt (n : ℕ) : Simulation :=
  Clocked.stateAt step (boot (PipelinedCPU.powerUp contents) image) inputs n

/-- The writes that the memory and the peripherals have seen. -/
def deliveredAt (n : ℕ) : List Delivery :=
  Clocked.logAt step (fun sim _ => sim.deliveries)
    (boot (PipelinedCPU.powerUp contents) image) inputs n

def phaseAt : ℕ → BusPhase
  | 0 => .ready none
  | n + 1 => (phaseAt n).next (Top.request (PipelinedCPU.bus (simAt contents image inputs n).cpu))
      (Top.answer ((simAt contents image inputs n).topInputs (inputs n)))

/-- The same core with an ideal data memory and the delays of the wired bus. -/
def idealAt (n : ℕ) : System :=
  System.suppliedAt program (powerUpSetup contents) (powerUpHart contents image)
    (fun k => (simAt contents image inputs k).supply) n

variable {program contents image inputs}

theorem run_carries (small : image.mem.size ≤ 134217728) (n : ℕ)
    (executes : ∀ k < n, Executes program (simAt contents image inputs k)) :
    Carries (phaseAt contents image inputs n) (simAt contents image inputs n)
        (idealAt program contents image inputs n).dataMemory ∧
      (idealAt program contents image inputs n).cpu = (simAt contents image inputs n).cpu := by
  induction n with
  | zero =>
    refine ⟨⟨BusPhase.refines_reset, rfl, fun a none => (by cases none),
      fun reading => (by cases reading), trivial, fun _ _ => rfl, small⟩, rfl⟩
  | succ n inductionHypothesis =>
    obtain ⟨carries, same⟩ :=
      inductionHypothesis fun k bound => executes k (Nat.lt_succ_of_lt bound)
    have now := executes n (Nat.lt_succ_self n)
    have memory := @nextMemory_eq _ program _ same
    have core := carries.cpu_step same now.fetched (inputs n)
    refine ⟨?_, core⟩
    have stepped := carries.step now.toWithinBus (inputs n)
    rw [← memory] at stepped
    exact stepped

/-- What is handed to the bus has arrived, but for the store that crosses it. -/
theorem run_crosses (small : image.mem.size ≤ 134217728) (n : ℕ)
    (executes : ∀ k < n, Executes program (simAt contents image inputs k)) :
    deliveredAt contents image inputs n ++ crossing (phaseAt contents image inputs n) =
      stores (System.suppliedLogAt program (powerUpSetup contents) (powerUpHart contents image)
        (fun k => (simAt contents image inputs k).supply) n) := by
  induction n with
  | zero => rfl
  | succ n inductionHypothesis =>
    have before := fun k (bound : k < n) => executes k (Nat.lt_succ_of_lt bound)
    obtain ⟨carries, same⟩ := run_carries small n before
    have crosses :=
      carries.crosses (Top.answer ((simAt contents image inputs n).topInputs (inputs n)))
    have emitted := @accepted_emitted _ program _ same
    rw [deliveredAt, Clocked.logAt_succ, List.append_assoc]
    refine Eq.trans (congrArg _ crosses.symm) ?_
    rw [← List.append_assoc, ← emitted, System.suppliedLogAt, Clocked.logAt_succ, stores_append]
    exact congrArg (· ++ _) (inductionHypothesis before)

/-- The memory is the image with what was delivered to it. -/
theorem run_memory (contents : PowerUp) (image : SimMemory) (inputs : ℕ → Inputs) (n : ℕ) :
    (simAt contents image inputs n).mem =
      (deliveredAt contents image inputs n).foldl take image := by
  induction n with
  | zero => rfl
  | succ n inductionHypothesis =>
    have taken := nextMem_deliveries (simAt contents image inputs n)
    rw [deliveredAt, Clocked.logAt_succ, List.foldl_append]
    rw [inductionHypothesis] at taken
    exact taken

/-! ## The bus answers -/

/-- The cycles until the access in flight is over. -/
def remaining : BusPhase → ℕ
  | .ready _ => 0
  | .readIssued _ => 4
  | .readAddressed _ => 3
  | .readPending _ => 2
  | .readSupplied _ _ => 1
  | .writeIssued _ _ _ => 5
  | .writeAddressed _ _ _ => 4
  | .writeAccepted _ _ _ => 3
  | .writeDelivering _ _ _ => 2
  | .writeDelivered _ _ _ => 1

section Answers

variable (small : image.mem.size ≤ 134217728)
    (executes : ∀ k, Executes program (simAt contents image inputs k))

include small executes

theorem carries_at (n : ℕ) :
    Carries (phaseAt contents image inputs n) (simAt contents image inputs n)
    (idealAt program contents image inputs n).dataMemory :=
      (run_carries small n fun k _ => executes k).1

/-- An access in flight comes closer to its end in every cycle. -/
theorem remaining_succ {n : ℕ} {a : Word}
    (flying : (phaseAt contents image inputs n).address = some a) :
    remaining (phaseAt contents image inputs (n + 1)) <
      remaining (phaseAt contents image inputs n) ∧
      (phaseAt contents image inputs (n + 1)).memAccessState =
        (phaseAt contents image inputs n).memAccessState ∧
      (phaseAt contents image inputs (n + 1)).awaited = some a := by
  have carries := carries_at small executes n
  refine ⟨?_, BusPhase.memAccessState_next flying _ _, BusPhase.awaited_next flying _ _⟩
  rw [phaseAt]
  cases current : phaseAt contents image inputs n with
  | ready finished =>
    rw [current] at flying
    cases flying
  | readPending b =>
    rw [BusPhase.next, carries.answer (inputs n) current]
    exact Nat.lt_succ_self 1
  | _ => exact Nat.lt_succ_self _

/-- An access that is awaited is over after some cycles. -/
theorem eventually_over {n : ℕ} {a : Word}
    (awaited : (phaseAt contents image inputs n).awaited = some a) :
    ∃ m ≥ n, ∃ access, phaseAt contents image inputs m = .ready (some access) ∧
      access.address = a ∧
      (phaseAt contents image inputs m).memAccessState =
        (phaseAt contents image inputs n).memAccessState := by
  refine @Clocked.runs_out (fun k rank => remaining (phaseAt contents image inputs k) = rank ∧
    (phaseAt contents image inputs k).awaited = some a ∧
    (phaseAt contents image inputs k).memAccessState =
      (phaseAt contents image inputs n).memAccessState) _ ?_ n _
    ⟨rfl, awaited, rfl⟩
  rintro k _ ⟨rfl, awaited', state⟩
  cases flying : (phaseAt contents image inputs k).address with
  | some b =>
    obtain ⟨closer, state', awaited''⟩ := remaining_succ small executes flying
    obtain rfl : b = a := Option.some.inj ((BusPhase.awaited_flying flying).symm.trans awaited')
    exact Or.inr ⟨_, closer, rfl, awaited'', state'.trans state⟩
  | none =>
    left
    cases current : phaseAt contents image inputs k with
    | ready finished =>
      rw [current] at awaited' state
      obtain _ | access := finished
      · cases awaited'
      · exact ⟨access, rfl, Option.some.inj awaited', state⟩
    | _ =>
      rw [current] at flying
      cases flying

/-- The wired bus answers every access of the core. -/
theorem bus_answers : System.BusAnswers program (powerUpSetup contents) (powerUpHart contents image)
    (fun k => (simAt contents image inputs k).supply) := by
  have same : ∀ n, (idealAt program contents image inputs n).cpu =
      (simAt contents image inputs n).cpu :=
    fun n => (run_carries small n fun k _ => executes k).2
  have state : ∀ n, (idealAt program contents image inputs n).cpu.mem.memAccessState =
      (phaseAt contents image inputs n).memAccessState := by
    intro n
    rw [same n]
    exact (carries_at small executes n).state
  -- MEM leaves `Idle` with a request only, whose address the phase carries
  have awaits : ∀ n, (phaseAt contents image inputs n).memAccessState ≠ .idle →
      ∃ a, (phaseAt contents image inputs n).awaited = some a := by
    intro n busy
    cases current : phaseAt contents image inputs n with
    | ready finished =>
      obtain _ | access := finished
      · rw [current] at busy
        exact absurd rfl busy
      · exact ⟨access.address, rfl⟩
    | _ => exact ⟨_, rfl⟩
  refine ⟨fun n idle _ => ⟨n, le_rfl, ?_⟩, fun n reading => ?_, fun n writing => ?_⟩
  · -- MEM is idle when nothing is in flight, so the master grants
    have phase := (state n).symm.trans idle
    change (CPU.busInputs (simAt contents image inputs n).top.axiMaster).granted = true
    rw [(carries_at small executes n).granted]
    cases current : phaseAt contents image inputs n with
    | ready finished => rfl
    | _ =>
      rw [current] at phase
      exact MemoryAccessStates.noConfusion phase
  · have phase := (state n).symm.trans reading
    obtain ⟨a, awaited⟩ := awaits n (by rw [phase]; exact MemoryAccessStates.noConfusion)
    obtain ⟨m, later, access, ended, _, kept⟩ := eventually_over small executes awaited
    refine ⟨m, later, ?_⟩
    have valid := (carries_at small executes m).control.1
    rw [ended] at kept valid
    cases access with
    | read b d => exact valid
    | write b d s => exact MemoryAccessStates.noConfusion (kept.trans phase)
  · have phase := (state n).symm.trans writing
    obtain ⟨a, awaited⟩ := awaits n (by rw [phase]; exact MemoryAccessStates.noConfusion)
    obtain ⟨m, later, access, ended, _, kept⟩ := eventually_over small executes awaited
    refine ⟨m, later, ?_⟩
    have valid := (carries_at small executes m).control.2
    rw [ended] at kept valid
    cases access with
    | read b d => exact MemoryAccessStates.noConfusion (kept.trans phase)
    | write b d s => exact valid

/-- A store that has been handed to the bus arrives. -/
theorem eventually_arrives (n : ℕ) : ∃ m ≥ n, crossing (phaseAt contents image inputs m) = [] := by
  cases awaited : (phaseAt contents image inputs n).awaited with
  | none =>
    refine ⟨n, le_rfl, ?_⟩
    cases current : phaseAt contents image inputs n with
    | ready finished => rfl
    | _ =>
      rw [current] at awaited
      cases awaited
  | some a =>
    obtain ⟨m, later, access, ended, _⟩ := eventually_over small executes awaited
    exact ⟨m, later, by rw [ended]; rfl⟩

end Answers

variable (program contents image inputs) in
/-- A cycle that keeps to the program, and keeps its order. -/
def Undisturbed (k : ℕ) : Prop :=
  Executes program (simAt contents image inputs k) ∧
    System.Sequenced program (idealAt program contents image inputs k)
      (simAt contents image inputs k).supply

instance (k : ℕ) : Decidable (Undisturbed program contents image inputs k) :=
  inferInstanceAs (Decidable (_ ∧ _))

theorem delivered_stores (small : image.mem.size ≤ 134217728)
    (run : Rv32im.Machine.LegalRun CSR.legal CSR.plain program
      (System.startMachine (powerUpSetup contents) (powerUpHart contents image))) (n : ℕ)
    (undisturbed : ∀ k < n, Undisturbed program contents image inputs k) :
    ∃ m, deliveredAt contents image inputs n <+:
      stores (System.machineLog program (powerUpSetup contents)
        (powerUpHart contents image) m) := by
  have crosses := run_crosses small n fun k bound => (undisturbed k bound).1
  obtain ⟨m, _, logged⟩ :=
    System.supplied_refines (powerUp_masked contents) run n fun k bound => (undisturbed k bound).2
  refine ⟨m, ?_⟩
  rw [← logged, stores_append, ← crosses, List.append_assoc]
  exact List.prefix_append _ _

/-- While the program reads only the memory, what reaches the memory and the peripherals is, in
    order, what the sequential machine stores, and the memory is the image with those stores in
    it. -/
theorem delivers_stores (small : image.mem.size ≤ 134217728)
    (run : Rv32im.Machine.LegalRun CSR.legal CSR.plain program
      (System.startMachine (powerUpSetup contents) (powerUpHart contents image))) (n : ℕ)
    (undisturbed : ∀ k < n, Undisturbed program contents image inputs k) :
    (∃ m, deliveredAt contents image inputs n <+:
        stores (System.machineLog program (powerUpSetup contents) (powerUpHart contents image) m)) ∧
      (simAt contents image inputs n).mem =
        (deliveredAt contents image inputs n).foldl take image :=
  ⟨delivered_stores small run n undisturbed, run_memory contents image inputs n⟩

/-- An image with the words of `storeSum` at the entry address, followed by two `nop`s. -/
def storeSumImage : SimMemory :=
  ⟨(List.replicate 1024 0#32 ++ [0x00500093#32, 0x00102023#32, 0x00108193#32,
  0x00002103#32, 0x00310233#32,
    0xFE0006E3#32] ++ List.replicate 2 InstructionsNop.nop).toArray⟩

theorem storeSum_delivers :
    (∃ m, deliveredAt .zero storeSumImage (fun _ => ⟨0#32, 0#32⟩) 18 <+:
        stores (System.machineLog System.storeSum (powerUpSetup .zero)
          (powerUpHart .zero storeSumImage) m)) ∧
      (simAt .zero storeSumImage (fun _ => ⟨0#32, 0#32⟩) 18).mem =
        (deliveredAt .zero storeSumImage (fun _ => ⟨0#32, 0#32⟩) 18).foldl take storeSumImage :=
  delivers_stores (by decide +kernel)
    (Rv32im.Machine.legalRun_ofWords (by decide) _) 18 (by decide +kernel)

example : deliveredAt .zero storeSumImage (fun _ => ⟨0#32, 0#32⟩) 18 =
    [⟨0, 0#32, 5#32, 0xf#4⟩] := by decide +kernel

/-- The verdict on a program that reads only the memory comes from what the sequential machine's
    stores leave there, the last of them the one that asks for it. -/
theorem testResult_stored (small : image.mem.size ≤ 134217728)
    (run : Rv32im.Machine.LegalRun CSR.legal CSR.plain program
      (System.startMachine (powerUpSetup contents) (powerUpHart contents image))) (n : ℕ)
    (undisturbed : ∀ k < n + 1, Undisturbed program contents image inputs k) {result : Word}
    (reported : (simAt contents image inputs n).testResult = some result) :
    ∃ m stored strobe, stored ++ [⟨0, 0x100#32, 0xCAFEF00D#32, strobe⟩] <+:
        stores (System.machineLog program (powerUpSetup contents) (powerUpHart contents image) m) ∧
      result = ((stored ++
        [⟨0, 0x100#32, 0xCAFEF00D#32, strobe⟩]).foldl take image).read 0x104#32 := by
  obtain ⟨m, delivers⟩ := (delivered_stores small run (n + 1) undisturbed)
  rw [testResult] at reported
  split_ifs at reported with asked
  obtain ⟨written, place, magic⟩ := asked
  have first : delivered 0 (simAt contents image inputs n).top.memSlave =
      [⟨0, 0x100#32, 0xCAFEF00D#32, (simAt contents image inputs n).top.memSlave.writeStrobe⟩] := by
    rw [delivered, if_pos written, place, magic]
    rfl
  refine ⟨m, deliveredAt contents image inputs n,
    (simAt contents image inputs n).top.memSlave.writeStrobe, ?_, ?_⟩
  · refine List.IsPrefix.trans ?_ delivers
    rw [deliveredAt, deliveredAt, Clocked.logAt_succ, ← first, deliveries, List.append_assoc]
    exact List.prefix_append_right_inj _ |>.mpr (List.prefix_append _ _)
  · rw [List.foldl_append, ← run_memory, List.foldl_cons, List.foldl_nil, take, if_pos rfl,
      ← Option.some.inj reported, nextMem, if_pos written, place, magic]

/-- `lui x1, 0xCAFEF`, `addi x1, x1, 13`, `addi x2, x0, 63`, `sw x2, 0x104(x0)`, `sw x1,
    0x100(x0)`. -/
def passTest : List Word :=
  [0xCAFEF0B7#32, 0x00D08093#32, 0x03F00113#32, 0x10202223#32, 0x10102023#32]

def passTestImage : SimMemory :=
  ⟨(List.replicate 1024 0#32 ++ passTest ++ List.replicate 8 InstructionsNop.nop).toArray⟩

theorem passTest_reported :
    ∃ m stored strobe, stored ++ [⟨0, 0x100#32, 0xCAFEF00D#32, strobe⟩] <+:
        stores (System.machineLog (.ofWords ProgramCounter.entryAddress passTest)
          (powerUpSetup .zero)
          (powerUpHart .zero passTestImage) m) ∧
      0x3F#32 = ((stored ++
        [⟨0, 0x100#32, 0xCAFEF00D#32, strobe⟩]).foldl take passTestImage).read 0x104#32 :=
  @testResult_stored _ .zero passTestImage (fun _ => ⟨0#32, 0#32⟩) (by decide +kernel)
    (Rv32im.Machine.legalRun_ofWords (by decide) _) 17 (by decide +kernel) _ (by decide +kernel)

/-- Every store of the sequential machine arrives, unless a branch waits for its own copy. -/
theorem delivers_every_store (small : image.mem.size ≤ 134217728)
    (run : Rv32im.Machine.LegalRun CSR.legal CSR.plain program
      (System.startMachine (powerUpSetup contents) (powerUpHart contents image)))
    (undisturbed : ∀ k, Undisturbed program contents image inputs k)
    (once : ∀ k, PipelinedCPU.copiesItself (simAt contents image inputs k).cpu
      (simAt contents image inputs k).cpuInputs = false) (m : ℕ) :
    ∃ n, stores (System.machineLog program (powerUpSetup contents)
      (powerUpHart contents image) m) <+:
      deliveredAt contents image inputs n := by
  have executes := fun k => (undisturbed k).1
  have fair := System.eventually_served (powerUp_masked contents) run
    (fun k => (undisturbed k).2) (fun _ => rfl)
    (bus_answers small executes) fun k => by
      obtain ⟨carries, same⟩ := run_carries small k fun k _ => executes k
      rw [← once k]
      exact carries.copies_itself same (executes k).fetched
  obtain ⟨n, covered⟩ :=
    System.log_complete (powerUp_masked contents) run (fun k => (undisturbed k).2) fair m
  obtain ⟨n', later, arrived⟩ := eventually_arrives small executes n
  refine ⟨n', ?_⟩
  have crosses := run_crosses small n' fun k _ => executes k
  rw [arrived, List.append_nil] at crosses
  rw [crosses]
  exact (covered.trans (Clocked.logAt_isPrefix _ _ _ _ later)).filterMap storeDelivery

end Runs

end Simulation

end MyCpu
