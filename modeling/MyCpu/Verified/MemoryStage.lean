import MyCpu.Bus.Top
import MyCpu.Lib.Clocked

/-! # The memory stage accesses the bus once per instruction

The MEM stage (`MemoryAccess.scala`) with the AXI master it drives
(`AXI4LiteMaster`, through the adapter of `CPU.scala`), closed by a slave that
keeps the AXI ordering rules and is otherwise free: it accepts an address or a
data beat, and answers, in any cycle it likes, but answers only what it has
accepted.

`AccessPhase` is the progress of the instruction in MEM.  It determines both state
machines, the handshakes already made and the events caused so far, so one step
lemma per phase gives the transcript of every instruction. -/

namespace MyCpu

/-! ## A slave of any latency -/

/-- What the slave offers in a cycle. -/
structure SlaveOffer where
  ARREADY : Bool
  RVALID : Bool
  RDATA : Word
  AWREADY : Bool
  WREADY : Bool
  BVALID : Bool
deriving DecidableEq, Repr

/-- The handshakes that the slave has accepted and not answered yet. -/
structure AcceptedHandshakes where
  readAddress : Bool
  writeAddress : Bool
  writeData : Bool
deriving DecidableEq, Repr

namespace AcceptedHandshakes

def none : AcceptedHandshakes := ⟨false, false, false⟩

variable (accepted : AcceptedHandshakes) (io : AXI4LiteMasterChannels 32) (offer : SlaveOffer)

/-- `RVALID` waits for the read address, `BVALID` for the write address and the write data. -/
def channels : AXI4LiteSlaveChannels where
  ARREADY := offer.ARREADY
  RVALID := offer.RVALID && (accepted.readAddress || (io.ARVALID && offer.ARREADY))
  RDATA := offer.RDATA
  RRESP := 0#2
  AWREADY := offer.AWREADY
  WREADY := offer.WREADY
  BVALID := offer.BVALID && (accepted.writeAddress || (io.AWVALID && offer.AWREADY)) &&
    (accepted.writeData || (io.WVALID && offer.WREADY))
  BRESP := 0#2

def step : AcceptedHandshakes where
  readAddress :=
    (accepted.readAddress || (io.ARVALID && offer.ARREADY)) &&
      !((accepted.channels io offer).RVALID && io.RREADY)
  writeAddress :=
    (accepted.writeAddress || (io.AWVALID && offer.AWREADY)) &&
      !((accepted.channels io offer).BVALID && io.BREADY)
  writeData :=
    (accepted.writeData || (io.WVALID && offer.WREADY)) &&
      !((accepted.channels io offer).BVALID && io.BREADY)

end AcceptedHandshakes

/-! ## The stage -/

structure MemoryStage where
  ex2mem : EX2MEM
  mem : MemoryAccess
  axiMaster : AXI4LiteMaster 32
  accepted : AcceptedHandshakes

/-- A handshake on one of the channels, or the instruction leaving MEM with the data it loaded. -/
inductive AxiEvent where
  | ar (address : Word)
  | r (data : Word)
  | aw (address : Word)
  | w (data : Word) (strobe : Strobe)
  | b
  | release (instruction : EX2MEM) (loaded : Option Word)
deriving DecidableEq, Repr

namespace MemoryStage

/-- The next instruction of EX and the slave's offer. -/
structure Inputs where
  ex2mem : EX2MEM
  offer : SlaveOffer

def reset : MemoryStage where
  ex2mem := EX2MEM.reset
  mem := MemoryAccess.reset
  axiMaster := AXI4LiteMaster.reset 32
  accepted := .none

variable (stage : MemoryStage) (io : Inputs)

def busInputs : BusInputs := CPU.busInputs stage.axiMaster

def busOutputs : BusOutputs := MemoryAccess.busOutputs stage.mem stage.ex2mem

def slaveChannels : AXI4LiteSlaveChannels :=
  stage.accepted.channels stage.axiMaster.channels io.offer

def ctrlStallFlag : Bool := MemoryAccess.ctrlStallFlag stage.mem stage.ex2mem (busInputs stage)

def step : MemoryStage where
  ex2mem := pipelineRegister EX2MEM.reset (ctrlStallFlag stage) false io.ex2mem stage.ex2mem
  mem := MemoryAccess.step stage.mem stage.ex2mem (busInputs stage)
  axiMaster := stage.axiMaster.step (CPU.masterRequest (busOutputs stage)) (slaveChannels stage io)
  accepted := stage.accepted.step stage.axiMaster.channels io.offer

/-- The data that a load takes to WB. -/
def loaded : Option Word :=
  if stage.ex2mem.memoryReadEnable then
    some (MemoryAccess.wbMemoryReadData stage.mem stage.ex2mem (busInputs stage))
  else none

/-- The handshakes of this cycle, then the release. -/
def emit : List AxiEvent :=
  (if stage.axiMaster.ARVALID && (slaveChannels stage io).ARREADY then
    [.ar stage.axiMaster.addr] else []) ++
  (if (slaveChannels stage io).RVALID && stage.axiMaster.RREADY then
    [.r (slaveChannels stage io).RDATA] else []) ++
  (if stage.axiMaster.AWVALID && (slaveChannels stage io).AWREADY then
    [.aw stage.axiMaster.addr] else []) ++
  (if stage.axiMaster.WVALID && (slaveChannels stage io).WREADY
    then [.w stage.axiMaster.writeData stage.axiMaster.writeStrobe] else []) ++
  (if (slaveChannels stage io).BVALID && stage.axiMaster.BREADY then [.b] else []) ++
  (if !ctrlStallFlag stage then [.release stage.ex2mem (loaded stage)] else [])

/-- The instruction clocked into MEM at the end of this cycle. -/
def enters : List EX2MEM := if !ctrlStallFlag stage then [io.ex2mem] else []

end MemoryStage

/-! ## What one instruction must cause -/

namespace EX2MEM

def loads (io : EX2MEM) : Bool := io.memoryReadEnable

def stores (io : EX2MEM) : Bool := !io.memoryReadEnable && io.memoryWriteEnable

def strobedData (io : EX2MEM) : Word :=
  MemoryAccess.storeData io.funct3 (MemoryAccess.memAddressIndex io) io.reg2Data

def strobe (io : EX2MEM) : Strobe :=
  MemoryAccess.storeStrobe io.funct3 (MemoryAccess.memAddressIndex io)

/-- The address and data handshakes of a store, in either order. -/
def storeHandshakes (io : EX2MEM) (dataFirst : Bool) : List AxiEvent :=
  if dataFirst then [.w io.strobedData io.strobe, .aw (MemoryAccess.busAddress io)]
  else [.aw (MemoryAccess.busAddress io), .w io.strobedData io.strobe]

/-- The transcript of an instruction in MEM, with nothing before, between or after. -/
inductive Completes (io : EX2MEM) : List AxiEvent → Prop
  | load (data : Word) (isLoad : io.loads = true) : Completes io
      [.ar (MemoryAccess.busAddress io), .r data,
        .release io (some (MemoryAccess.processedData io.funct3
          (MemoryAccess.memAddressIndex io) data))]
  | store (dataFirst : Bool) (isStore : io.stores = true) : Completes io
      (io.storeHandshakes dataFirst ++ [.b, .release io .none])
  | other (noLoad : io.loads = false) (noStore : io.stores = false) :
      Completes io [.release io .none]

end EX2MEM

/-! ## Progress of the instruction in MEM -/

inductive AccessPhase where
  | idle
  | reading (addressed : Bool)
  | readDone (data : Word)
  | writing (addressed : Bool)
  | responding (addressed dataFirst : Bool)
  | writeDone (dataFirst : Bool)

namespace AccessPhase

/-- The events caused so far. -/
def transcript (io : EX2MEM) : AccessPhase → List AxiEvent
  | .idle | .reading false | .writing false => []
  | .reading true => [.ar (MemoryAccess.busAddress io)]
  | .readDone data => [.ar (MemoryAccess.busAddress io), .r data]
  | .writing true => [.aw (MemoryAccess.busAddress io)]
  | .responding false _ => [.w io.strobedData io.strobe]
  | .responding true dataFirst => io.storeHandshakes dataFirst
  | .writeDone dataFirst => io.storeHandshakes dataFirst ++ [.b]

/-- One cycle, given the instruction in MEM and the slave's offer. -/
def next (io : EX2MEM) (offer : SlaveOffer) : AccessPhase → AccessPhase
  | .idle => if io.loads then .reading false else if io.stores then .writing false else .idle
  | .reading addressed =>
    if (addressed || offer.ARREADY) && offer.RVALID then .readDone offer.RDATA
    else .reading (addressed || offer.ARREADY)
  | .writing addressed =>
    if offer.WREADY then .responding (addressed || offer.AWREADY) (!(addressed || offer.AWREADY))
    else .writing (addressed || offer.AWREADY)
  | .responding addressed dataFirst =>
    if (addressed || offer.AWREADY) && offer.BVALID then .writeDone dataFirst
    else .responding (addressed || offer.AWREADY) dataFirst
  | .readDone _ | .writeDone _ => .idle

/-- The instruction leaves MEM in this cycle. -/
def releases (io : EX2MEM) : AccessPhase → Bool
  | .idle => !io.loads && !io.stores
  | .readDone _ | .writeDone _ => true
  | .reading _ | .writing _ | .responding _ _ => false

def memAccessState : AccessPhase → MemoryAccessStates
  | .idle => .idle
  | .reading _ | .readDone _ => .read
  | .writing _ | .responding _ _ | .writeDone _ => .write

def masterControl : AccessPhase → AXI4LiteMaster.Control
  | .idle => ⟨.idle, false, false, false, false, false, false, false⟩
  | .reading addressed => ⟨.readData, !addressed, true, false, false, false, false, false⟩
  | .readDone _ => ⟨.idle, false, false, false, false, false, true, false⟩
  | .writing addressed => ⟨.writeData, false, false, !addressed, true, false, false, false⟩
  | .responding addressed _ => ⟨.writeResp, false, false, !addressed, false, true, false, false⟩
  | .writeDone _ => ⟨.idle, false, false, false, false, false, false, true⟩

def accepted : AccessPhase → AcceptedHandshakes
  | .idle | .readDone _ | .writeDone _ => .none
  | .reading addressed => ⟨addressed, false, false⟩
  | .writing addressed => ⟨false, addressed, false⟩
  | .responding addressed _ => ⟨false, addressed, true⟩

/-- The instruction and the master's data registers belong to the phase. -/
def Data (io : EX2MEM) (master : AXI4LiteMaster 32) : AccessPhase → Prop
  | .idle => True
  | .reading _ => io.loads = true ∧ master.addr = MemoryAccess.busAddress io
  | .readDone data => io.loads = true ∧ master.readData = data
  | .writing _ | .writeDone _ =>
    io.stores = true ∧ master.addr = MemoryAccess.busAddress io ∧
      master.writeData = io.strobedData ∧
      master.writeStrobe = io.strobe
  | .responding addressed dataFirst =>
    io.stores = true ∧ master.addr = MemoryAccess.busAddress io ∧
      master.writeData = io.strobedData ∧
      master.writeStrobe = io.strobe ∧ (addressed = false → dataFirst = true)

/-- Both state machines and the slave are in the phase. -/
structure Matches (phase : AccessPhase) (stage : MemoryStage) : Prop where
  mem : stage.mem.memAccessState = phase.memAccessState
  master : stage.axiMaster.control = phase.masterControl
  accepted : stage.accepted = phase.accepted
  data : phase.Data stage.ex2mem stage.axiMaster

end AccessPhase

/-! ## One cycle -/

namespace AccessPhase

variable {phase : AccessPhase} {stage : MemoryStage}

theorem Matches.registers (inPhase : phase.Matches stage) :
    stage.axiMaster.state = phase.masterControl.state ∧ stage.axiMaster.ARVALID =
      phase.masterControl.ARVALID ∧
      stage.axiMaster.RREADY = phase.masterControl.RREADY ∧ stage.axiMaster.AWVALID =
        phase.masterControl.AWVALID ∧
      stage.axiMaster.WVALID = phase.masterControl.WVALID ∧ stage.axiMaster.BREADY =
        phase.masterControl.BREADY ∧
      stage.axiMaster.readValid = phase.masterControl.readValid ∧
      stage.axiMaster.writeValid = phase.masterControl.writeValid := by
  rw [← inPhase.master]
  exact ⟨rfl, rfl, rfl, rfl, rfl, rfl, rfl, rfl⟩

theorem Matches.ctrlStallFlag (inPhase : phase.Matches stage) :
    stage.ctrlStallFlag = !phase.releases stage.ex2mem := by
  -- MEM holds its instruction until the phase releases it
  obtain ⟨_, _, _, _, _, _, readValid, writeValid⟩ := inPhase.registers
  have mem := inPhase.mem
  rw [MemoryStage.ctrlStallFlag, MemoryAccess.ctrlStallFlag, mem,
    MemoryStage.busInputs, CPU.busInputs]
  cases phase <;>
    simp_all [memAccessState, releases, masterControl, EX2MEM.loads, EX2MEM.stores]
  cases stage.ex2mem.memoryReadEnable <;> cases stage.ex2mem.memoryWriteEnable <;> rfl

theorem Matches.nextAccepted (inPhase : phase.Matches stage) (io : MemoryStage.Inputs) :
    stage.accepted.step stage.axiMaster.channels io.offer =
      (phase.next stage.ex2mem io.offer).accepted := by
  obtain ⟨_, arvalid, rready, awvalid, wvalid, bready, _, _⟩ := inPhase.registers
  have accepted := inPhase.accepted
  simp only [AcceptedHandshakes.step, AcceptedHandshakes.channels, AXI4LiteMaster.channels,
    arvalid, rready, awvalid, wvalid, bready, accepted]
  cases phase with
  | idle =>
    simp only [next]
    split
    · rfl
    · split <;> rfl
  | readDone | writeDone => rfl
  | reading addressed =>
    cases addressed <;> cases ready : io.offer.ARREADY <;> cases valid : io.offer.RVALID <;>
      simp [next, ready, valid, AccessPhase.accepted, masterControl, AcceptedHandshakes.none]
  | writing addressed =>
    cases addressed <;> cases ready : io.offer.AWREADY <;> cases data : io.offer.WREADY <;>
      simp [next, ready, data, AccessPhase.accepted, masterControl]
  | responding addressed dataFirst =>
    cases addressed <;> cases ready : io.offer.AWREADY <;> cases valid : io.offer.BVALID <;>
      simp [next, ready, valid, AccessPhase.accepted, masterControl, AcceptedHandshakes.none]

theorem Matches.nextMem (inPhase : phase.Matches stage) (io : MemoryStage.Inputs) :
    (stage.step io).mem.memAccessState = (phase.next stage.ex2mem io.offer).memAccessState := by
  obtain ⟨state, _, _, _, _, _, readValid, writeValid⟩ := inPhase.registers
  have mem := inPhase.mem
  simp only [MemoryStage.step, MemoryAccess.step, MemoryAccess.nextState, mem,
    MemoryStage.busInputs, CPU.busInputs, AXI4LiteMaster.busy, state, readValid, writeValid]
  cases phase with
  | idle =>
    cases load : stage.ex2mem.memoryReadEnable <;> cases store : stage.ex2mem.memoryWriteEnable <;>
      simp [next, memAccessState, masterControl, EX2MEM.loads, EX2MEM.stores, load, store]
  | readDone | writeDone => rfl
  | reading addressed =>
    cases valid : (addressed || io.offer.ARREADY) && io.offer.RVALID <;>
      simp [next, valid, memAccessState, masterControl]
  | writing addressed =>
    cases taken : io.offer.WREADY <;> simp [next, taken, memAccessState, masterControl]
  | responding addressed dataFirst =>
    cases valid : (addressed || io.offer.AWREADY) && io.offer.BVALID <;>
      simp [next, valid, memAccessState, masterControl]

theorem Matches.request (inPhase : phase.Matches stage) :
    (CPU.masterRequest stage.busOutputs).address = MemoryAccess.busAddress stage.ex2mem ∧
      (CPU.masterRequest stage.busOutputs).read =
        (decide (phase.memAccessState = .idle) && stage.ex2mem.loads) ∧
      (CPU.masterRequest stage.busOutputs).write =
        (decide (phase.memAccessState = .idle) && stage.ex2mem.stores) ∧
      (phase.memAccessState = .idle → stage.ex2mem.stores = true →
        (CPU.masterRequest stage.busOutputs).writeData = stage.ex2mem.strobedData ∧
          (CPU.masterRequest stage.busOutputs).writeStrobe = stage.ex2mem.strobe) := by
  -- the request of MEM to the master: only an idle stage asks, and for its own instruction
  have mem := inPhase.mem
  simp only [CPU.masterRequest, MemoryStage.busOutputs, MemoryAccess.busOutputs,
    CPU.fullBusAddress_eq, MemoryAccess.startsRead, MemoryAccess.startsWrite, mem, EX2MEM.loads,
    EX2MEM.stores, EX2MEM.strobedData, EX2MEM.strobe]
  cases phase.memAccessState <;> cases stage.ex2mem.memoryReadEnable <;> cases stage.ex2mem.memoryWriteEnable <;> simp

theorem Matches.nextMaster (inPhase : phase.Matches stage) (io : MemoryStage.Inputs) :
    (stage.step io).axiMaster.control = (phase.next stage.ex2mem io.offer).masterControl ∧
      (phase.releases stage.ex2mem = false →
        (phase.next stage.ex2mem io.offer).Data stage.ex2mem (stage.step io).axiMaster) := by
  obtain ⟨state, arvalid, rready, awvalid, wvalid, bready, readValid, writeValid⟩ :=
    inPhase.registers
  obtain ⟨address, read, write, writeData⟩ := inPhase.request
  have accepted := inPhase.accepted
  have data := inPhase.data
  simp only [MemoryStage.step, AXI4LiteMaster.step, state, arvalid, rready, awvalid, wvalid,
    bready, address, read, write, MemoryStage.slaveChannels, AcceptedHandshakes.channels,
    AXI4LiteMaster.channels, accepted]
  cases phase with
  | idle =>
    cases loads : stage.ex2mem.loads with
    | true =>
      have stores : stage.ex2mem.stores = false := by
        simp only [EX2MEM.loads] at loads
        simp [EX2MEM.stores, loads]
      simp_all [next, memAccessState, masterControl, AXI4LiteMaster.control, Data]
    | false =>
      cases stores : stage.ex2mem.stores <;>
        simp_all [next, memAccessState, masterControl, AXI4LiteMaster.control, Data, releases]
  | readDone | writeDone =>
    simp [next, memAccessState, masterControl, AXI4LiteMaster.control, releases]
  | reading addressed =>
    cases addressed <;> cases ready : io.offer.ARREADY <;> cases valid : io.offer.RVALID <;>
      simp_all [next, masterControl, AXI4LiteMaster.control, Data, releases, AccessPhase.accepted]
  | writing addressed =>
    cases addressed <;> cases ready : io.offer.AWREADY <;> cases taken : io.offer.WREADY <;>
      simp_all [next, masterControl, AXI4LiteMaster.control, Data, releases, AccessPhase.accepted]
  | responding addressed dataFirst =>
    cases addressed <;> cases ready : io.offer.AWREADY <;> cases valid : io.offer.BVALID <;>
      simp_all [next, masterControl, AXI4LiteMaster.control, Data, releases, AccessPhase.accepted]

/-- One cycle moves both state machines to the next phase. -/
theorem matches_next (inPhase : phase.Matches stage) (io : MemoryStage.Inputs) :
    (phase.next stage.ex2mem io.offer).Matches (stage.step io) := by
  obtain ⟨control, data⟩ := inPhase.nextMaster io
  refine ⟨inPhase.nextMem io, control, inPhase.nextAccepted io, ?_⟩
  have held : (stage.step io).ex2mem =
      pipelineRegister EX2MEM.reset
        (!phase.releases stage.ex2mem) false io.ex2mem stage.ex2mem := by
    rw [MemoryStage.step, inPhase.ctrlStallFlag]
  cases released : phase.releases stage.ex2mem with
  | false =>
    rw [released] at held
    rw [held]
    exact data released
  | true =>
    have idle : phase.next stage.ex2mem io.offer = .idle := by
      cases phase <;> simp_all [releases, next]
    rw [idle]
    trivial

theorem matches_reset : idle.Matches MemoryStage.reset := ⟨rfl, rfl, rfl, trivial⟩

/-! ## Events -/

/-- The events of one cycle, as the phase prescribes them. -/
def emit (io : EX2MEM) (offer : SlaveOffer) : AccessPhase → List AxiEvent
  | .idle => if !io.loads && !io.stores then [.release io .none] else []
  | .reading addressed =>
    (if !addressed && offer.ARREADY then [.ar (MemoryAccess.busAddress io)] else []) ++
      (if (addressed || offer.ARREADY) && offer.RVALID then [.r offer.RDATA] else [])
  | .readDone data =>
    [.release io
      (some (MemoryAccess.processedData io.funct3 (MemoryAccess.memAddressIndex io) data))]
  | .writing addressed =>
    (if !addressed && offer.AWREADY then [.aw (MemoryAccess.busAddress io)] else []) ++
      (if offer.WREADY then [.w io.strobedData io.strobe] else [])
  | .responding addressed _ =>
    (if !addressed && offer.AWREADY then [.aw (MemoryAccess.busAddress io)] else []) ++
      (if (addressed || offer.AWREADY) && offer.BVALID then [.b] else [])
  | .writeDone _ => [.release io .none]

theorem Matches.emit (inPhase : phase.Matches stage) (io : MemoryStage.Inputs) :
    stage.emit io = phase.emit stage.ex2mem io.offer := by
  obtain ⟨_, arvalid, rready, awvalid, wvalid, bready, readValid, _⟩ := inPhase.registers
  have accepted := inPhase.accepted
  have data := inPhase.data
  have mem := inPhase.mem
  simp only [MemoryStage.emit, inPhase.ctrlStallFlag, MemoryStage.slaveChannels,
    AcceptedHandshakes.channels, AXI4LiteMaster.channels, arvalid, rready, awvalid,
    wvalid, bready, accepted]
  cases phase with
  | idle =>
    cases loads : stage.ex2mem.loads <;> cases stores : stage.ex2mem.stores <;>
      simp_all [AccessPhase.emit, masterControl, releases, MemoryStage.loaded, EX2MEM.loads]
  | readDone value =>
    obtain ⟨loads, received⟩ := data
    simp only [EX2MEM.loads] at loads
    simp [AccessPhase.emit, masterControl, releases, MemoryStage.loaded, loads,
      MemoryAccess.wbMemoryReadData, MemoryAccess.readCompletes, mem, memAccessState,
      MemoryStage.busInputs, CPU.busInputs, readValid, received]
  | writeDone dataFirst =>
    have loads : stage.ex2mem.memoryReadEnable = false := by
      have stores := data.1
      simp only [EX2MEM.stores, Bool.and_eq_true, Bool.not_eq_true'] at stores
      exact stores.1
    simp [AccessPhase.emit, masterControl, releases, MemoryStage.loaded, loads]
  | reading addressed =>
    cases addressed <;> cases ready : io.offer.ARREADY <;> cases valid : io.offer.RVALID <;>
      simp_all [AccessPhase.emit, masterControl, releases, AccessPhase.accepted, Data]
  | writing addressed =>
    cases addressed <;> cases ready : io.offer.AWREADY <;> cases taken : io.offer.WREADY <;>
      simp_all [AccessPhase.emit, masterControl, releases, AccessPhase.accepted, Data]
  | responding addressed dataFirst =>
    cases addressed <;> cases ready : io.offer.AWREADY <;> cases valid : io.offer.BVALID <;>
      simp_all [AccessPhase.emit, masterControl, releases, AccessPhase.accepted, Data]

/-- An instruction that stays adds the events of the cycle to its transcript. -/
theorem Matches.transcript_held (inPhase : phase.Matches stage) (offer : SlaveOffer)
    (held : phase.releases stage.ex2mem = false) :
    phase.transcript stage.ex2mem ++ phase.emit stage.ex2mem offer =
      (phase.next stage.ex2mem offer).transcript stage.ex2mem := by
  have data := inPhase.data
  cases phase with
  | idle =>
    cases loads : stage.ex2mem.loads <;> cases stores : stage.ex2mem.stores <;>
      simp_all [transcript, AccessPhase.emit, next, releases]
  | readDone | writeDone => cases held
  | reading addressed =>
    cases addressed <;> cases ready : offer.ARREADY <;> cases valid : offer.RVALID <;>
      simp [transcript, AccessPhase.emit, next, ready, valid]
  | writing addressed =>
    cases addressed <;> cases ready : offer.AWREADY <;> cases taken : offer.WREADY <;>
      simp [transcript, AccessPhase.emit, next, ready, taken, EX2MEM.storeHandshakes]
  | responding addressed dataFirst =>
    -- while the address is still open the data came first
    obtain ⟨_, _, _, _, order⟩ := data
    cases addressed <;> cases ready : offer.AWREADY <;> cases valid : offer.BVALID <;>
      simp_all [transcript, AccessPhase.emit, next, EX2MEM.storeHandshakes]

/-- An instruction that leaves has a complete transcript. -/
theorem Matches.transcript_released (inPhase : phase.Matches stage) (offer : SlaveOffer)
    (released : phase.releases stage.ex2mem = true) :
    stage.ex2mem.Completes (phase.transcript stage.ex2mem ++ phase.emit stage.ex2mem offer) ∧
      phase.next stage.ex2mem offer = .idle := by
  have data := inPhase.data
  cases phase with
  | idle =>
    simp only [releases, Bool.and_eq_true, Bool.not_eq_true'] at released
    obtain ⟨loads, stores⟩ := released
    simp only [transcript, AccessPhase.emit, next, loads, stores]
    exact ⟨.other loads stores, rfl⟩
  | readDone value => exact ⟨.load value data.1, rfl⟩
  | writeDone dataFirst =>
    refine ⟨?_, rfl⟩
    rw [transcript, AccessPhase.emit, List.append_assoc]
    exact .store dataFirst data.1
  | reading | writing | responding => cases released

theorem Matches.transcript_unfinished (inPhase : phase.Matches stage) :
    ∃ rest, rest ≠ [] ∧ stage.ex2mem.Completes (phase.transcript stage.ex2mem ++ rest) := by
  -- what an instruction in MEM still has to cause
  have data := inPhase.data
  cases phase with
  | idle =>
    cases loads : stage.ex2mem.loads with
    | true => exact ⟨_, List.cons_ne_nil _ _, .load 0#32 loads⟩
    | false =>
      cases stores : stage.ex2mem.stores with
      | true => exact ⟨_, List.cons_ne_nil _ _, .store false stores⟩
      | false => exact ⟨_, List.cons_ne_nil _ _, .other loads stores⟩
  | reading addressed => cases addressed <;> exact ⟨_, List.cons_ne_nil _ _, .load 0#32 data.1⟩
  | readDone value => exact ⟨_, List.cons_ne_nil _ _, .load value data.1⟩
  | writing addressed => cases addressed <;> exact ⟨_, List.cons_ne_nil _ _, .store false data.1⟩
  | responding addressed dataFirst =>
    cases addressed with
    | false => exact ⟨_, List.cons_ne_nil _ _, .store true data.1⟩
    | true => exact ⟨_, List.cons_ne_nil _ _, .store dataFirst data.1⟩
  | writeDone dataFirst =>
    refine ⟨[.release stage.ex2mem .none], List.cons_ne_nil _ _, ?_⟩
    rw [transcript, List.append_assoc]
    exact .store dataFirst data.1

end AccessPhase

/-! ## Runs -/

namespace MemoryStage

def stateAt (inputs : ℕ → Inputs) : ℕ → MemoryStage := Clocked.stateAt step reset inputs

/-- The handshakes and releases of the first `n` cycles. -/
def log (inputs : ℕ → Inputs) : ℕ → List AxiEvent := Clocked.logAt step emit reset inputs

/-- The instructions that entered MEM in the first `n` cycles. -/
def entered (inputs : ℕ → Inputs) : ℕ → List EX2MEM := Clocked.logAt step enters reset inputs

/-- The slave accepts and answers everything after a finite delay. -/
structure SlaveAnswers (inputs : ℕ → Inputs) : Prop where
  readAddress : ∀ n, (stateAt inputs n).axiMaster.ARVALID = true →
    ∃ m ≥ n, (inputs m).offer.ARREADY = true
  readData : ∀ n, (stateAt inputs n).accepted.readAddress = true →
    ∃ m ≥ n, (inputs m).offer.RVALID = true
  writeAddress : ∀ n, (stateAt inputs n).axiMaster.AWVALID = true →
    ∃ m ≥ n, (inputs m).offer.AWREADY = true
  writeData : ∀ n, (stateAt inputs n).axiMaster.WVALID = true →
    ∃ m ≥ n, (inputs m).offer.WREADY = true
  writeResponse : ∀ n, (stateAt inputs n).accepted.writeAddress = true →
    (stateAt inputs n).accepted.writeData = true → ∃ m ≥ n, (inputs m).offer.BVALID = true

variable {inputs : ℕ → Inputs}

theorem phase_advances {phase : AccessPhase} {n : ℕ} (inPhase : phase.Matches (stateAt inputs n)) :
    (phase.next (stateAt inputs n).ex2mem (inputs n).offer).Matches (stateAt inputs (n + 1)) :=
  AccessPhase.matches_next inPhase (inputs n)

/-- Every visit to MEM so far has a complete transcript, except the current one. -/
theorem visits (inputs : ℕ → Inputs) (n : ℕ) :
    ∃ (phase : AccessPhase) (finished : List (EX2MEM × List AxiEvent)),
      phase.Matches (stateAt inputs n) ∧
      log inputs n = finished.flatMap Prod.snd ++ phase.transcript (stateAt inputs n).ex2mem ∧
      (∀ visit ∈ finished, visit.1.Completes visit.2) ∧
      EX2MEM.reset :: entered inputs n = finished.map Prod.fst ++ [(stateAt inputs n).ex2mem] := by
  induction n with
  | zero => exact ⟨.idle, [], AccessPhase.matches_reset, rfl, fun _ member => (nomatch member), rfl⟩
  | succ n inductionHypothesis =>
    obtain ⟨phase, finished, inPhase, logged, complete, order⟩ := inductionHypothesis
    have advanced := phase_advances inPhase
    have events : log inputs (n + 1) = log inputs n ++ phase.emit (stateAt inputs n).ex2mem
        (inputs n).offer := by
      rw [← inPhase.emit (inputs n)]
      rfl
    have entering : entered inputs (n + 1) =
        entered inputs n ++ enters (stateAt inputs n) (inputs n) := rfl
    have clocked : (stateAt inputs (n + 1)).ex2mem = pipelineRegister EX2MEM.reset
        (ctrlStallFlag (stateAt inputs n)) false (inputs n).ex2mem (stateAt inputs n).ex2mem := rfl
    rw [enters, inPhase.ctrlStallFlag] at entering
    rw [inPhase.ctrlStallFlag] at clocked
    cases released : phase.releases (stateAt inputs n).ex2mem with
    | false =>
      simp only [released, Bool.not_false, Bool.not_true, Bool.false_eq_true,
        if_false, List.append_nil, pipelineRegister_stall] at entering clocked
      refine ⟨_, finished, advanced, ?_, complete, ?_⟩
      · rw [events, logged, List.append_assoc, inPhase.transcript_held _ released, clocked]
      · rw [entering, order, clocked]
    | true =>
      -- the visit is over, and what enters begins a new one
      simp only [released, Bool.not_true, Bool.not_false, if_true,
        pipelineRegister_capture] at entering clocked
      obtain ⟨completed, idle⟩ := inPhase.transcript_released (inputs n).offer released
      rw [idle] at advanced
      refine ⟨.idle,
        finished ++ [((stateAt inputs n).ex2mem, phase.transcript (stateAt inputs n).ex2mem ++
        phase.emit (stateAt inputs n).ex2mem (inputs n).offer)], advanced, ?_, ?_, ?_⟩
      · rw [events, logged]
        simp [AccessPhase.transcript]
      · intro visit member
        cases List.mem_append.mp member with
        | inl earlier => exact complete visit earlier
        | inr last =>
          rw [List.mem_singleton.mp last]
          exact completed
      · rw [entering, ← List.cons_append, order, clocked]
        simp

/-! ## Release -/

/-- Phases that wait for something that the slave offers in the end are left when it comes. -/
theorem phases_end (Waiting Reached : AccessPhase → Prop) (Go : SlaveOffer → Prop)
    (waits : ∀ phase io offer, Waiting phase → ¬ Go offer → Waiting (phase.next io offer))
    (fires : ∀ phase io offer, Waiting phase → Go offer → Reached (phase.next io offer))
    {phase : AccessPhase} {n : ℕ}
    (inPhase : phase.Matches (stateAt inputs n)) (waiting : Waiting phase)
    (offered : ∃ m ≥ n, Go (inputs m).offer) :
    ∃ m > n, ∃ phase, Reached phase ∧ phase.Matches (stateAt inputs m) := by
  refine Clocked.response (fun stage => ∃ phase, Waiting phase ∧ phase.Matches stage)
    (fun stage => ∃ phase, Reached phase ∧ phase.Matches stage)
    (fun _ io => Go io.offer) (fun _ => True)
    (fun _ => trivial) ?_ ?_ n ⟨phase, waiting, inPhase⟩ offered
  · rintro stage io ⟨phase, waiting, inPhase⟩ _ refused
    exact ⟨_, waits _ _ _ waiting refused, AccessPhase.matches_next inPhase io⟩
  · rintro stage io ⟨phase, waiting, inPhase⟩ _ came
    exact ⟨_, fires _ _ _ waiting came, AccessPhase.matches_next inPhase io⟩

/-- A read address is accepted, possibly together with its data. -/
theorem reading_addressed (answers : SlaveAnswers inputs) {n : ℕ}
    (inPhase : (AccessPhase.reading false).Matches (stateAt inputs n)) :
    ∃ m > n, ∃ phase : AccessPhase, (phase = .reading true ∨ ∃ data, phase = .readDone data) ∧
      phase.Matches (stateAt inputs m) := by
  obtain ⟨_, arvalid, _⟩ := inPhase.registers
  refine phases_end (· = .reading false) _ (·.ARREADY = true) ?_ ?_ inPhase rfl
    (answers.readAddress n arvalid)
  · rintro _ io offer rfl refused
    simp [AccessPhase.next, refused]
  · rintro _ io offer rfl accepted
    cases valid : offer.RVALID with
    | false => exact Or.inl (by simp [AccessPhase.next, accepted, valid])
    | true => exact Or.inr ⟨offer.RDATA, by simp [AccessPhase.next, accepted, valid]⟩

/-- An accepted read is answered. -/
theorem reading_answered (answers : SlaveAnswers inputs) {n : ℕ}
    (inPhase : (AccessPhase.reading true).Matches (stateAt inputs n)) :
    ∃ m > n, ∃ phase : AccessPhase, (∃ data, phase = .readDone data) ∧
      phase.Matches (stateAt inputs m) := by
  have accepted : (stateAt inputs n).accepted.readAddress = true := by rw [inPhase.accepted]; rfl
  refine phases_end (· = .reading true) _ (·.RVALID = true) ?_ ?_ inPhase rfl
    (answers.readData n accepted)
  · rintro _ io offer rfl silent
    simp [AccessPhase.next, silent]
  · rintro _ io offer rfl valid
    exact ⟨offer.RDATA, by simp [AccessPhase.next, valid]⟩

/-- The data of a write is accepted, before or after its address. -/
theorem writing_accepted (answers : SlaveAnswers inputs) {n : ℕ} {addressed : Bool}
    (inPhase : (AccessPhase.writing addressed).Matches (stateAt inputs n)) :
    ∃ m > n, ∃ phase : AccessPhase,
      (∃ addressed dataFirst, phase = .responding addressed dataFirst) ∧
      phase.Matches (stateAt inputs m) := by
  obtain ⟨_, _, _, _, wvalid, _⟩ := inPhase.registers
  refine phases_end (fun phase => ∃ addressed, phase = .writing addressed) _
    (·.WREADY = true) ?_ ?_ inPhase ⟨_, rfl⟩
    (answers.writeData n wvalid)
  · rintro _ io offer ⟨addressed, rfl⟩ refused
    exact ⟨_, if_neg refused⟩
  · rintro _ io offer ⟨addressed, rfl⟩ taken
    exact ⟨_, _, if_pos taken⟩

/-- The address of a write whose data came first is accepted, possibly together with the
    response. -/
theorem responding_addressed (answers : SlaveAnswers inputs) {n : ℕ} {dataFirst : Bool}
    (inPhase : (AccessPhase.responding false dataFirst).Matches (stateAt inputs n)) :
    ∃ m > n, ∃ phase : AccessPhase,
      (phase = .responding true dataFirst ∨ phase = .writeDone dataFirst) ∧
      phase.Matches (stateAt inputs m) := by
  obtain ⟨_, _, _, awvalid, _⟩ := inPhase.registers
  refine phases_end (· = .responding false dataFirst) _ (·.AWREADY = true) ?_ ?_ inPhase rfl
    (answers.writeAddress n awvalid)
  · rintro _ io offer rfl refused
    simp [AccessPhase.next, refused]
  · rintro _ io offer rfl accepted
    cases valid : offer.BVALID with
    | false => exact Or.inl (by simp [AccessPhase.next, accepted, valid])
    | true => exact Or.inr (by simp [AccessPhase.next, accepted, valid])

/-- An accepted write is answered. -/
theorem responding_answered (answers : SlaveAnswers inputs) {n : ℕ} {dataFirst : Bool}
    (inPhase : (AccessPhase.responding true dataFirst).Matches (stateAt inputs n)) :
    ∃ m > n, ∃ phase : AccessPhase, phase = .writeDone dataFirst ∧
      phase.Matches (stateAt inputs m) := by
  have address : (stateAt inputs n).accepted.writeAddress = true := by rw [inPhase.accepted]; rfl
  have data : (stateAt inputs n).accepted.writeData = true := by rw [inPhase.accepted]; rfl
  refine phases_end (· = .responding true dataFirst) _ (·.BVALID = true) ?_ ?_ inPhase rfl
    (answers.writeResponse n address data)
  · rintro _ io offer rfl silent
    simp [AccessPhase.next, silent]
  · rintro _ io offer rfl valid
    simp [AccessPhase.next, valid]

theorem releases_unstalled {phase : AccessPhase} {n : ℕ}
    (inPhase : phase.Matches (stateAt inputs n))
    (released : phase.releases (stateAt inputs n).ex2mem = true) :
    ctrlStallFlag (stateAt inputs n) = false := by
  -- the stall of MEM ends in a phase that releases its instruction
  rw [inPhase.ctrlStallFlag, released]
  rfl

/-- Every access ends. -/
theorem reading_releases (answers : SlaveAnswers inputs) {n : ℕ} {addressed : Bool}
    (inPhase : (AccessPhase.reading addressed).Matches (stateAt inputs n)) :
    ∃ m ≥ n, ctrlStallFlag (stateAt inputs m) = false := by
  have answered : ∀ {n : ℕ}, (AccessPhase.reading true).Matches (stateAt inputs n) →
      ∃ m ≥ n, ctrlStallFlag (stateAt inputs m) = false := by
    intro n inPhase
    obtain ⟨m, later, _, ⟨data, rfl⟩, done⟩ := reading_answered answers inPhase
    exact ⟨m, by omega, releases_unstalled done rfl⟩
  cases addressed with
  | true => exact answered inPhase
  | false =>
    obtain ⟨m, later, _, rfl | ⟨data, rfl⟩, reached⟩ := reading_addressed answers inPhase
    · obtain ⟨k, after, unstalled⟩ := answered reached
      exact ⟨k, by omega, unstalled⟩
    · exact ⟨m, by omega, releases_unstalled reached rfl⟩

theorem responding_releases (answers : SlaveAnswers inputs) {n : ℕ} {addressed dataFirst : Bool}
    (inPhase : (AccessPhase.responding addressed dataFirst).Matches (stateAt inputs n)) :
    ∃ m ≥ n, ctrlStallFlag (stateAt inputs m) = false := by
  have answered : ∀ {n : ℕ}, (AccessPhase.responding true dataFirst).Matches (stateAt inputs n) →
      ∃ m ≥ n, ctrlStallFlag (stateAt inputs m) = false := by
    intro n inPhase
    obtain ⟨m, later, _, rfl, done⟩ := responding_answered answers inPhase
    exact ⟨m, by omega, releases_unstalled done rfl⟩
  cases addressed with
  | true => exact answered inPhase
  | false =>
    obtain ⟨m, later, _, rfl | rfl, reached⟩ := responding_addressed answers inPhase
    · obtain ⟨k, after, unstalled⟩ := answered reached
      exact ⟨k, by omega, unstalled⟩
    · exact ⟨m, by omega, releases_unstalled reached rfl⟩

theorem writing_releases (answers : SlaveAnswers inputs) {n : ℕ} {addressed : Bool}
    (inPhase : (AccessPhase.writing addressed).Matches (stateAt inputs n)) :
    ∃ m ≥ n, ctrlStallFlag (stateAt inputs m) = false := by
  obtain ⟨m, later, _, ⟨addressed, dataFirst, rfl⟩, responding⟩ := writing_accepted answers inPhase
  obtain ⟨k, after, unstalled⟩ := responding_releases answers responding
  exact ⟨k, by omega, unstalled⟩

theorem eventually_unstalled (answers : SlaveAnswers inputs) (n : ℕ) :
    ∃ m ≥ n, ctrlStallFlag (stateAt inputs m) = false := by
  obtain ⟨phase, _, inPhase, _⟩ := visits inputs n
  cases phase with
  | idle =>
    have advanced := phase_advances inPhase
    rw [AccessPhase.next] at advanced
    cases loads : (stateAt inputs n).ex2mem.loads with
    | true =>
      rw [loads, if_pos rfl] at advanced
      obtain ⟨m, later, unstalled⟩ := reading_releases answers advanced
      exact ⟨m, by omega, unstalled⟩
    | false =>
      cases stores : (stateAt inputs n).ex2mem.stores with
      | true =>
        rw [loads, stores, if_neg Bool.false_ne_true, if_pos rfl] at advanced
        obtain ⟨m, later, unstalled⟩ := writing_releases answers advanced
        exact ⟨m, by omega, unstalled⟩
      | false => exact ⟨n, Nat.le_refl n, releases_unstalled inPhase
          (by simp [AccessPhase.releases, loads, stores])⟩
  | reading addressed => exact reading_releases answers inPhase
  | writing addressed => exact writing_releases answers inPhase
  | responding addressed dataFirst => exact responding_releases answers inPhase
  | readDone data => exact ⟨n, Nat.le_refl n, releases_unstalled inPhase rfl⟩
  | writeDone dataFirst => exact ⟨n, Nat.le_refl n, releases_unstalled inPhase rfl⟩

/-! ## Exactly one access -/

/-- What the memory stage guarantees for a stream of instructions and slave offers. -/
structure AccessesOnce (inputs : ℕ → Inputs) : Prop where
  /-- The log is the complete transcripts of the instructions that entered MEM, in order, then an
      incomplete transcript of the instruction in MEM. -/
  transcripts : ∀ n, ∃ (finished : List (EX2MEM × List AxiEvent)) (unfinished rest : List AxiEvent),
    log inputs n = finished.flatMap Prod.snd ++ unfinished ∧
      (∀ visit ∈ finished, visit.1.Completes visit.2) ∧
      (rest ≠ [] ∧ (stateAt inputs n).ex2mem.Completes (unfinished ++ rest)) ∧
      EX2MEM.reset :: entered inputs n = finished.map Prod.fst ++ [(stateAt inputs n).ex2mem]
  /-- When the slave answers, MEM is released again and again. -/
  released : SlaveAnswers inputs → ∀ n, ∃ m ≥ n, ctrlStallFlag (stateAt inputs m) = false

/-- Each load or store makes exactly one transaction and leaves MEM after its response, a load with
    the data of that response; every other instruction makes none. -/
theorem accesses_once (inputs : ℕ → Inputs) : AccessesOnce inputs where
  transcripts := by
    intro n
    obtain ⟨phase, finished, inPhase, logged, complete, order⟩ := visits inputs n
    obtain ⟨rest, remaining, completes⟩ := inPhase.transcript_unfinished
    exact ⟨finished, _, rest, logged, complete, ⟨remaining, completes⟩, order⟩
  released := eventually_unstalled

end MemoryStage

end MyCpu
