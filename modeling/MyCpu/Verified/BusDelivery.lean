import MyCpu.Bus.SequentialBus
import MyCpu.Lib.Clocked

/-! # The wired bus delivers every access once

The registered master, switch and slaves of `Top` refine `BusPhase`: in every
reachable state the handshake registers are exactly those of one phase, the
slaves that the address does not select are idle, and the address, data and
strobe of the access in flight stand in the registers that need them.

The handshake registers of the master and of a slave are collected in a control
word.  A phase prescribes the control words (`masterControl`, `slaveControl`) and
the data registers; `refines_next` shows that one clock edge moves the bus to the
next phase. -/

namespace MyCpu

/-! ## What a phase prescribes -/

namespace BusPhase

def masterControl : BusPhase → AXI4LiteMaster.Control
  | .ready none => ⟨.idle, false, false, false, false, false, false, false⟩
  | .ready (some (.read _ _)) => ⟨.idle, false, false, false, false, false, true, false⟩
  | .ready (some (.write _ _ _)) => ⟨.idle, false, false, false, false, false, false, true⟩
  | .readIssued _ | .readAddressed _ => ⟨.readData, true, true, false, false, false, false, false⟩
  | .readPending _ | .readSupplied _ _ =>
    ⟨.readData, false, true, false, false, false, false, false⟩
  | .writeIssued _ _ _ | .writeAddressed _ _ _ =>
    ⟨.writeData, false, false, true, true, false, false, false⟩
  | .writeAccepted _ _ _ => ⟨.writeData, false, false, false, true, false, false, false⟩
  | .writeDelivering _ _ _ | .writeDelivered _ _ _ =>
    ⟨.writeResp, false, false, false, false, true, false, false⟩

/-- The control word of the addressed slave. -/
def slaveControl : BusPhase → AXI4LiteSlave.Control
  | .ready _ | .readIssued _ | .writeIssued _ _ _ => .idle
  | .readAddressed _ => ⟨.readAddr, false, true, false, false, false, false, false⟩
  | .readPending _ => ⟨.readData, true, false, false, false, false, false, false⟩
  | .readSupplied _ _ => ⟨.readData, false, false, true, false, false, false, false⟩
  | .writeAddressed _ _ _ => ⟨.writeAddr, false, false, false, false, true, false, false⟩
  | .writeAccepted _ _ _ => ⟨.writeData, false, false, false, false, false, true, false⟩
  | .writeDelivering _ _ _ => ⟨.writeResp, false, false, false, true, false, false, false⟩
  | .writeDelivered _ _ _ => ⟨.writeResp, false, false, false, false, false, false, true⟩

/-- The latched selection of the switch. -/
def switchSelection : BusPhase → BusSwitch
  | .ready _ | .readIssued _ | .writeIssued _ _ _ => ⟨0#8, 0#8⟩
  | .readAddressed a | .readPending a | .readSupplied a _ => ⟨BusSwitch.sel a, 0#8⟩
  | .writeAddressed a _ _ | .writeAccepted a _ _ | .writeDelivering a _ _ | .writeDelivered a _ _ =>
    ⟨0#8, BusSwitch.sel a⟩

/-- The data registers of the master. -/
def MasterData (master : AXI4LiteMaster 32) : BusPhase → Prop
  | .ready (some (.read _ d)) => master.readData = d
  | .ready _ => True
  | .readIssued a | .readAddressed a | .readPending a | .readSupplied a _ => master.addr = a
  | .writeIssued a d s | .writeAddressed a d s | .writeAccepted a d s | .writeDelivering a d s
  | .writeDelivered a d s => master.addr = a ∧ master.writeData = d ∧ master.writeStrobe = s

/-- The data registers of the addressed slave. -/
def SlaveData {w : ℕ} (slave : AXI4LiteSlave w) : BusPhase → Prop
  | .readPending a => slave.addr = a.setWidth w
  | .readSupplied _ d => slave.readData = d
  | .writeAccepted a _ _ => slave.addr = a.setWidth w
  | .writeDelivering a d s =>
    slave.addr = a.setWidth w ∧ slave.writeData = d ∧ slave.writeStrobe = s
  | _ => True

/-- The slave of a region is in the phase if the access addresses it, and idle otherwise. -/
structure SlaveAt {w : ℕ} (phase : BusPhase) (region : Fin 8) (slave : AXI4LiteSlave w) : Prop where
  selected : phase.region = some region → slave.control = phase.slaveControl ∧ phase.SlaveData slave
  unselected : phase.region ≠ some region → slave.control = .idle

/-- The wired bus is in the phase. -/
structure Refines (phase : BusPhase) (top : Top) : Prop where
  busAddress : ∀ a, phase.address = some a → top.busAddress = a
  populated : (BusSwitch.index top.busAddress).val < 3
  master : top.axiMaster.control = phase.masterControl
  masterData : phase.MasterData top.axiMaster
  switch : top.busSwitch = phase.switchSelection
  memSlave : phase.SlaveAt 0 top.memSlave
  vga : phase.SlaveAt 1 top.vga
  uart : phase.SlaveAt 2 top.uart
  dummy : top.dummy = DummySlave.reset

end BusPhase

/-! ## Requests, answers and events of the wired bus -/

namespace Top

/-- The request that the CPU presents. -/
def request (bus : BusOutputs) : Option BusRequest :=
  if bus.request && bus.write then some (.write bus.address bus.writeData bus.writeStrobe)
  else if bus.request && bus.read then some (.read bus.address)
  else none

/-- The answers of the devices. -/
def answer (io : Inputs) : Fin 8 → Option Word
  | 0 => if io.memSlave.readValid then some io.memSlave.readData else none
  | 1 => if io.vga.readValid then some io.vga.readData else none
  | 2 => if io.uart.readValid then some io.uart.readData else none
  | _ => none

/-- What the CPU is told in this cycle. -/
def responses (top : Top) : List BusEvent :=
  (if top.axiMaster.readValid then [.readDone top.axiMaster.readData] else []) ++
    (if top.axiMaster.writeValid then [.writeDone] else [])

/-- What the device behind a slave sees and does in this cycle. -/
def deviceEvents {w : ℕ} (region : Fin 8) (slave : AXI4LiteSlave w) (device : AXI4LiteDevice) :
    List BusEvent :=
  (if slave.read && device.readValid then
    [.supply region (slave.addr.setWidth 32) device.readData] else []) ++
    (if slave.write then
      [.deliver region (slave.addr.setWidth 32) slave.writeData slave.writeStrobe] else [])

/-- The request that the master and the latched address accept in this cycle. -/
def issues (top : Top) (io : Inputs) : List BusEvent :=
  if CPU.startBusTransaction top.axiMaster io.bus then
    [.issue (if io.bus.write then .write
      (CPU.fullBusAddress io.bus.address) io.bus.writeData io.bus.writeStrobe
      else .read (CPU.fullBusAddress io.bus.address))]
  else []

def emit (top : Top) (io : Inputs) : List BusEvent :=
  responses top ++ deviceEvents 0 top.memSlave io.memSlave ++ deviceEvents 1 top.vga io.vga ++
    deviceEvents 2 top.uart io.uart ++ issues top io

/-- The CPU asks for one of the three populated regions, if it asks at all. -/
def Populated (io : Inputs) : Prop :=
  io.bus.request = true → (BusSwitch.index io.bus.address).val < 3

end Top

/-! ## One edge of a slave -/

namespace BusPhase

/-- What the switch shows to the slave of a region. -/
structure Seen {w : ℕ} (phase : BusPhase) (region : Fin 8) (io : AXI4LiteMasterChannels w) :
    Prop where
  arvalid : io.ARVALID = (phase.masterControl.ARVALID && decide (phase.region = some region))
  awvalid : io.AWVALID = (phase.masterControl.AWVALID && decide (phase.region = some region))
  wvalid : io.WVALID = (phase.masterControl.WVALID && decide (phase.region = some region))
  address : ∀ a, phase.address = some a → io.ARADDR = a.setWidth w ∧ io.AWADDR = a.setWidth w
  writeData : ∀ a d s, phase = .writeAccepted a d s → io.WDATA = d ∧ io.WSTRB = s
  rready : ∀ a d, phase = .readSupplied a d → phase.region = some region → io.RREADY = true
  bready : ∀ a d s, phase = .writeDelivered a d s → phase.region = some region → io.BREADY = true

theorem idle_step {w : ℕ} (slave : AXI4LiteSlave w) (io : AXI4LiteMasterChannels w)
    (device : AXI4LiteDevice)
    (idle : slave.control = .idle) (arvalid : io.ARVALID = false) (awvalid : io.AWVALID = false) :
    (slave.step io device).control = .idle := by
  obtain ⟨state, addr, read, readData, ARREADY, RVALID, RRESP, write, writeData,
    writeStrobe, AWREADY, WREADY, BVALID⟩ :=
    slave
  simp only [AXI4LiteSlave.control, AXI4LiteSlave.Control.idle,
    AXI4LiteSlave.Control.mk.injEq] at idle
  obtain ⟨rfl, rfl, rfl, rfl, rfl, rfl, rfl, rfl⟩ := idle
  simp [AXI4LiteSlave.step, arvalid, awvalid, AXI4LiteSlave.control, AXI4LiteSlave.Control.idle]

theorem selected_step {w : ℕ} {phase : BusPhase} {region : Fin 8} {slave : AXI4LiteSlave w}
    {io : AXI4LiteMasterChannels w} {answer : Fin 8 → Option Word} {device : AXI4LiteDevice}
    (request : Option BusRequest) (addressed : phase.region = some region)
    (control : slave.control = phase.slaveControl) (data : phase.SlaveData slave)
    (seen : phase.Seen region io)
    (answers : answer region = if device.readValid then some device.readData else none) :
    (slave.step io device).control = (phase.next request answer).slaveControl ∧
      (phase.next request answer).SlaveData (slave.step io device) := by
  obtain ⟨arvalid, awvalid, wvalid, addresses, writeData, rready, bready⟩ := seen
  obtain ⟨state, addr, read, readData, ARREADY, RVALID, RRESP, write, writeData,
    writeStrobe, AWREADY, WREADY, BVALID⟩ :=
    slave
  simp only [addressed, decide_true, Bool.and_true] at arvalid awvalid wvalid
  cases phase with
  | ready finished => cases addressed
  | readPending a =>
    simp only [BusPhase.region, BusPhase.address, Option.map_some, Option.some.injEq] at addressed
    simp only [AXI4LiteSlave.control, slaveControl, AXI4LiteSlave.Control.mk.injEq] at control
    obtain ⟨rfl, rfl, rfl, rfl, rfl, rfl, rfl, rfl⟩ := control
    cases answered : device.readValid <;>
      simp_all [AXI4LiteSlave.step, AXI4LiteSlave.captureRead, AXI4LiteSlave.control,
        slaveControl, next, SlaveData]
  | readSupplied a d =>
    simp only [AXI4LiteSlave.control, slaveControl, AXI4LiteSlave.Control.mk.injEq] at control
    obtain ⟨rfl, rfl, rfl, rfl, rfl, rfl, rfl, rfl⟩ := control
    -- the handshake clears `RVALID` whether or not the device still answers
    cases answered : device.readValid <;>
      simp [AXI4LiteSlave.step, AXI4LiteSlave.captureRead, AXI4LiteSlave.control,
        AXI4LiteSlave.Control.idle, slaveControl, next, SlaveData,
        rready a d rfl addressed, answered]
  | _ =>
    simp only [AXI4LiteSlave.control, slaveControl, AXI4LiteSlave.Control.idle,
      AXI4LiteSlave.Control.mk.injEq] at control
    obtain ⟨rfl, rfl, rfl, rfl, rfl, rfl, rfl, rfl⟩ := control
    simp_all [AXI4LiteSlave.step, AXI4LiteSlave.control, AXI4LiteSlave.Control.idle,
      slaveControl, masterControl, next, SlaveData, address]

/-- A phase that has begun keeps its address until it is over. -/
theorem next_region (request : Option BusRequest) (answer : Fin 8 → Option Word) (phase : BusPhase)
    (a : Word) (flying : phase.address = some a) :
    (phase.next request answer).address = some a ∨
      (phase.next request answer).slaveControl = .idle := by
  cases phase with
  | ready finished => cases flying
  | readPending b =>
    left
    rw [next]
    cases answer (BusSwitch.index b) <;> exact flying
  | readSupplied | writeDelivered => exact Or.inr rfl
  | _ => exact Or.inl flying

theorem slaveAt_next {w : ℕ} {phase : BusPhase} {region : Fin 8} {slave : AXI4LiteSlave w}
    {io : AXI4LiteMasterChannels w} {answer : Fin 8 → Option Word} {device : AXI4LiteDevice}
    (request : Option BusRequest) (inPhase : phase.SlaveAt region slave)
    (seen : phase.Seen region io)
    (answers : answer region = if device.readValid then some device.readData else none) :
    (phase.next request answer).SlaveAt region (slave.step io device) := by
  by_cases addressed : phase.region = some region
  · obtain ⟨control, data⟩ := inPhase.selected addressed
    obtain ⟨control', data'⟩ := selected_step request addressed control data seen answers
    refine ⟨fun _ => ⟨control', data'⟩, fun moved => ?_⟩
    obtain ⟨a, flying, indexed⟩ := Option.map_eq_some_iff.mp addressed
    cases next_region request answer phase a flying with
    | inl same =>
      refine absurd ?_ moved
      rw [BusPhase.region, same, Option.map_some, indexed]
    | inr idle => rw [control', idle]
  · have arvalid := seen.arvalid
    have awvalid := seen.awvalid
    simp only [addressed, decide_false, Bool.and_false] at arvalid awvalid
    have idle := idle_step slave io device (inPhase.unselected addressed) arvalid awvalid
    refine ⟨fun selected => ?_, fun _ => idle⟩
    -- only a phase that has just been issued selects a slave that was not selected before
    cases phase with
    | ready finished =>
      cases request with
      | none => cases selected
      | some request => cases request <;> exact ⟨idle, trivial⟩
    | readPending a =>
      refine absurd ?_ addressed
      simp only [next] at selected
      cases reply : answer (BusSwitch.index a) <;> rw [reply] at selected <;> exact selected
    | readSupplied | writeDelivered => cases selected
    | _ => exact absurd selected addressed

/-! ## One edge of the master -/

theorem master_step {phase : BusPhase} {master : AXI4LiteMaster 32} (bus : BusOutputs)
    (answer : Fin 8 → Option Word) (io : AXI4LiteSlaveChannels)
    (control : master.control = phase.masterControl)
    (data : phase.MasterData master) (arready : io.ARREADY = phase.slaveControl.ARREADY)
    (rvalid : io.RVALID = phase.slaveControl.RVALID)
    (rdata : ∀ a d, phase = .readSupplied a d → io.RDATA = d)
    (awready : io.AWREADY = phase.slaveControl.AWREADY)
    (wready : io.WREADY = phase.slaveControl.WREADY)
    (bvalid : io.BVALID = phase.slaveControl.BVALID) :
    (master.step (CPU.masterRequest bus) io).control =
      (phase.next (Top.request bus) answer).masterControl ∧
      (phase.next (Top.request bus) answer).MasterData
        (master.step (CPU.masterRequest bus) io) := by
  obtain ⟨state, addr, readValid, readData, ARVALID, RREADY, writeValid, writeData,
    writeStrobe, AWVALID, WVALID, BREADY, writeDataAccepted⟩ := master
  cases phase with
  | ready finished =>
    have quiet : state = .idle ∧ ARVALID = false ∧ RREADY = false ∧
        AWVALID = false ∧ WVALID = false ∧
        BREADY = false := by
      obtain _ | access := finished
      · simp_all [AXI4LiteMaster.control, masterControl]
      · cases access <;> simp_all [AXI4LiteMaster.control, masterControl]
    obtain ⟨rfl, rfl, rfl, rfl, rfl, rfl⟩ := quiet
    cases asked : bus.request <;> cases writes : bus.write <;> cases reads : bus.read <;>
      simp [AXI4LiteMaster.step, AXI4LiteMaster.control, CPU.masterRequest,
        Top.request, next, masterControl, MasterData, asked, writes, reads]
  | readPending a =>
    simp only [AXI4LiteMaster.control, masterControl, AXI4LiteMaster.Control.mk.injEq] at control
    obtain ⟨rfl, rfl, rfl, rfl, rfl, rfl, rfl, rfl⟩ := control
    cases reply : answer (BusSwitch.index a) <;>
      simp_all [AXI4LiteMaster.step, AXI4LiteMaster.control, next, masterControl,
        MasterData, slaveControl]
  | _ =>
    simp only [AXI4LiteMaster.control, masterControl, AXI4LiteMaster.Control.mk.injEq] at control
    obtain ⟨rfl, rfl, rfl, rfl, rfl, rfl, rfl, rfl⟩ := control
    simp_all [AXI4LiteMaster.step, AXI4LiteMaster.control, next, masterControl,
      MasterData, slaveControl, AXI4LiteSlave.Control.idle]

/-! ## What the switch passes in each direction -/

/-- The slave that the latched address selects is in the control state of the phase; when nothing is
    in flight that is the idle one. -/
theorem addressed_control {w : ℕ} {phase : BusPhase} {region : Fin 8} {slave : AXI4LiteSlave w}
    (inPhase : phase.SlaveAt region slave)
    (indexed : ∀ a, phase.address = some a → BusSwitch.index a = region) :
    slave.control = phase.slaveControl := by
  by_cases addressed : phase.region = some region
  · exact (inPhase.selected addressed).1
  · rw [inPhase.unselected addressed]
    cases phase with
    | ready finished => rfl
    | _ => exact absurd (congrArg some (indexed _ rfl)) addressed

theorem addressed_readData {w : ℕ} {a d : Word} {region : Fin 8} {slave : AXI4LiteSlave w}
    (inPhase : (readSupplied a d).SlaveAt region slave) (indexed : BusSwitch.index a = region) :
    slave.readData = d :=
  (inPhase.selected (congrArg some indexed)).2

variable {phase : BusPhase} {top : Top}

theorem Refines.indexed (refines : phase.Refines top) (a : Word) (flying : phase.address = some a) :
    BusSwitch.index a = BusSwitch.index top.busAddress := by rw [refines.busAddress a flying]

theorem Refines.addressed_channels (refines : phase.Refines top) :
    ∃ (w : ℕ) (slave : AXI4LiteSlave w),
    Top.slaveChannels top (BusSwitch.index top.busAddress) = slave.channels ∧
      slave.control = phase.slaveControl ∧
      ∀ a d, phase = readSupplied a d → slave.readData = d := by
  have indexed := refines.indexed
  have bound := refines.populated
  generalize BusSwitch.index top.busAddress = region at indexed bound ⊢
  have regions : region = 0 ∨ region = 1 ∨ region = 2 := by omega
  obtain rfl | rfl | rfl := regions
  · refine ⟨32, top.memSlave, rfl, addressed_control refines.memSlave indexed, ?_⟩
    rintro a d rfl
    exact addressed_readData refines.memSlave (indexed a rfl)
  · refine ⟨8, top.vga, rfl, addressed_control refines.vga indexed, ?_⟩
    rintro a d rfl
    exact addressed_readData refines.vga (indexed a rfl)
  · refine ⟨8, top.uart, rfl, addressed_control refines.uart indexed, ?_⟩
    rintro a d rfl
    exact addressed_readData refines.uart (indexed a rfl)

theorem Refines.response_selection (refines : phase.Refines top) :
    (phase.slaveControl.RVALID = true → top.busSwitch.readSel = BusSwitch.sel top.busAddress) ∧
      (phase.slaveControl.BVALID = true → top.busSwitch.writeSel = BusSwitch.sel top.busAddress) ∧
      (top.busSwitch.readSel = 0#8 ∨ top.busSwitch.readSel = BusSwitch.sel top.busAddress) ∧
      (top.busSwitch.writeSel = 0#8 ∨ top.busSwitch.writeSel = BusSwitch.sel top.busAddress) := by
  -- the selection latched for the responses selects nothing, or the addressed slave
  have switch := refines.switch
  have address := refines.busAddress
  cases phase with
  | ready finished => simp [switch, switchSelection, slaveControl, AXI4LiteSlave.Control.idle]
  | _ =>
    have held := address _ rfl
    simp [switch, switchSelection, slaveControl, AXI4LiteSlave.Control.idle, held]

theorem Refines.masterInputs (refines : phase.Refines top) :
    (Top.masterInputs top).ARREADY = phase.slaveControl.ARREADY ∧
      (Top.masterInputs top).RVALID = phase.slaveControl.RVALID ∧
      (∀ a d, phase = readSupplied a d → (Top.masterInputs top).RDATA = d) ∧
      (Top.masterInputs top).AWREADY = phase.slaveControl.AWREADY ∧
      (Top.masterInputs top).WREADY = phase.slaveControl.WREADY ∧
      (Top.masterInputs top).BVALID = phase.slaveControl.BVALID := by
  obtain ⟨w, slave, driven, control, supplied⟩ := refines.addressed_channels
  obtain ⟨readSelected, writeSelected, readSel, writeSel⟩ := refines.response_selection
  rw [← control] at readSelected writeSelected ⊢
  simp only [Top.masterInputs, BusSwitch.masterInputs, BusSwitch.sel, mux1HBool_uintToOH, driven]
  refine ⟨rfl, ?_, ?_, rfl, rfl, ?_⟩
  · rw [mux1HBool_response readSel (by rw [driven]; exact readSelected), driven]
    rfl
  · rintro a d rfl
    have selected := readSelected (by rw [control]; rfl)
    rw [selected, BusSwitch.sel, mux1H_uintToOH, driven]
    exact supplied a d rfl
  · rw [mux1HBool_response writeSel (by rw [driven]; exact writeSelected), driven]
    rfl

/-- What a slave sees depends on the phase and on whether its region is addressed. -/
theorem Refines.seen (refines : phase.Refines top) (region : Fin 8) (w : ℕ) :
    phase.Seen region ((Top.slaveInputs top region).narrow w) := by
  have control := refines.master
  have data := refines.masterData
  have switch := refines.switch
  have address := refines.busAddress
  simp only [AXI4LiteMaster.control] at control
  cases phase with
  | ready finished =>
    have quiet : top.axiMaster.ARVALID = false ∧ top.axiMaster.AWVALID = false ∧
        top.axiMaster.WVALID = false := by
      obtain _ | access := finished
      · simp_all [masterControl]
      · cases access <;> simp_all [masterControl]
    have none : (ready finished).region = none := rfl
    constructor <;>
      simp [Top.slaveInputs, BusSwitch.slaveInputs, AXI4LiteMasterChannels.narrow,
        AXI4LiteMaster.channels, quiet, none, BusPhase.address]
  | _ =>
    have held := address _ rfl
    simp only [masterControl, AXI4LiteMaster.Control.mk.injEq] at control
    constructor <;>
      simp_all [Top.slaveInputs, BusSwitch.slaveInputs, AXI4LiteMasterChannels.narrow,
        AXI4LiteMaster.channels, masterControl, BusPhase.region, BusPhase.address, BusSwitch.sel,
        MasterData, switchSelection]

/-! ## One edge of the wired bus -/

/-- The master is busy exactly while an access is in flight. -/
theorem Refines.busy (refines : phase.Refines top) : top.axiMaster.busy = phase.address.isSome := by
  have state := congrArg AXI4LiteMaster.Control.state refines.master
  simp only [AXI4LiteMaster.control] at state
  cases phase with
  | ready finished => obtain _ | access :=
      finished <;> [skip; cases access] <;> simp [AXI4LiteMaster.busy, state,
      masterControl, BusPhase.address]
  | _ => simp [AXI4LiteMaster.busy, state, masterControl, BusPhase.address]

/-- A request is accepted exactly when nothing is in flight. -/
theorem Refines.starts (refines : phase.Refines top) (bus : BusOutputs) :
    CPU.startBusTransaction top.axiMaster bus =
      (phase.address.isNone && (Top.request bus).isSome) := by
  rw [CPU.startBusTransaction, refines.busy, Top.request]
  cases phase.address <;> cases bus.request <;> cases bus.write <;> cases bus.read <;> rfl

theorem Refines.nextBusAddress (refines : phase.Refines top) (io : Top.Inputs) (a : Word)
    (flying : (phase.next (Top.request io.bus) (Top.answer io)).address = some a) :
    CPU.nextBusAddress top.busAddress top.axiMaster io.bus = a := by
  rw [CPU.nextBusAddress, refines.starts, CPU.fullBusAddress_eq]
  cases phase with
  | ready finished =>
    cases asked : Top.request io.bus with
    | none => simp [next, asked, BusPhase.address] at flying
    | some request =>
      simp only [next, asked] at flying
      have presented : request.address = io.bus.address := by
        simp only [Top.request] at asked
        split at asked
        · cases asked; rfl
        · split at asked
          · cases asked; rfl
          · cases asked
      cases request <;> simp_all [BusPhase.address, BusRequest.address]
  | readPending b =>
    have held : b = a := by
      simp only [next] at flying
      cases reply :
        Top.answer io (BusSwitch.index b) <;> rw [reply] at flying <;> exact Option.some.inj flying
    simp [BusPhase.address, refines.busAddress b rfl, held]
  | readSupplied | writeDelivered => cases flying
  | _ =>
    cases flying
    simp [BusPhase.address, refines.busAddress a rfl]

theorem Refines.nextPopulated (refines : phase.Refines top) (io : Top.Inputs)
    (populated : Top.Populated io) :
    (BusSwitch.index (CPU.nextBusAddress top.busAddress top.axiMaster io.bus)).val < 3 := by
  rw [CPU.nextBusAddress]
  split
  · rename_i starts
    rw [CPU.fullBusAddress_eq]
    simp only [CPU.startBusTransaction, Bool.and_eq_true] at starts
    exact populated starts.1.2
  · exact refines.populated

theorem Refines.nextSwitch (refines : phase.Refines top) (request : Option BusRequest)
    (answer : Fin 8 → Option Word) :
    top.busSwitch.step top.busAddress top.axiMaster.channels (Top.slaveChannels top) =
      (phase.next request answer).switchSelection := by
  obtain ⟨_, rvalid, _, _, _, bvalid⟩ := refines.masterInputs
  have control := refines.master
  have switch := refines.switch
  have address := refines.busAddress
  simp only [AXI4LiteMaster.control] at control
  rw [BusSwitch.step, ← Top.masterInputs, rvalid, bvalid]
  cases phase with
  | ready finished =>
    have idle : (ready finished).switchSelection = (ready none).switchSelection := rfl
    have requested : ((ready finished).next request answer).switchSelection = ⟨0#8, 0#8⟩ := by
      cases request with
      | none => rfl
      | some request => cases request <;> rfl
    rw [requested, switch, switchSelection]
    obtain _ | access := finished
    · simp_all [masterControl, AXI4LiteMaster.channels, slaveControl, AXI4LiteSlave.Control.idle]
    · cases access <;>
        simp_all [masterControl, AXI4LiteMaster.channels, slaveControl, AXI4LiteSlave.Control.idle]
  | readPending a =>
    have held := address a rfl
    simp only [masterControl, AXI4LiteMaster.Control.mk.injEq] at control
    cases reply : answer (BusSwitch.index a) <;>
      simp [next, reply, control, switch, AXI4LiteMaster.channels, switchSelection, slaveControl]
  | _ =>
    have held := address _ rfl
    simp only [masterControl, AXI4LiteMaster.Control.mk.injEq] at control
    simp [next, control, switch, held, AXI4LiteMaster.channels, switchSelection, slaveControl,
      AXI4LiteSlave.Control.idle]

theorem Refines.nextDummy (refines : phase.Refines top) :
    top.dummy.step ((Top.slaveInputs top 7).narrow 4) = DummySlave.reset := by
  -- the dummy slave of the unmapped regions never sees a request
  have unaddressed : phase.region ≠ some 7 := by
    intro addressed
    obtain ⟨a, flying, indexed⟩ := Option.map_eq_some_iff.mp addressed
    have bound := refines.populated
    rw [← refines.indexed a flying, indexed] at bound
    exact absurd bound (by decide)
  have arvalid := (refines.seen 7 4).arvalid
  have awvalid := (refines.seen 7 4).awvalid
  simp only [unaddressed, decide_false, Bool.and_false] at arvalid awvalid
  rw [refines.dummy]
  simp [DummySlave.step, DummySlave.reset, arvalid, awvalid]

theorem refines_next (refines : phase.Refines top) (io : Top.Inputs)
    (populated : Top.Populated io) :
    (phase.next (Top.request io.bus) (Top.answer io)).Refines (top.step io) := by
  obtain ⟨arready, rvalid, rdata, awready, wready, bvalid⟩ := refines.masterInputs
  obtain ⟨control, data⟩ := master_step io.bus (Top.answer io) (Top.masterInputs top) refines.master
    refines.masterData arready rvalid rdata awready wready bvalid
  exact
    { busAddress := fun a flying => refines.nextBusAddress io a flying
      populated := refines.nextPopulated io populated
      master := control
      masterData := data
      switch := refines.nextSwitch _ _
      memSlave := slaveAt_next _ refines.memSlave (refines.seen 0 32) rfl
      vga := slaveAt_next _ refines.vga (refines.seen 1 8) rfl
      uart := slaveAt_next _ refines.uart (refines.seen 2 8) rfl
      dummy := refines.nextDummy }

theorem ready_address (finished : Option BusAccess) (a : Word) :
    (ready finished).address ≠ some a :=
  fun flying => Option.some_ne_none a flying.symm

theorem refines_reset : (ready none).Refines Top.reset where
  busAddress := fun a flying => absurd flying (ready_address none a)
  populated := by decide
  master := rfl
  masterData := trivial
  switch := rfl
  memSlave := ⟨fun addressed => (nomatch addressed), fun _ => rfl⟩
  vga := ⟨fun addressed => (nomatch addressed), fun _ => rfl⟩
  uart := ⟨fun addressed => (nomatch addressed), fun _ => rfl⟩
  dummy := rfl

/-! ## Events -/

theorem deviceEvents_idle {w : ℕ} (region : Fin 8) (slave : AXI4LiteSlave w)
    (device : AXI4LiteDevice)
    (read : slave.read = false) (write : slave.write = false) :
    Top.deviceEvents region slave device = [] := by
  simp [Top.deviceEvents, read, write]

/-- The events at the addressed device. -/
def service (answer : Fin 8 → Option Word) (region : Fin 8) : BusPhase → List BusEvent
  | .readPending a => ((answer region).map (BusEvent.supply region (deviceAddress region a))).toList
  | .writeDelivering a d s => [.deliver region (deviceAddress region a) d s]
  | _ => []

/-- The events at the device of a region, as the phase prescribes them. -/
def deviceEvents (answer : Fin 8 → Option Word) (region : Fin 8) (phase : BusPhase) :
    List BusEvent :=
  if phase.region = some region then phase.service answer region else []

theorem deviceEvents_eq {w : ℕ} {region : Fin 8} {slave : AXI4LiteSlave w} {device : AXI4LiteDevice}
    {answer : Fin 8 → Option Word} (inPhase : phase.SlaveAt region slave)
    (width : ∀ a : Word, (a.setWidth w).setWidth 32 = deviceAddress region a)
    (answers : answer region = if device.readValid then some device.readData else none) :
    Top.deviceEvents region slave device = phase.deviceEvents answer region := by
  by_cases addressed : phase.region = some region
  · obtain ⟨control, data⟩ := inPhase.selected addressed
    have read := congrArg AXI4LiteSlave.Control.read control
    have write := congrArg AXI4LiteSlave.Control.write control
    simp only [AXI4LiteSlave.control] at read write
    rw [deviceEvents, if_pos addressed]
    cases phase with
    | readPending a =>
      simp only [slaveControl, SlaveData] at read write data
      rw [Top.deviceEvents, read, write, data, width, service, answers]
      cases device.readValid <;> rfl
    | writeDelivering a d s =>
      simp only [slaveControl, SlaveData] at read write data
      rw [Top.deviceEvents, read, write, data.1, data.2.1, data.2.2, width]
      rfl
    | _ => exact deviceEvents_idle region slave device read write
  · have control := inPhase.unselected addressed
    have read := congrArg AXI4LiteSlave.Control.read control
    have write := congrArg AXI4LiteSlave.Control.write control
    rw [deviceEvents, if_neg addressed]
    exact deviceEvents_idle region slave device read write

theorem Refines.emit (refines : phase.Refines top) (io : Top.Inputs) :
    top.emit io = phase.emit (Top.request io.bus) (Top.answer io) := by
  have control := refines.master
  have data := refines.masterData
  simp only [AXI4LiteMaster.control] at control
  have memSlave : Top.deviceEvents 0 top.memSlave io.memSlave =
      phase.deviceEvents (Top.answer io) 0 :=
    deviceEvents_eq refines.memSlave (fun a => by simp [deviceAddress]) rfl
  have vga : Top.deviceEvents 1 top.vga io.vga = phase.deviceEvents (Top.answer io) 1 :=
    deviceEvents_eq refines.vga (fun a => rfl) rfl
  have uart : Top.deviceEvents 2 top.uart io.uart = phase.deviceEvents (Top.answer io) 2 :=
    deviceEvents_eq refines.uart (fun a => rfl) rfl
  rw [Top.emit, memSlave, vga, uart, Top.issues, refines.starts, Top.responses,
    CPU.fullBusAddress_eq]
  cases phase with
  | ready finished =>
    have issued : (if (Top.request io.bus).isSome then [BusEvent.issue (if io.bus.write
        then .write io.bus.address io.bus.writeData io.bus.writeStrobe else .read io.bus.address)]
          else []) =
        ((Top.request io.bus).map BusEvent.issue).toList := by
      rw [Top.request]
      cases io.bus.request <;> cases io.bus.write <;> cases io.bus.read <;> rfl
    have unaddressed : ∀ region, (ready finished).deviceEvents (Top.answer io) region =
        [] := fun region => rfl
    rw [unaddressed, unaddressed, unaddressed, BusPhase.emit, ← issued]
    obtain _ | access := finished
    · simp_all [masterControl, BusPhase.address]
    · cases access <;> simp_all [masterControl, BusPhase.address, MasterData, BusAccess.done]
  | _ =>
    -- only the slave of the addressed region can have an event
    have bound := refines.populated
    have held := refines.busAddress _ rfl
    rw [held] at bound
    generalize indexed : BusSwitch.index _ = region at bound
    have regions : region = 0 ∨ region = 1 ∨ region = 2 := by omega
    simp only [masterControl, AXI4LiteMaster.Control.mk.injEq] at control
    obtain rfl | rfl | rfl := regions <;>
      simp [control, deviceEvents, service, BusPhase.region, BusPhase.address,
        BusPhase.emit, indexed]

end BusPhase

/-! ## Runs -/

namespace Top

/-- The bus after `n` cycles. -/
def stateAt (inputs : ℕ → Inputs) : ℕ → Top := Clocked.stateAt step reset inputs

/-- What was observed at the CPU and at the devices in the first `n` cycles. -/
def log (inputs : ℕ → Inputs) : ℕ → List BusEvent := Clocked.logAt step emit reset inputs

/-- Every device answers the reads it sees after a finite delay. -/
structure DevicesAnswer (inputs : ℕ → Inputs) : Prop where
  memSlave : ∀ n, (stateAt inputs n).memSlave.read = true →
    ∃ m ≥ n, (inputs m).memSlave.readValid = true
  vga : ∀ n, (stateAt inputs n).vga.read = true → ∃ m ≥ n, (inputs m).vga.readValid = true
  uart : ∀ n, (stateAt inputs n).uart.read = true → ∃ m ≥ n, (inputs m).uart.readValid = true

variable {inputs : ℕ → Inputs}

/-- The bus is in some phase, and the log consists of the events of finished accesses followed by
    those of the access in flight. -/
def Explained (top : Top) (log : List BusEvent) : Prop :=
  ∃ (phase : BusPhase) (finished : List BusAccess), phase.Refines top ∧
    log = finished.flatMap BusAccess.events ++ phase.sofar

theorem explained_step (top : Top) (io : Inputs) (log : List BusEvent)
    (explained : Explained top log)
    (populated : Populated io) : Explained (top.step io) (log ++ top.emit io) := by
  obtain ⟨phase, finished, refines, rfl⟩ := explained
  obtain ⟨completed, continued⟩ := BusPhase.sofar_emit (request io.bus) (answer io) phase
  refine ⟨_, finished ++ completed, BusPhase.refines_next refines io populated, ?_⟩
  rw [refines.emit, List.append_assoc, continued, ← List.append_assoc, List.flatMap_append]

theorem explained_reachable (populated : ∀ n, Populated (inputs n)) (n : ℕ) :
    Explained (stateAt inputs n) (log inputs n) :=
  Clocked.invariant_logAt ⟨.ready none, [], BusPhase.refines_reset, rfl⟩ explained_step populated n

/-! ## Completion -/

theorem phase_advances (populated : ∀ n, Populated (inputs n)) {phase : BusPhase} {n : ℕ}
    (refines : phase.Refines (stateAt inputs n)) :
    (phase.next (request (inputs n).bus) (answer (inputs n))).Refines (stateAt inputs (n + 1)) :=
  BusPhase.refines_next refines (inputs n) (populated n)

theorem pending_answered (devices : DevicesAnswer inputs) {a : Word} {n : ℕ}
    (refines : (BusPhase.readPending a).Refines (stateAt inputs n)) :
    ∃ m ≥ n, (answer (inputs m) (BusSwitch.index a)).isSome = true := by
  -- the addressed device sees a pending read, so it answers
  have bound := refines.populated
  rw [refines.busAddress a rfl] at bound
  obtain ⟨memSlave, vga, uart⟩ := devices
  have selected : ∀ region, BusSwitch.index a = region →
      (BusPhase.readPending a).region = some region :=
    fun region indexed => congrArg some indexed
  generalize BusSwitch.index a = region at bound selected ⊢
  have regions : region = 0 ∨ region = 1 ∨ region = 2 := by omega
  obtain rfl | rfl | rfl := regions
  · have read := congrArg AXI4LiteSlave.Control.read (refines.memSlave.selected (selected 0 rfl)).1
    obtain ⟨m, later, valid⟩ := memSlave n read
    exact ⟨m, later, by simp [answer, valid]⟩
  · have read := congrArg AXI4LiteSlave.Control.read (refines.vga.selected (selected 1 rfl)).1
    obtain ⟨m, later, valid⟩ := vga n read
    exact ⟨m, later, by simp [answer, valid]⟩
  · have read := congrArg AXI4LiteSlave.Control.read (refines.uart.selected (selected 2 rfl)).1
    obtain ⟨m, later, valid⟩ := uart n read
    exact ⟨m, later, by simp [answer, valid]⟩

/-- A pending read is supplied by the device, whatever its delay. -/
theorem pending_supplied (populated : ∀ n, Populated (inputs n))
    (devices : DevicesAnswer inputs) {a : Word}
    {n : ℕ} (refines : (BusPhase.readPending a).Refines (stateAt inputs n)) :
    ∃ m > n, ∃ d, (BusPhase.readSupplied a d).Refines (stateAt inputs m) := by
  refine Clocked.response (fun top => (BusPhase.readPending a).Refines top)
    (fun top => ∃ d, (BusPhase.readSupplied a d).Refines top)
    (fun _ io => (answer io (BusSwitch.index a)).isSome = true) Populated populated ?_ ?_ n refines
    (pending_answered devices refines)
  · intro top io pending allowed silent
    have advanced := BusPhase.refines_next pending io allowed
    rw [BusPhase.next, Option.not_isSome_iff_eq_none.mp silent] at advanced
    exact advanced
  · intro top io pending allowed answered
    obtain ⟨d, reply⟩ := Option.isSome_iff_exists.mp answered
    have advanced := BusPhase.refines_next pending io allowed
    rw [BusPhase.next, reply] at advanced
    exact ⟨d, advanced⟩

/-- Every access in flight completes. -/
theorem flying_completes (populated : ∀ n, Populated (inputs n)) (devices : DevicesAnswer inputs)
    {phase : BusPhase} {n : ℕ} {a : Word} (refines : phase.Refines (stateAt inputs n))
    (flying : phase.address = some a) :
    ∃ m > n, ∃ access, (BusPhase.ready (some access)).Refines (stateAt inputs m) := by
  have pendingCompletes : ∀ {n : ℕ} {b : Word},
      (BusPhase.readPending b).Refines (stateAt inputs n) →
      ∃ m > n, ∃ access, (BusPhase.ready (some access)).Refines (stateAt inputs m) := by
    intro n b pending
    obtain ⟨m, later, d, supplied⟩ := pending_supplied populated devices pending
    exact ⟨m + 1, by omega, _, phase_advances populated supplied⟩
  cases phase with
  | ready finished => cases flying
  | readIssued b =>
    obtain ⟨m, later, completes⟩ := pendingCompletes
      (phase_advances populated (phase_advances populated refines))
    exact ⟨m, by omega, completes⟩
  | readAddressed b =>
    obtain ⟨m, later, completes⟩ := pendingCompletes (phase_advances populated refines)
    exact ⟨m, by omega, completes⟩
  | readPending b => exact pendingCompletes refines
  | readSupplied b d => exact ⟨n + 1, by omega, _, phase_advances populated refines⟩
  | writeIssued b d s =>
    exact ⟨n + 5, by omega, _, phase_advances populated (phase_advances populated (phase_advances populated
      (phase_advances populated (phase_advances populated refines))))⟩
  | writeAddressed b d s =>
    exact ⟨n + 4, by omega, _, phase_advances populated (phase_advances populated (phase_advances populated
      (phase_advances populated refines)))⟩
  | writeAccepted b d s =>
    exact ⟨n + 3, by omega, _, phase_advances populated (phase_advances populated
      (phase_advances populated refines))⟩
  | writeDelivering b d s =>
    exact ⟨n + 2, by omega, _, phase_advances populated (phase_advances populated refines)⟩
  | writeDelivered b d s => exact ⟨n + 1, by omega, _, phase_advances populated refines⟩

/-- The cycle after an access completes, the CPU is told. -/
theorem completed_answered {n : ℕ} {access : BusAccess}
    (refines : (BusPhase.ready (some access)).Refines (stateAt inputs n)) :
    answered (log inputs n) < answered (log inputs (n + 1)) := by
  have events := refines.emit (inputs n)
  rw [log, Clocked.logAt_succ, answered_append]
  change _ < _ + answered ((stateAt inputs n).emit (inputs n))
  rw [events]
  cases access <;> simp [BusPhase.emit, BusAccess.done, answered]

/-! ## End-to-end delivery -/

/-- What the wired bus guarantees for a stream of requests and answers. -/
structure Delivers (inputs : ℕ → Inputs) : Prop where
  /-- The log is a sequence of complete accesses in the order issued, then part of one more. -/
  accesses : ∀ n, ∃ (finished : List BusAccess) (unfinished : List BusEvent),
    log inputs n = finished.flatMap BusAccess.events ++ unfinished ∧
      ∃ access : BusAccess, unfinished <+: access.events.take 2
  /-- Only the device of the address in flight sees a request. -/
  isolated : ∀ n region, ((slaveInputs (stateAt inputs n) region).ARVALID = true ∨
      (slaveInputs (stateAt inputs n) region).AWVALID = true ∨
      (slaveInputs (stateAt inputs n) region).WVALID = true) →
    ∃ request, inFlight (log inputs n) = some request ∧ BusSwitch.index request.address = region
  /-- When the devices answer, every request is answered. -/
  completes : DevicesAnswer inputs → ∀ n request, inFlight (log inputs n) = some request →
    ∃ m > n, answered (log inputs n) < answered (log inputs m)

theorem unfinished_isPrefix (phase : BusPhase) :
    ∃ access : BusAccess, phase.sofar <+: access.events.take 2 := by
  cases phase with
  | ready finished =>
    cases finished with
    | none => exact ⟨.read 0#32 0#32, List.nil_prefix⟩
    | some access => exact ⟨access, List.prefix_rfl⟩
  | readSupplied a d => exact ⟨.read a d, List.prefix_rfl⟩
  | readIssued a | readAddressed a | readPending a => exact ⟨.read a 0#32, [_], rfl⟩
  | writeDelivered a d s => exact ⟨.write a d s, List.prefix_rfl⟩
  | writeIssued a d s | writeAddressed a d s | writeAccepted a d s | writeDelivering a d s =>
    exact ⟨.write a d s, [_], rfl⟩

theorem requested_region {phase : BusPhase} {top : Top}
    (refines : phase.Refines top) (region : Fin 8)
    (requested : (slaveInputs top region).ARVALID = true ∨ (slaveInputs top region).AWVALID = true ∨
      (slaveInputs top region).WVALID = true) : phase.region = some region := by
  -- a slave that sees a request is the slave of the address in flight
  obtain ⟨arvalid, awvalid, wvalid, _⟩ := refines.seen region 32
  simp only [AXI4LiteMasterChannels.narrow] at arvalid awvalid wvalid
  by_contra unaddressed
  rw [arvalid, awvalid, wvalid] at requested
  simp [unaddressed] at requested

/-- End-to-end delivery: for every sequence of requests to the populated regions and every answer of
    the devices, each access reaches exactly its device exactly once, in order, and returns. -/
theorem delivers (inputs : ℕ → Inputs) (populated : ∀ n, Populated (inputs n)) :
    Delivers inputs where
  accesses := by
    intro n
    obtain ⟨phase, finished, _, logged⟩ := explained_reachable populated n
    exact ⟨finished, phase.sofar, logged, unfinished_isPrefix phase⟩
  isolated := by
    intro n region requested
    obtain ⟨phase, finished, refines, logged⟩ := explained_reachable populated n
    obtain ⟨a, flying, indexed⟩ :=
      Option.map_eq_some_iff.mp (requested_region refines region requested)
    obtain ⟨request, current, addressed⟩ := inFlight_sofar phase a flying
    exact ⟨request, by rw [logged, inFlight_append, current], by rw [addressed, indexed]⟩
  completes := by
    intro devices n request current
    obtain ⟨phase, finished, refines, logged⟩ := explained_reachable populated n
    rw [logged, inFlight_append] at current
    -- an access that has finished but is not yet reported is reported in this cycle
    cases flying : phase.address with
    | none =>
      cases phase with
      | ready access =>
        cases access with
        | none => cases current
        | some access => exact ⟨n + 1, Nat.lt_succ_self n, completed_answered refines⟩
      | _ => cases flying
    | some a =>
      obtain ⟨m, later, access, completed⟩ := flying_completes populated devices refines flying
      have grown := Clocked.logAt_isPrefix step emit reset inputs (Nat.le_of_lt later)
      obtain ⟨events, grown⟩ := grown
      refine ⟨m + 1, by omega, ?_⟩
      have told := completed_answered completed
      change log inputs n ++ events = log inputs m at grown
      rw [← grown, answered_append] at told
      omega

/-- One read of a UART register, answered after some cycles. -/
def uartRead (n : ℕ) : Inputs where
  bus :=
    { request := n == 0
      read := n == 0
      write := false
      address := 0x40000004#32
      writeData := 0#32
      writeStrobe := 0#4 }
  memSlave := ⟨0#32, false⟩
  vga := ⟨0#32, false⟩
  uart := ⟨0x41#32, 6 ≤ n⟩

theorem delivers_uartRead :
    Delivers uartRead ∧ log uartRead 9 =
      [.issue (.read 0x40000004#32), .supply 2 0x4#32 0x41#32, .readDone 0x41#32] :=
  ⟨delivers uartRead (fun _ _ => (by decide : (BusSwitch.index 0x40000004#32).val < 3)), by decide⟩

end Top

end MyCpu
