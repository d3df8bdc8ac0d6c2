import MyCpu.Verified.BusDelivery

/-! # Which regions answer

Five ports of the switch are wired to one dummy slave.  All five pass its ready
signals to the master, but its inputs come from the port connected last, port 7.
A request to ports 0, 1, 2 and 7 is registered by the slave that the master sees;
a request to ports 3 to 6 is acknowledged and seen by nobody.

A run is followed through `Tracked`: nothing is in flight, or an access of a
populated region is (`BusPhase.Refines`), or an access of port 7 is (`Answering`).
An access of ports 3 to 6 ends in `Hung` instead, which no clock edge leaves. -/

namespace MyCpu

/-! ## Owed responses -/

/-- The slave has registered the read of an address and holds or owes its data. -/
def AXI4LiteSlave.OwesRead {w : ℕ} (slave : AXI4LiteSlave w) (address : Word) : Prop :=
  slave.state = .readData ∧ slave.addr = address.setWidth w ∧
    (slave.read = true ∨ slave.RVALID = true)

/-- The slave has registered a write and holds or owes its response. -/
def AXI4LiteSlave.OwesWrite {w : ℕ} (slave : AXI4LiteSlave w) (address data : Word)
    (strobe : Strobe) : Prop :=
  slave.state = .writeResp ∧ slave.addr = address.setWidth w ∧ slave.writeData = data ∧
    slave.writeStrobe = strobe ∧ (slave.write = true ∨ slave.BVALID = true)

namespace Top

variable (top : Top)

/-- What the slave wired to a port owes; the dummy slave keeps no address. -/
def OwesRead (port : Fin 8) (address : Word) : Prop :=
  match port with
  | 0 => top.memSlave.OwesRead address
  | 1 => top.vga.OwesRead address
  | 2 => top.uart.OwesRead address
  | _ => top.dummy.readPending = true

def OwesWrite (port : Fin 8) (address data : Word) (strobe : Strobe) : Prop :=
  match port with
  | 0 => top.memSlave.OwesWrite address data strobe
  | 1 => top.vga.OwesWrite address data strobe
  | 2 => top.uart.OwesWrite address data strobe
  | _ => top.dummy.writePending = true ∧ top.dummy.writeDataOk = true

/-- A request whose handshakes are over is with the selected slave, and the switch passes its
    response. -/
structure KeepsRequest : Prop where
  read : top.axiMaster.state = .readData → top.axiMaster.ARVALID = false →
    top.busSwitch.readSel = BusSwitch.sel top.busAddress ∧
      top.OwesRead (BusSwitch.index top.busAddress) top.axiMaster.addr
  write : top.axiMaster.state = .writeResp → top.axiMaster.AWVALID = false →
    top.busSwitch.writeSel = BusSwitch.sel top.busAddress ∧
      top.OwesWrite (BusSwitch.index top.busAddress) top.axiMaster.addr top.axiMaster.writeData
        top.axiMaster.writeStrobe

end Top

/-! ## Slaves that are not addressed -/

theorem unaddressed_idle {w : ℕ} {top : Top} {region : Fin 8} {slave : AXI4LiteSlave w}
    (device : AXI4LiteDevice)
    (other : BusSwitch.index top.busAddress ≠ region) (idle : slave.control = .idle) :
    (slave.step ((Top.slaveInputs top region).narrow w) device).control = .idle := by
  -- the master shows a slave no request but one for its own port
  refine BusPhase.idle_step slave _ device idle ?_ ?_ <;>
    simp [AXI4LiteMasterChannels.narrow, Top.slaveInputs,
      BusSwitch.slaveInputs, BusSwitch.sel, other]

theorem quiet_idle {w : ℕ} {top : Top} {region : Fin 8} {slave : AXI4LiteSlave w}
    (device : AXI4LiteDevice)
    (arvalid : top.axiMaster.ARVALID = false) (awvalid : top.axiMaster.AWVALID = false)
    (idle : slave.control = .idle) :
    (slave.step ((Top.slaveInputs top region).narrow w) device).control = .idle := by
  -- a quiet master shows no slave a request
  refine BusPhase.idle_step slave _ device idle ?_ ?_ <;>
    simp [AXI4LiteMasterChannels.narrow, Top.slaveInputs, BusSwitch.slaveInputs,
      AXI4LiteMaster.channels, arvalid, awvalid]

/-- The three AXI slaves are idle. -/
structure SlavesIdle (top : Top) : Prop where
  memSlave : top.memSlave.control = .idle
  vga : top.vga.control = .idle
  uart : top.uart.control = .idle

theorem SlavesIdle.unaddressed {top : Top} (idle : SlavesIdle top)
    (unpopulated : 3 ≤ (BusSwitch.index top.busAddress).val) (io : Top.Inputs) :
    SlavesIdle (top.step io) := by
  have other : ∀ region : Fin 8, region.val < 3 → BusSwitch.index top.busAddress ≠ region := by
    rintro region populated rfl
    omega
  exact ⟨unaddressed_idle io.memSlave (other 0 (by decide)) idle.memSlave,
    unaddressed_idle io.vga (other 1 (by decide)) idle.vga, unaddressed_idle io.uart
      (other 2 (by decide)) idle.uart⟩

theorem SlavesIdle.quiet {top : Top} (idle : SlavesIdle top)
    (arvalid : top.axiMaster.ARVALID = false)
    (awvalid : top.axiMaster.AWVALID = false) (io : Top.Inputs) : SlavesIdle (top.step io) :=
  ⟨quiet_idle io.memSlave arvalid awvalid idle.memSlave, quiet_idle io.vga arvalid awvalid idle.vga,
    quiet_idle io.uart arvalid awvalid idle.uart⟩

theorem SlavesIdle.channels {top : Top} (idle : SlavesIdle top) (port : Fin 8) :
    ((Top.slaveChannels top port).RVALID = true → top.dummy.readPending = true) ∧
      ((Top.slaveChannels top port).WREADY = true → top.dummy.writePending = true) ∧
      ((Top.slaveChannels top port).BVALID = true → top.dummy.writeDataOk = true) := by
  -- with idle slaves, all that the master can be told comes from the dummy slave
  have silent : ∀ {w : ℕ} (slave : AXI4LiteSlave w), slave.control = .idle →
      slave.RVALID = false ∧ slave.WREADY = false ∧ slave.BVALID = false := by
    intro w slave control
    simp only [AXI4LiteSlave.control, AXI4LiteSlave.Control.idle,
      AXI4LiteSlave.Control.mk.injEq] at control
    exact ⟨control.2.2.2.1, control.2.2.2.2.2.2.1, control.2.2.2.2.2.2.2⟩
  have memSlave := silent top.memSlave idle.memSlave
  have vga := silent top.vga idle.vga
  have uart := silent top.uart idle.uart
  fin_cases port <;>
    simp_all [Top.slaveChannels, AXI4LiteSlave.channels, DummySlave.channels]

/-! ## A request that has just been issued -/

/-- At most the master has moved: nothing is in flight, or a request has just been accepted. -/
structure Fresh (phase : BusPhase) (top : Top) : Prop where
  busAddress : ∀ a, phase.address = some a → top.busAddress = a
  master : top.axiMaster.control = phase.masterControl
  masterData : phase.MasterData top.axiMaster
  switch : top.busSwitch = BusSwitch.reset
  slaves : SlavesIdle top
  dummy : top.dummy = DummySlave.reset

namespace Fresh

variable {phase : BusPhase} {top : Top} {finished : Option BusAccess}

theorem atRest (fresh : Fresh (.ready finished) top) :
    top.axiMaster.state = .idle ∧ top.axiMaster.ARVALID = false ∧ top.axiMaster.RREADY = false ∧
      top.axiMaster.AWVALID = false ∧ top.axiMaster.WVALID = false ∧
      top.axiMaster.BREADY = false := by
  have control := fresh.master
  simp only [AXI4LiteMaster.control] at control
  obtain _ | access := finished
  · simp_all [BusPhase.masterControl]
  · cases access <;> simp_all [BusPhase.masterControl]

theorem starts (fresh : Fresh (.ready finished) top) (bus : BusOutputs) :
    CPU.startBusTransaction top.axiMaster bus = (Top.request bus).isSome := by
  rw [CPU.startBusTransaction, AXI4LiteMaster.busy, fresh.atRest.1, Top.request]
  cases bus.request <;> cases bus.write <;> cases bus.read <;> rfl

end Fresh

theorem request_address {bus : BusOutputs} {request : BusRequest}
    (asked : Top.request bus = some request) :
    request.address = bus.address := by
  simp only [Top.request] at asked
  split at asked
  · cases asked
    rfl
  · split at asked
    · cases asked
      rfl
    · cases asked

theorem next_address {finished : Option BusAccess} {bus : BusOutputs}
    {answer : Fin 8 → Option Word} {a : Word}
    (flying : ((BusPhase.ready finished).next (Top.request bus) answer).address = some a) :
    (Top.request bus).isSome = true ∧ bus.address = a := by
  cases asked : Top.request bus with
  | none => simp [BusPhase.next, asked, BusPhase.address] at flying
  | some request =>
    have presented := request_address asked
    cases request <;> simp_all [BusPhase.next, BusPhase.address, BusRequest.address]

theorem next_started {finished : Option BusAccess} {bus : BusOutputs} {answer : Fin 8 → Option Word}
    (asked : (Top.request bus).isSome = true) :
    ((BusPhase.ready finished).next (Top.request bus) answer).address = some bus.address := by
  obtain ⟨request, presented⟩ := Option.isSome_iff_exists.mp asked
  rw [presented, ← request_address presented]
  cases request <;> rfl

namespace Fresh

variable {phase : BusPhase} {top : Top} {finished : Option BusAccess}

theorem nextMaster (fresh : Fresh (.ready finished) top) (bus : BusOutputs)
    (answer : Fin 8 → Option Word)
    (io : AXI4LiteSlaveChannels) :
    (top.axiMaster.step (CPU.masterRequest bus) io).control =
        ((BusPhase.ready finished).next (Top.request bus) answer).masterControl ∧
      ((BusPhase.ready finished).next (Top.request bus) answer).MasterData
        (top.axiMaster.step (CPU.masterRequest bus) io) := by
  obtain ⟨idle, arvalid, rready, awvalid, wvalid, bready⟩ := fresh.atRest
  cases asked : bus.request <;> cases writes : bus.write <;> cases reads : bus.read <;>
    simp [AXI4LiteMaster.step, AXI4LiteMaster.control, CPU.masterRequest,
      Top.request, BusPhase.next, BusPhase.masterControl, BusPhase.MasterData, idle, arvalid,
      rready, awvalid, wvalid, bready, asked, writes, reads]

theorem next (fresh : Fresh (.ready finished) top) (io : Top.Inputs)
    (answer : Fin 8 → Option Word) :
    Fresh ((BusPhase.ready finished).next (Top.request io.bus) answer) (top.step io) := by
  obtain ⟨idle, arvalid, rready, awvalid, wvalid, bready⟩ := fresh.atRest
  obtain ⟨control, data⟩ := fresh.nextMaster io.bus answer (Top.masterInputs top)
  refine ⟨?_, control, data, ?_, fresh.slaves.quiet arvalid awvalid io, ?_⟩
  · intro a flying
    obtain ⟨asked, address⟩ := next_address flying
    change CPU.nextBusAddress top.busAddress top.axiMaster io.bus = a
    rw [CPU.nextBusAddress, fresh.starts, if_pos asked, CPU.fullBusAddress_eq, address]
  · change top.busSwitch.step _ _ _ = _
    simp [BusSwitch.step, AXI4LiteMaster.channels, arvalid, awvalid, wvalid,
      rready, bready, fresh.switch, BusSwitch.reset]
  · change top.dummy.step _ = _
    simp [fresh.dummy, DummySlave.step, DummySlave.reset,
      AXI4LiteMasterChannels.narrow, Top.slaveInputs, BusSwitch.slaveInputs,
      AXI4LiteMaster.channels, arvalid, awvalid]

theorem reset : Fresh (.ready none) Top.reset :=
  ⟨fun a flying => absurd flying (BusPhase.ready_address none a), rfl, trivial,
  rfl, ⟨rfl, rfl, rfl⟩, rfl⟩

end Fresh

/-! ## Ports 3 to 6 -/

/-- The ports whose requests no slave sees. -/
def Unheard (region : Fin 8) : Prop := 3 ≤ region.val ∧ region ≠ 7

/-- The master waits for a handshake that nobody will make. -/
structure Hung (top : Top) : Prop where
  unheard : Unheard (BusSwitch.index top.busAddress)
  waits : top.axiMaster.state = .readData ∨ top.axiMaster.state = .writeData
  slaves : SlavesIdle top
  dummy : top.dummy = DummySlave.reset

namespace Hung

variable {top : Top}

theorem busy (hung : Hung top) : top.axiMaster.busy = true := by
  obtain state | state := hung.waits <;> simp [AXI4LiteMaster.busy, state]

theorem silent (hung : Hung top) :
    (Top.masterInputs top).RVALID = false ∧ (Top.masterInputs top).WREADY = false := by
  have channels := hung.slaves.channels
  rw [hung.dummy] at channels
  have low : ∀ (sel : Selection) (inputs : Fin 8 → Bool), (∀ port, inputs port = false) →
      mux1HBool sel inputs = false := by
    intro sel inputs silent
    simp [mux1HBool, silent]
  exact ⟨low _ _ fun port => Bool.eq_false_iff.mpr
    fun high => Bool.noConfusion ((channels port).1 high), low _ _
      fun port => Bool.eq_false_iff.mpr fun high => Bool.noConfusion ((channels port).2.1 high)⟩

theorem next (hung : Hung top) (io : Top.Inputs) : Hung (top.step io) := by
  obtain ⟨rvalid, wready⟩ := hung.silent
  have held : CPU.nextBusAddress top.busAddress top.axiMaster io.bus = top.busAddress := by
    simp [CPU.nextBusAddress, CPU.startBusTransaction, hung.busy]
  refine ⟨?_, ?_, hung.slaves.unaddressed hung.unheard.1 io, ?_⟩
  · change Unheard (BusSwitch.index (CPU.nextBusAddress top.busAddress top.axiMaster io.bus))
    rw [held]
    exact hung.unheard
  · change (top.axiMaster.step _ (Top.masterInputs top)).state = _ ∨
      (top.axiMaster.step _ (Top.masterInputs top)).state = _
    obtain state | state := hung.waits
    · left
      simp [AXI4LiteMaster.step, state, rvalid]
    · right
      simp [AXI4LiteMaster.step, state, wready]
  · -- the dummy slave listens to port 7 only
    have unselected : (uintToOH (BusSwitch.index top.busAddress))[7] = false :=
      (uintToOH_getElem _ 7).trans (decide_eq_false hung.unheard.2)
    change top.dummy.step _ = _
    simp [hung.dummy, DummySlave.step, DummySlave.reset,
      AXI4LiteMasterChannels.narrow, Top.slaveInputs, BusSwitch.slaveInputs,
      BusSwitch.sel, unselected]

end Hung

theorem Fresh.hung {finished : Option BusAccess} {request : Option BusRequest}
    {answer : Fin 8 → Option Word}
    {top : Top} {a : Word} (fresh : Fresh ((BusPhase.ready finished).next request answer) top)
    (flying : ((BusPhase.ready finished).next request answer).address = some a)
    (unheard : Unheard (BusSwitch.index a)) : Hung top := by
  -- a request to one of the ports 3 to 6 hangs the bus
  have state := congrArg AXI4LiteMaster.Control.state fresh.master
  refine ⟨fresh.busAddress a flying ▸ unheard, ?_, fresh.slaves, fresh.dummy⟩
  cases request with
  | none => cases flying
  | some request =>
    cases request with
    | read => exact Or.inl state
    | write => exact Or.inr state

/-! ## Port 7 -/

/-- The registers of the dummy slave while it answers; it accepts an address at once. -/
def BusPhase.dummySlave : BusPhase → Option DummySlave
  | .ready _ | .readIssued _ | .writeIssued _ _ _ => some DummySlave.reset
  | .readSupplied _ _ => some ⟨true, false, false⟩
  | .writeAccepted _ _ _ => some ⟨false, true, false⟩
  | .writeDelivered _ _ _ => some ⟨false, true, true⟩
  | _ => none

/-- The phase behind one in which the dummy slave answers. -/
def BusPhase.dummyNext : BusPhase → BusPhase
  | .readIssued a => .readSupplied a 0xDEADBEEF#32
  | .readSupplied a d => .ready (some (.read a d))
  | .writeIssued a d s => .writeAccepted a d s
  | .writeAccepted a d s => .writeDelivered a d s
  | .writeDelivered a d s => .ready (some (.write a d s))
  | phase => phase

/-- The dummy slave answers an access of port 7. -/
structure Answering (phase : BusPhase) (top : Top) : Prop where
  dummy : phase.dummySlave = some top.dummy
  busAddress : phase.address = some top.busAddress
  region : BusSwitch.index top.busAddress = 7
  master : top.axiMaster.control = phase.masterControl
  switch : top.busSwitch = phase.switchSelection
  slaves : SlavesIdle top

namespace Answering

variable {phase : BusPhase} {top : Top}

/-- What the master sees comes from the dummy slave. -/
theorem masterInputs (answering : Answering phase top) :
    (Top.masterInputs top).ARREADY = top.dummy.channels.ARREADY ∧
      (Top.masterInputs top).AWREADY = top.dummy.channels.AWREADY ∧
      (Top.masterInputs top).WREADY = top.dummy.channels.WREADY ∧
      (Top.masterInputs top).RVALID = top.dummy.channels.RVALID ∧
      (Top.masterInputs top).BVALID = top.dummy.channels.BVALID := by
  obtain ⟨dummy, busAddress, region, -, switch, -⟩ := answering
  have driven : Top.slaveChannels top 7 = top.dummy.channels := rfl
  simp only [Top.masterInputs, BusSwitch.masterInputs, BusSwitch.sel, region,
    mux1HBool_uintToOH, driven, switch]
  refine ⟨trivial, trivial, trivial, ?_⟩
  -- the latched selection is that of port 7 in every phase in which the dummy slave responds
  cases phase <;> simp only [BusPhase.dummySlave, Option.some.injEq, reduceCtorEq] at dummy <;>
    simp only [BusPhase.address, Option.some.injEq] at busAddress <;>
    simp [BusPhase.switchSelection, BusSwitch.sel, busAddress, region, mux1HBool_uintToOH,
      mux1HBool_zero, driven, DummySlave.channels, DummySlave.reset, ← dummy]

/-- The registers of a phase of the dummy slave, case by case. -/
theorem cases (answering : Answering phase top) :
    (∃ a, phase = .readIssued a) ∨ (∃ a d, phase = .readSupplied a d) ∨
      (∃ a d s, phase = .writeIssued a d s) ∨
      (∃ a d s, phase = .writeAccepted a d s) ∨ ∃ a d s, phase = .writeDelivered a d s := by
  have dummy := answering.dummy
  have flying := answering.busAddress
  cases phase <;> simp [BusPhase.dummySlave, BusPhase.address] at dummy flying ⊢

theorem busy (answering : Answering phase top) : top.axiMaster.busy = true := by
  have state := congrArg AXI4LiteMaster.Control.state answering.master
  simp only [AXI4LiteMaster.control] at state
  obtain ⟨a, rfl⟩ | ⟨a, d, rfl⟩ | ⟨a, d, s, rfl⟩ | ⟨a, d, s, rfl⟩ | ⟨a, d, s, rfl⟩ :=
    answering.cases <;>
      simp [AXI4LiteMaster.busy, state, BusPhase.masterControl]

theorem nextMaster (answering : Answering phase top) (bundle : AXI4LiteRequest 32) :
    (top.axiMaster.step bundle (Top.masterInputs top)).control = phase.dummyNext.masterControl := by
  obtain ⟨arready, awready, wready, rvalid, bvalid⟩ := answering.masterInputs
  have dummy := answering.dummy
  have control := answering.master
  obtain ⟨a, rfl⟩ | ⟨a, d, rfl⟩ | ⟨a, d, s, rfl⟩ | ⟨a, d, s, rfl⟩ | ⟨a, d, s, rfl⟩ :=
    answering.cases <;>
      simp only [BusPhase.dummySlave, Option.some.injEq] at dummy <;>
      simp only [AXI4LiteMaster.control, BusPhase.masterControl,
      AXI4LiteMaster.Control.mk.injEq] at control <;>
      simp [← dummy, DummySlave.channels,
      DummySlave.reset] at arready awready wready rvalid bvalid <;>
      simp [AXI4LiteMaster.step, AXI4LiteMaster.control, BusPhase.dummyNext,
      BusPhase.masterControl, control, arready,
        awready, wready, rvalid, bvalid]

theorem nextSwitch (answering : Answering phase top) :
    top.busSwitch.step top.busAddress top.axiMaster.channels (Top.slaveChannels top) =
      phase.dummyNext.switchSelection := by
  obtain ⟨-, -, -, rvalid, bvalid⟩ := answering.masterInputs
  have dummy := answering.dummy
  have control := answering.master
  have switch := answering.switch
  have address := answering.busAddress
  rw [BusSwitch.step, ← Top.masterInputs, rvalid, bvalid]
  obtain ⟨a, rfl⟩ | ⟨a, d, rfl⟩ | ⟨a, d, s, rfl⟩ | ⟨a, d, s, rfl⟩ | ⟨a, d, s, rfl⟩ :=
    answering.cases <;>
      simp only [BusPhase.dummySlave, Option.some.injEq] at dummy <;>
      simp only [BusPhase.address, Option.some.injEq] at address <;>
      simp only [AXI4LiteMaster.control, BusPhase.masterControl,
      AXI4LiteMaster.Control.mk.injEq] at control <;>
      simp [← dummy, DummySlave.channels, DummySlave.reset,
      AXI4LiteMaster.channels, BusPhase.dummyNext,
        BusPhase.switchSelection, control, switch, address]

theorem nextDummy (answering : Answering phase top) :
    phase.dummyNext.dummySlave = some (top.dummy.step ((Top.slaveInputs top 7).narrow 4)) := by
  have dummy := answering.dummy
  have control := answering.master
  have switch := answering.switch
  have address := answering.busAddress
  have selected : (uintToOH (BusSwitch.index top.busAddress))[7] = true :=
    (uintToOH_getElem _ 7).trans (decide_eq_true answering.region)
  obtain ⟨a, rfl⟩ | ⟨a, d, rfl⟩ | ⟨a, d, s, rfl⟩ | ⟨a, d, s, rfl⟩ | ⟨a, d, s, rfl⟩ :=
    answering.cases <;>
      simp only [BusPhase.dummySlave, Option.some.injEq] at dummy <;>
      simp only [BusPhase.address, Option.some.injEq] at address <;>
      simp only [AXI4LiteMaster.control, BusPhase.masterControl,
      AXI4LiteMaster.Control.mk.injEq] at control <;>
      simp [← dummy, DummySlave.step, DummySlave.channels, DummySlave.reset,
      AXI4LiteMasterChannels.narrow,
        Top.slaveInputs, BusSwitch.slaveInputs, BusSwitch.sel,
        AXI4LiteMaster.channels, BusPhase.dummyNext,
        BusPhase.dummySlave, BusPhase.switchSelection, control, switch, address, selected]

/-- The dummy slave goes on to its response, and then the bus is free again. -/
theorem next (answering : Answering phase top) (io : Top.Inputs) :
    Answering phase.dummyNext (top.step io) ∨
      ∃ finished, Fresh (.ready finished) (top.step io) := by
  have master := answering.nextMaster (CPU.masterRequest io.bus)
  have switch := answering.nextSwitch
  have dummy := answering.nextDummy
  have slaves := answering.slaves.unaddressed (by rw [answering.region]; decide) io
  have held : (top.step io).busAddress = top.busAddress := by
    change CPU.nextBusAddress top.busAddress top.axiMaster io.bus = _
    simp [CPU.nextBusAddress, CPU.startBusTransaction, answering.busy]
  have region : BusSwitch.index (top.step io).busAddress = 7 := held ▸ answering.region
  have address := answering.busAddress
  obtain ⟨a, rfl⟩ | ⟨a, d, rfl⟩ | ⟨a, d, s, rfl⟩ | ⟨a, d, s, rfl⟩ | ⟨a, d, s, rfl⟩ :=
    answering.cases
  · exact Or.inl ⟨dummy, held ▸ address, region, master, switch, slaves⟩
  · exact Or.inr ⟨some (.read a (top.step io).axiMaster.readData),
      ⟨fun b flying => absurd flying (BusPhase.ready_address _ b), master, rfl, switch, slaves,
        Option.some.inj dummy.symm⟩⟩
  · exact Or.inl ⟨dummy, held ▸ address, region, master, switch, slaves⟩
  · exact Or.inl ⟨dummy, held ▸ address, region, master, switch, slaves⟩
  · exact Or.inr ⟨some (.write a d s),
      ⟨fun b flying => absurd flying (BusPhase.ready_address _ b), master, trivial, switch, slaves,
        Option.some.inj dummy.symm⟩⟩

end Answering

/-! ## Populated ports -/

/-- The registers of the slave that a response does not need any more. -/
def BusPhase.Retained {w : ℕ} (slave : AXI4LiteSlave w) : BusPhase → Prop
  | .readSupplied a _ => slave.addr = a.setWidth w
  | .writeDelivered a d s => slave.addr = a.setWidth w ∧ slave.writeData = d ∧ slave.writeStrobe = s
  | _ => True

/-- The slave of a region still holds the request whose response it drives. -/
def BusPhase.RetainedAt {w : ℕ} (phase : BusPhase) (region : Fin 8) (slave : AXI4LiteSlave w) :
    Prop :=
  phase.region = some region → phase.Retained slave

theorem retained_next {w : ℕ} {phase : BusPhase} {region : Fin 8} {slave : AXI4LiteSlave w}
    (request : Option BusRequest) (answer : Fin 8 → Option Word) (io : AXI4LiteMasterChannels w)
    (device : AXI4LiteDevice) (inPhase : phase.SlaveAt region slave) :
    (phase.next request answer).RetainedAt region (slave.step io device) := by
  intro addressed
  cases phase with
  | ready finished =>
    cases request with
    | none => trivial
    | some request => cases request <;> trivial
  | readPending a =>
    have same : (BusPhase.readPending a).region = some region := by
      simp only [BusPhase.next] at addressed
      cases reply : answer (BusSwitch.index a) <;> rw [reply] at addressed <;> exact addressed
    obtain ⟨control, data⟩ := inPhase.selected same
    have state := congrArg AXI4LiteSlave.Control.state control
    simp only [AXI4LiteSlave.control, BusPhase.slaveControl, BusPhase.SlaveData] at state data
    cases reply : answer (BusSwitch.index a) with
    | none => simp [BusPhase.next, reply, BusPhase.Retained]
    | some d =>
      simp only [BusPhase.next, reply, BusPhase.Retained, AXI4LiteSlave.step, state,
        AXI4LiteSlave.captureRead]
      split <;> split <;> exact data
  | writeDelivering a d s =>
    obtain ⟨control, data⟩ := inPhase.selected addressed
    have state := congrArg AXI4LiteSlave.Control.state control
    simp only [AXI4LiteSlave.control, BusPhase.slaveControl, BusPhase.SlaveData] at state data
    simp only [BusPhase.next, BusPhase.Retained, AXI4LiteSlave.step, state]
    split <;> exact data
  | _ => trivial

/-- The device of a populated port serves an access. -/
structure Serving (phase : BusPhase) (top : Top) : Prop where
  refines : phase.Refines top
  flying : phase.address.isSome = true
  memSlave : phase.RetainedAt 0 top.memSlave
  vga : phase.RetainedAt 1 top.vga
  uart : phase.RetainedAt 2 top.uart

/-- A busy master does not look at the requests of the CPU. -/
theorem step_busy {top : Top} (io : Top.Inputs) (busy : top.axiMaster.busy = true) :
    top.step io = top.step { io with bus := { io.bus with request := false } } := by
  have started : ∀ bus, CPU.startBusTransaction top.axiMaster bus = false := fun bus => by
    simp [CPU.startBusTransaction, busy]
  have master : top.axiMaster.step (CPU.masterRequest io.bus) (Top.masterInputs top) =
      top.axiMaster.step (CPU.masterRequest { io.bus with request := false })
        (Top.masterInputs top) := by
    simp only [AXI4LiteMaster.busy, ne_eq, decide_not, Bool.not_eq_true',
      decide_eq_false_iff_not] at busy
    cases state : top.axiMaster.state with
    | idle => exact absurd state busy
    | _ => simp only [AXI4LiteMaster.step, state]
  simp only [Top.step, CPU.nextBusAddress, started, master]

namespace Serving

variable {phase : BusPhase} {top : Top}

/-- The device goes on to its response, and then the bus is free again. -/
theorem next (serving : Serving phase top) (io : Top.Inputs) :
    (∃ phase', Serving phase' (top.step io)) ∨
      ∃ finished, Fresh (.ready finished) (top.step io) := by
  have busy : top.axiMaster.busy = true := serving.refines.busy.trans serving.flying
  rw [step_busy io busy]
  generalize unrequested : ({ io with bus := { io.bus with request := false } } : Top.Inputs) = io'
  have silent : io'.bus.request = false := by rw [← unrequested]
  have refines := BusPhase.refines_next serving.refines io'
    fun asked => absurd (silent.symm.trans asked) (by decide)
  have memSlave :=
    retained_next (Top.request io'.bus) (Top.answer io') ((Top.slaveInputs top 0).narrow 32)
      io'.memSlave serving.refines.memSlave
  have vga := retained_next (Top.request io'.bus) (Top.answer io')
    ((Top.slaveInputs top 1).narrow 8) io'.vga
    serving.refines.vga
  have uart :=
    retained_next (Top.request io'.bus) (Top.answer io') ((Top.slaveInputs top 2).narrow 8) io'.uart
      serving.refines.uart
  generalize phase.next (Top.request io'.bus) (Top.answer io') = phase' at refines memSlave vga uart
  cases flying : phase'.address with
  | some a => exact Or.inl ⟨phase', refines, by rw [flying]; rfl, memSlave, vga, uart⟩
  | none =>
    cases phase' with
    | ready finished =>
      refine Or.inr
        ⟨finished, fun a flying => absurd flying (BusPhase.ready_address _ a), refines.master,
        refines.masterData, refines.switch, ⟨refines.memSlave.unselected ?_,
        refines.vga.unselected ?_, refines.uart.unselected ?_⟩, refines.dummy⟩ <;>
        exact fun addressed => nomatch addressed
    | _ => cases flying

end Serving

theorem Fresh.serving {finished : Option BusAccess} {request : Option BusRequest}
    {answer : Fin 8 → Option Word}
    {top : Top} {a : Word} (fresh : Fresh ((BusPhase.ready finished).next request answer) top)
    (flying : ((BusPhase.ready finished).next request answer).address = some a)
    (populated : (BusSwitch.index a).val < 3) :
    Serving ((BusPhase.ready finished).next request answer) top := by
  -- a request to a populated port goes to its device
  cases request with
  | none => cases flying
  | some request =>
    have idle : ∀ {w : ℕ} (region : Fin 8) (slave : AXI4LiteSlave w), slave.control = .idle →
        ((BusPhase.ready finished).next (some request) answer).SlaveAt region slave ∧
          ((BusPhase.ready finished).next (some request) answer).RetainedAt region slave := by
      intro w region slave control
      cases request <;> exact ⟨⟨fun _ => ⟨control, trivial⟩, fun _ => control⟩, fun _ => trivial⟩
    obtain ⟨memSlave, memRetained⟩ := idle 0 top.memSlave fresh.slaves.memSlave
    obtain ⟨vga, vgaRetained⟩ := idle 1 top.vga fresh.slaves.vga
    obtain ⟨uart, uartRetained⟩ := idle 2 top.uart fresh.slaves.uart
    refine ⟨⟨fresh.busAddress, ?_, fresh.master, fresh.masterData, ?_, memSlave, vga,
      uart, fresh.dummy⟩, ?_, memRetained, vgaRetained, uartRetained⟩
    · rw [fresh.busAddress a flying]
      exact populated
    · cases request <;> exact fresh.switch
    · rw [flying]
      rfl

theorem Fresh.answering {finished : Option BusAccess} {request : Option BusRequest}
    {answer : Fin 8 → Option Word}
    {top : Top} {a : Word} (fresh : Fresh ((BusPhase.ready finished).next request answer) top)
    (flying : ((BusPhase.ready finished).next request answer).address = some a)
    (region : BusSwitch.index a = 7) :
    Answering ((BusPhase.ready finished).next request answer) top := by
  -- a request to port 7 goes to the dummy slave
  have busAddress := fresh.busAddress a flying
  cases request with
  | none => cases flying
  | some request =>
    cases request <;>
      exact ⟨congrArg some fresh.dummy.symm, flying.trans
        (congrArg some busAddress.symm), busAddress ▸ region, fresh.master,
        fresh.switch, fresh.slaves⟩

/-! ## Reachable states -/

/-- Nothing is in flight, or an access that will be answered. -/
inductive Tracked (top : Top) : Prop where
  | atRest (finished : Option BusAccess) (fresh : Fresh (.ready finished) top)
  | populated (phase : BusPhase) (serving : Serving phase top)
  | unpopulated (phase : BusPhase) (answering : Answering phase top)

/-- The request that is accepted in this cycle goes to a port whose slave sees it. -/
def Heard (top : Top) (io : Top.Inputs) : Prop :=
  CPU.startBusTransaction top.axiMaster io.bus = true → ¬ Unheard (BusSwitch.index io.bus.address)

section Edges

variable {top : Top} {finished : Option BusAccess}

/-- What an edge of a free bus leads to. -/
theorem Fresh.tracked (fresh : Fresh (.ready finished) top) (io : Top.Inputs)
    (heard : Heard top io) :
    Tracked (top.step io) := by
  have after := fresh.next io (Top.answer io)
  cases flying : ((BusPhase.ready finished).next (Top.request io.bus) (Top.answer io)).address with
  | none =>
    cases asked : Top.request io.bus with
    | none =>
      rw [asked] at after
      exact .atRest none after
    | some request =>
      rw [asked] at flying
      cases request <;> cases flying
  | some a =>
    obtain ⟨asked, address⟩ := next_address flying
    have seen := heard (by rw [fresh.starts, asked])
    rw [address] at seen
    by_cases populated : (BusSwitch.index a).val < 3
    · exact .populated _ (after.serving flying populated)
    · have region : BusSwitch.index a = 7 := by
        by_contra other
        exact seen ⟨by omega, other⟩
      exact .unpopulated _ (after.answering flying region)

theorem Tracked.next (tracked : Tracked top) (io : Top.Inputs) (heard : Heard top io) :
    Tracked (top.step io) := by
  cases tracked with
  | atRest finished fresh => exact fresh.tracked io heard
  | populated phase serving =>
    obtain ⟨phase', serving⟩ | ⟨finished, fresh⟩ := serving.next io
    · exact .populated phase' serving
    · exact .atRest finished fresh
  | unpopulated phase answering =>
    obtain answering | ⟨finished, fresh⟩ := answering.next io
    · exact .unpopulated phase.dummyNext answering
    · exact .atRest finished fresh

theorem Tracked.accepts (tracked : Tracked top) {bus : BusOutputs}
    (starts : CPU.startBusTransaction top.axiMaster bus = true) :
    ∃ finished, Fresh (.ready finished) top := by
  have idle : top.axiMaster.busy = false := by
    simp only [CPU.startBusTransaction, Bool.and_eq_true, Bool.not_eq_true'] at starts
    exact starts.1.1
  cases tracked with
  | atRest finished fresh => exact ⟨finished, fresh⟩
  | populated phase serving =>
    have busy := serving.refines.busy.trans serving.flying
    exact absurd (idle.symm.trans busy) Bool.false_ne_true
  | unpopulated phase answering => exact absurd (idle.symm.trans answering.busy) Bool.false_ne_true

end Edges

/-! ## What a reachable state keeps -/

section Keeps

variable {phase : BusPhase} {top : Top}

theorem Fresh.keeps {finished : Option BusAccess} (fresh : Fresh (.ready finished) top) :
    top.KeepsRequest := by
  constructor
  · intro state
    exact absurd (fresh.atRest.1.symm.trans state) (by decide)
  · intro state
    exact absurd (fresh.atRest.1.symm.trans state) (by decide)

theorem Answering.keeps (answering : Answering phase top) : top.KeepsRequest := by
  have dummy := answering.dummy
  have control := answering.master
  have switch := answering.switch
  have address := answering.busAddress
  obtain ⟨a, rfl⟩ | ⟨a, d, rfl⟩ | ⟨a, d, s, rfl⟩ | ⟨a, d, s, rfl⟩ | ⟨a, d, s, rfl⟩ :=
    answering.cases <;>
      simp only [BusPhase.dummySlave, Option.some.injEq] at dummy <;>
      simp only [BusPhase.address, Option.some.injEq] at address <;>
      simp only [AXI4LiteMaster.control, BusPhase.masterControl,
      AXI4LiteMaster.Control.mk.injEq] at control <;>
      constructor <;>
      simp [answering.region, Top.OwesRead, Top.OwesWrite, switch, BusPhase.switchSelection,
      control, address, ← dummy]

/-- The phases between the address handshake and the data of a read. -/
def Reading (a : Word) (phase : BusPhase) : Prop :=
  phase = .readPending a ∨ ∃ d, phase = .readSupplied a d

/-- The phases between the data handshake and the response of a write. -/
def Writing (a d : Word) (s : Strobe) (phase : BusPhase) : Prop :=
  phase = .writeDelivering a d s ∨ phase = .writeDelivered a d s

theorem Reading.slave {w : ℕ} {a : Word} {region : Fin 8} {slave : AXI4LiteSlave w}
    (reading : Reading a phase)
    (inPhase : phase.SlaveAt region slave) (retained : phase.RetainedAt region slave)
    (addressed : phase.region = some region) : slave.OwesRead a := by
  obtain ⟨control, data⟩ := inPhase.selected addressed
  have kept := retained addressed
  obtain rfl | ⟨d, rfl⟩ := reading <;>
    simp only [AXI4LiteSlave.control, BusPhase.slaveControl,
      AXI4LiteSlave.Control.mk.injEq] at control
  · exact ⟨control.1, data, Or.inl control.2.1⟩
  · exact ⟨control.1, kept, Or.inr control.2.2.2.1⟩

theorem Writing.slave {w : ℕ} {a d : Word} {s : Strobe} {region : Fin 8} {slave : AXI4LiteSlave w}
    (writing : Writing a d s phase) (inPhase : phase.SlaveAt region slave)
    (retained : phase.RetainedAt region slave)
    (addressed : phase.region = some region) : slave.OwesWrite a d s := by
  obtain ⟨control, data⟩ := inPhase.selected addressed
  have kept := retained addressed
  obtain rfl | rfl := writing <;>
    simp only [AXI4LiteSlave.control, BusPhase.slaveControl,
      AXI4LiteSlave.Control.mk.injEq] at control
  · exact ⟨control.1, data.1, data.2.1, data.2.2, Or.inl control.2.2.2.2.1⟩
  · exact ⟨control.1, kept.1, kept.2.1, kept.2.2, Or.inr control.2.2.2.2.2.2.2⟩

theorem Serving.selected (serving : Serving phase top) (Owes : {w : ℕ} → AXI4LiteSlave w → Prop)
    (slave : ∀ {w : ℕ} (region : Fin 8) (slave : AXI4LiteSlave w), phase.SlaveAt region slave →
      phase.RetainedAt region slave → phase.region = some region → Owes slave) :
    BusSwitch.index top.busAddress = 0 ∧ Owes top.memSlave ∨
      BusSwitch.index top.busAddress = 1 ∧ Owes top.vga ∨
      BusSwitch.index top.busAddress = 2 ∧ Owes top.uart := by
  -- what holds of each slave in the phase holds of the one at the selected port
  obtain ⟨a, flying⟩ := Option.isSome_iff_exists.mp serving.flying
  have populated := serving.refines.populated
  have addressed : phase.region = some (BusSwitch.index top.busAddress) := by
    rw [BusPhase.region, flying, Option.map_some, serving.refines.busAddress a flying]
  generalize BusSwitch.index top.busAddress = region at populated addressed
  have regions : region = 0 ∨ region = 1 ∨ region = 2 := by omega
  obtain rfl | rfl | rfl := regions
  · exact Or.inl ⟨rfl, slave 0 top.memSlave serving.refines.memSlave serving.memSlave addressed⟩
  · exact Or.inr (Or.inl ⟨rfl, slave 1 top.vga serving.refines.vga serving.vga addressed⟩)
  · exact Or.inr (Or.inr ⟨rfl, slave 2 top.uart serving.refines.uart serving.uart addressed⟩)

theorem Serving.keeps (serving : Serving phase top) : top.KeepsRequest := by
  have control := serving.refines.master
  have data := serving.refines.masterData
  have switch := serving.refines.switch
  simp only [AXI4LiteMaster.control] at control
  constructor
  · intro state handshake
    obtain ⟨a, reading⟩ : ∃ a, Reading a phase := by
      cases phase with
      | readPending a => exact ⟨a, Or.inl rfl⟩
      | readSupplied a d => exact ⟨a, Or.inr ⟨d, rfl⟩⟩
      | ready finished => exact absurd serving.flying Bool.false_ne_true
      | _ => simp [BusPhase.masterControl, state, handshake] at control
    have address : top.busAddress = a ∧ top.axiMaster.addr = a ∧
        top.busSwitch.readSel = BusSwitch.sel a := by
      obtain rfl | ⟨d, rfl⟩ :=
        reading <;> exact ⟨serving.refines.busAddress a rfl, data, by rw [switch]; rfl⟩
    refine ⟨by rw [address.1, address.2.2], ?_⟩
    rw [address.2.1]
    rcases serving.selected (fun slave => slave.OwesRead a) fun region slave => reading.slave with
      ⟨region, owes⟩ | ⟨region, owes⟩ | ⟨region, owes⟩ <;> rw [region] <;> exact owes
  · intro state handshake
    obtain ⟨a, d, s, writing⟩ : ∃ a d s, Writing a d s phase := by
      cases phase with
      | writeDelivering a d s => exact ⟨a, d, s, Or.inl rfl⟩
      | writeDelivered a d s => exact ⟨a, d, s, Or.inr rfl⟩
      | ready finished => exact absurd serving.flying Bool.false_ne_true
      | _ => simp [BusPhase.masterControl, state] at control
    have address : top.busAddress = a ∧ top.busSwitch.writeSel = BusSwitch.sel a ∧
        top.axiMaster.addr = a ∧
        top.axiMaster.writeData = d ∧ top.axiMaster.writeStrobe = s := by
      obtain rfl | rfl :=
        writing <;> exact ⟨serving.refines.busAddress a rfl, by rw [switch]; rfl, data⟩
    refine ⟨by rw [address.1, address.2.1], ?_⟩
    rw [address.2.2.1, address.2.2.2.1, address.2.2.2.2]
    rcases serving.selected (fun slave => slave.OwesWrite a d s)
      fun region slave => writing.slave with
      ⟨region, owes⟩ | ⟨region, owes⟩ | ⟨region, owes⟩ <;> rw [region] <;> exact owes

theorem Tracked.keeps (tracked : Tracked top) : top.KeepsRequest := by
  cases tracked with
  | atRest finished fresh => exact fresh.keeps
  | populated phase serving => exact serving.keeps
  | unpopulated phase answering => exact answering.keeps

end Keeps

/-! ## Runs -/

namespace Top

/-- No accepted request is lost, and no access of an unpopulated port is left without an answer. -/
structure LosesNothing (inputs : ℕ → Inputs) : Prop where
  keeps : ∀ n, (stateAt inputs n).KeepsRequest
  answers : ∀ n, CPU.startBusTransaction (stateAt inputs n).axiMaster (inputs n).bus = true →
    3 ≤ (BusSwitch.index (inputs n).bus.address).val →
    ∃ m > n, (stateAt inputs m).axiMaster.busy = false

variable {inputs : ℕ → Inputs}

theorem tracked_reachable (n : ℕ) (heard : ∀ k < n, Heard (stateAt inputs k) (inputs k)) :
    Tracked (stateAt inputs n) :=
  @Clocked.invariant_stateAt _ _ step Tracked Heard reset inputs (.atRest none Fresh.reset)
    (fun _ io tracked heard => tracked.next io heard) n heard

/-- A hung bus stays hung. -/
theorem hung_stays {n : ℕ} (hung : Hung (stateAt inputs n)) (m : ℕ) (later : n ≤ m) :
    Hung (stateAt inputs m) := by
  induction later with
  | refl => exact hung
  | step _ inductionHypothesis => exact inductionHypothesis.next (inputs _)

/-- The dummy slave answers a request of port 7 after at most three cycles. -/
theorem answering_completes {phase : BusPhase} {n : ℕ}
    (answering : Answering phase (stateAt inputs n)) :
    ∃ m > n, (stateAt inputs m).axiMaster.busy = false := by
  have advances : ∀ {phase : BusPhase} {n : ℕ}, Answering phase (stateAt inputs n) →
      Answering phase.dummyNext (stateAt inputs (n + 1)) ∨
      (stateAt inputs (n + 1)).axiMaster.busy = false := by
    intro phase n answering
    obtain continues | ⟨finished, fresh⟩ := answering.next (inputs n)
    · exact Or.inl continues
    · right
      change (Top.step (stateAt inputs n) (inputs n)).axiMaster.busy = false
      rw [AXI4LiteMaster.busy, fresh.atRest.1]
      rfl
  obtain second | free := advances answering
  · obtain third | free := advances second
    · obtain fourth | free := advances third
      · have given := fourth.busAddress
        obtain ⟨a, rfl⟩ | ⟨a, d, rfl⟩ | ⟨a, d, s, rfl⟩ | ⟨a, d, s, rfl⟩ | ⟨a, d, s, rfl⟩ :=
          answering.cases <;>
            cases given
      · exact ⟨n + 3, by omega, free⟩
    · exact ⟨n + 2, by omega, free⟩
  · exact ⟨n + 1, by omega, free⟩

/-- No accepted request is lost exactly when none goes to one of the ports 3 to 6. -/
theorem loses_nothing_iff (inputs : ℕ → Inputs) :
    LosesNothing inputs ↔ ∀ n, Heard (stateAt inputs n) (inputs n) := by
  constructor
  · intro keeps n
    induction n using Nat.strong_induction_on with
    | h n inductionHypothesis =>
      intro starts unheard
      obtain ⟨finished, fresh⟩ := (tracked_reachable n inductionHypothesis).accepts starts
      have asked := (fresh.starts (inputs n).bus).symm.trans starts
      have after := fresh.next (inputs n) (answer (inputs n))
      have hung : Hung (stateAt inputs (n + 1)) := after.hung (next_started asked) unheard
      obtain ⟨m, later, free⟩ := keeps.answers n starts unheard.1
      exact absurd (free.symm.trans (hung_stays hung m later).busy) Bool.false_ne_true
  · intro heard
    refine ⟨fun n => (tracked_reachable n fun k _ => heard k).keeps, fun n starts unpopulated => ?_⟩
    obtain ⟨finished, fresh⟩ := (tracked_reachable n fun k _ => heard k).accepts starts
    have asked := (fresh.starts (inputs n).bus).symm.trans starts
    have after := fresh.next (inputs n) (answer (inputs n))
    have region : BusSwitch.index (inputs n).bus.address = 7 := by
      by_contra other
      exact heard n starts ⟨unpopulated, other⟩
    obtain ⟨m, later, free⟩ :=
      answering_completes (n := n + 1) (after.answering (next_started asked) region)
    exact ⟨m, by omega, free⟩

/-- One read of region 3. -/
def unmappedRead (n : ℕ) : Inputs where
  bus :=
    { request := n == 0
      read := n == 0
      write := false
      address := 0x60000000#32
      writeData := 0#32
      writeStrobe := 0#4 }
  memSlave := ⟨0#32, false⟩
  vga := ⟨0#32, false⟩
  uart := ⟨0#32, false⟩

/-- The master's address handshake is over in cycle 2, and the dummy slave has registered
    nothing. -/
theorem unmappedRead_lost :
    ¬ (stateAt unmappedRead 2).KeepsRequest ∧
      ∀ m ≥ 1, (stateAt unmappedRead m).axiMaster.busy = true := by
  constructor
  · intro keeps
    have owes : (stateAt unmappedRead 2).dummy.readPending = true :=
      (keeps.read (by decide) (by decide)).2
    exact absurd owes (by decide)
  · have fresh := Fresh.reset.next (unmappedRead 0) (answer (unmappedRead 0))
    have hung : Hung (stateAt unmappedRead 1) := fresh.hung rfl (by unfold Unheard; decide)
    exact fun m later => (hung_stays hung m later).busy

end Top

end MyCpu
