import MyCpu.Bus.BusSwitch

/-! # CPU bus port and top-level bus wiring

The data-bus part of `CPU.scala` (the adapter between the pipeline and the AXI
master, and the latched `bus_address`) and of `Top.scala` (the master, the switch
and the slaves it is wired to).  The requests of the pipeline and the answers of
the three devices are inputs. -/

namespace MyCpu

/-! ## Adapter between the pipeline and the master -/

namespace CPU

/-- `device_select`, the region bits that the pipeline sends beside its address. -/
def deviceSelect (address : Word) : BitVec 3 := address.extractLsb' 29 3

/-- `memory_bundle.address`, the pipeline's address without the region bits. -/
def memoryBundleAddress (address : Word) : Word := 0#3 ++ address.extractLsb' 0 29

/-- `full_bus_address`. -/
def fullBusAddress (address : Word) : Word :=
  deviceSelect address ++ (memoryBundleAddress address).extractLsb' 0 29

@[simp] theorem fullBusAddress_eq (address : Word) : fullBusAddress address = address := by
  apply BitVec.eq_of_getLsbD_eq
  intro i bound
  simp only [fullBusAddress, deviceSelect, memoryBundleAddress, BitVec.getLsbD_append,
    BitVec.getLsbD_extractLsb']
  by_cases low : i < 29
  · simp [low]
  · have shifted : 29 + (i - 29) = i := by omega
    have high : i - 29 < 3 := by omega
    simp [low, shifted, high]

/-- The master's bundle for a request of the pipeline. -/
def masterRequest (bus : BusOutputs) : AXI4LiteRequest 32 where
  address := fullBusAddress bus.address
  read := bus.request && bus.read
  write := bus.request && bus.write
  writeData := bus.writeData
  writeStrobe := bus.writeStrobe

/-- The pipeline's bus inputs from the master: an idle master grants. -/
def busInputs (master : AXI4LiteMaster 32) : BusInputs where
  readData := master.readData
  readValid := master.readValid
  writeValid := master.writeValid
  granted := !master.busy

def startBusTransaction (master : AXI4LiteMaster 32) (bus : BusOutputs) : Bool :=
  !master.busy && bus.request && (bus.read || bus.write)

/-- `bus_address_reg`. -/
def nextBusAddress (busAddress : Word) (master : AXI4LiteMaster 32) (bus : BusOutputs) : Word :=
  if startBusTransaction master bus then fullBusAddress bus.address else busAddress

end CPU

/-! ## Channels narrowed to a slave's address width -/

/-- A connection to a slave with fewer address bits drops the upper ones. -/
def AXI4LiteMasterChannels.narrow (io : AXI4LiteMasterChannels 32) (addrWidth : ℕ) :
    AXI4LiteMasterChannels addrWidth where
  ARVALID := io.ARVALID
  ARADDR := io.ARADDR.setWidth addrWidth
  RREADY := io.RREADY
  AWVALID := io.AWVALID
  AWADDR := io.AWADDR.setWidth addrWidth
  WVALID := io.WVALID
  WDATA := io.WDATA
  WSTRB := io.WSTRB
  BREADY := io.BREADY

/-! ## Top -/

structure Top where
  busAddress : Word
  axiMaster : AXI4LiteMaster 32
  busSwitch : BusSwitch
  memSlave : AXI4LiteSlave 32
  vga : AXI4LiteSlave 8
  uart : AXI4LiteSlave 8
  dummy : DummySlave

namespace Top

structure Inputs where
  bus : BusOutputs
  memSlave : AXI4LiteDevice
  vga : AXI4LiteDevice
  uart : AXI4LiteDevice

def reset : Top where
  busAddress := 0#32
  axiMaster := AXI4LiteMaster.reset 32
  busSwitch := BusSwitch.reset
  memSlave := AXI4LiteSlave.reset 32
  vga := AXI4LiteSlave.reset 8
  uart := AXI4LiteSlave.reset 8
  dummy := DummySlave.reset

variable (top : Top) (io : Inputs)

/-- The slave side of the switch; every unmapped region is answered by the one dummy slave. -/
def slaveChannels : Fin 8 → AXI4LiteSlaveChannels
  | 0 => top.memSlave.channels
  | 1 => top.vga.channels
  | 2 => top.uart.channels
  | _ => top.dummy.channels

def masterInputs : AXI4LiteSlaveChannels :=
  BusSwitch.masterInputs top.busSwitch top.busAddress (slaveChannels top)

def slaveInputs (i : Fin 8) : AXI4LiteMasterChannels 32 :=
  BusSwitch.slaveInputs top.busSwitch top.busAddress top.axiMaster.channels i

def step : Top where
  busAddress := CPU.nextBusAddress top.busAddress top.axiMaster io.bus
  axiMaster := top.axiMaster.step (CPU.masterRequest io.bus) (masterInputs top)
  busSwitch := top.busSwitch.step top.busAddress top.axiMaster.channels (slaveChannels top)
  memSlave := top.memSlave.step ((slaveInputs top 0).narrow 32) io.memSlave
  vga := top.vga.step ((slaveInputs top 1).narrow 8) io.vga
  uart := top.uart.step ((slaveInputs top 2).narrow 8) io.uart
  -- the inputs of the dummy slave are connected five times; the last connection, slave 7, holds
  dummy := top.dummy.step ((slaveInputs top 7).narrow 4)

end Top

end MyCpu
