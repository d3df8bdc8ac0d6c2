import MyCpu.Bus.Top
import MyCpu.Core.PipelinedCpu
import MyCpu.Software.SimMemory

/-! # The simulated computer

`Top.scala` with the core in it, and the loop of `sim.cpp` that clocks it: between
two rising edges the loop answers the memory port, writes what the port asks for
and then presents the word at the fetch address.  What the register files of the
VGA and of the UART put on their read data is an input. -/

namespace MyCpu

/-- A register write that the device of a region sees. -/
structure Delivery where
  region : Fin 8
  address : Word
  data : Word
  strobe : Strobe
deriving DecidableEq, Repr

structure Simulation where
  cpu : PipelinedCPU
  top : Top
  mem : SimMemory
  /-- `io_mem_slave_read_data`, which keeps its value between reads. -/
  readData : Word

namespace Simulation

/-- What the VGA and the UART answer when their registers are read. -/
structure Inputs where
  vgaData : Word
  uartData : Word

/-- The state after the reset sequence. -/
def boot (cpu : PipelinedCPU) (image : SimMemory) : Simulation := ⟨cpu, Top.reset, image, 0#32⟩

variable (sim : Simulation) (io : Inputs)

/-! ## Reaction to the memory port -/

def nextReadData : Word :=
  if sim.top.memSlave.read then sim.mem.read sim.top.memSlave.addr else sim.readData

def nextMem : SimMemory :=
  if sim.top.memSlave.write then
    sim.mem.write sim.top.memSlave.addr sim.top.memSlave.writeData
      (sim.top.memSlave.writeStrobe.zeroExtend 8)
  else sim.mem

/-- The word that the loop presents to the core, read behind the write. -/
def inst : Word := (nextMem sim).read sim.cpu.instFetch.pc

/-- The value that the completion check of the loop reports, if this cycle ends the simulation. -/
def testResult : Option Word :=
  if sim.top.memSlave.write ∧ sim.top.memSlave.addr = 0x100#32 ∧
    sim.top.memSlave.writeData = 0xCAFEF00D#32 then
    some ((nextMem sim).read 0x104#32)
  else none

/-! ## One clock cycle -/

def cpuInputs : PipelinedCPU.Inputs where
  instruction := inst sim
  instructionValid := true
  interruptFlag := 0#32
  bus := CPU.busInputs sim.top.axiMaster

/-- The VGA and the UART answer a read in the cycle in which they see it. -/
def topInputs : Top.Inputs where
  bus := PipelinedCPU.bus sim.cpu
  memSlave := ⟨nextReadData sim, sim.top.memSlave.read⟩
  vga := ⟨io.vgaData, sim.top.vga.read⟩
  uart := ⟨io.uartData, sim.top.uart.read⟩

def step : Simulation where
  cpu := PipelinedCPU.step sim.cpu (cpuInputs sim)
  top := Top.step sim.top (topInputs sim io)
  mem := nextMem sim
  readData := nextReadData sim

/-- What the device behind a slave is written in this cycle. -/
def delivered {addrWidth : ℕ} (region : Fin 8) (slave : AXI4LiteSlave addrWidth) : List Delivery :=
  if slave.write then [⟨region, slave.addr.setWidth 32, slave.writeData, slave.writeStrobe⟩] else []

/-- What the memory and the two peripherals are written in this cycle. -/
def deliveries : List Delivery :=
  delivered 0 sim.top.memSlave ++ delivered 1 sim.top.vga ++ delivered 2 sim.top.uart

end Simulation

end MyCpu
