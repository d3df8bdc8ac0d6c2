import MyCpu.Core.MemoryAccess
import MyCpu.Isa.Rv32im

/-! # The memory of the simulator

The class `Memory` of `sim.cpp`: a vector of words behind the bus. -/

namespace MyCpu

structure SimMemory where
  mem : Array Word

namespace SimMemory

variable (memory : SimMemory)

def read (addr : Word) : Word :=
  let addr := addr >>> 2
  if addr.toNat < memory.mem.size then memory.mem.getD addr.toNat 0#32 else 0#32

/-- The bits of a word that a write replaces. -/
def mask (strobe : BitVec 8) : Word :=
  (if strobe &&& 1#8 ≠ 0#8 then 0x000000FF#32 else 0#32) |||
    (if strobe &&& 2#8 ≠ 0#8 then 0x0000FF00#32 else 0#32) |||
    (if strobe &&& 4#8 ≠ 0#8 then 0x00FF0000#32 else 0#32) |||
      (if strobe &&& 8#8 ≠ 0#8 then 0xFF000000#32 else 0#32)

def write (addr val : Word) (strobe : BitVec 8) : SimMemory :=
  let addr := addr >>> 2
  if memory.mem.size ≤ addr.toNat then memory
  else
    { mem := memory.mem.set! addr.toNat
        ((memory.mem.getD addr.toNat 0#32 &&& ~~~mask strobe) ||| (val &&& mask strobe)) }

/-- The memory after the write half of a request. -/
def react (bus : BusOutputs) : SimMemory :=
  if bus.write then memory.write bus.address bus.writeData
    (bus.writeStrobe.zeroExtend 8) else memory

/-- The bytes of the memory, all zero behind its end. -/
def bytes : Rv32im.Memory := fun address =>
  (memory.read address).extractLsb' (8 * Rv32im.lane address) 8

end SimMemory

end MyCpu
