import MyCpu.Core.PipelineRegisters

/-! # Memory access

`MemoryAccess.scala`: the Idle/Read/Write state machine that turns a load or a
store held in EX/MEM into one bus request, stalls the pipeline until the
response, and selects the value forwarded to younger instructions. -/

namespace MyCpu

/-- Byte strobes of a bus write, bit `i` for byte lane `i`. -/
abbrev Strobe := BitVec 4

inductive MemoryAccessStates where
  | idle
  | read
  | write
deriving DecidableEq, Repr

/-- The response half of `BusBundle`. -/
structure BusInputs where
  readData : Word
  readValid : Bool
  writeValid : Bool
  granted : Bool
deriving DecidableEq, Repr

/-- The request half of `BusBundle`. -/
structure BusOutputs where
  request : Bool
  read : Bool
  write : Bool
  address : Word
  writeData : Word
  writeStrobe : Strobe
deriving DecidableEq, Repr

structure MemoryAccess where
  memAccessState : MemoryAccessStates
  latchedMemoryReadData : Word
  latchedRegsWriteSource : RegWriteSource
  latchedRegsWriteAddress : RegAddr
  latchedRegsWriteEnable : Bool
  readJustCompleted : Bool
deriving DecidableEq, Repr

namespace MemoryAccess

def reset : MemoryAccess where
  memAccessState := .idle
  latchedMemoryReadData := 0#32
  latchedRegsWriteSource := .aluResult
  latchedRegsWriteAddress := 0#5
  latchedRegsWriteEnable := false
  readJustCompleted := false

/-! ## Byte lanes -/

def memAddressIndex (io : EX2MEM) : BitVec 2 := io.aluResult.extractLsb' 0 2

def busAddress (io : EX2MEM) : Word := io.aluResult.extractLsb' 2 30 ++ 0#2

def byteLane (index : BitVec 2) (data : Word) : BitVec 8 :=
  if index = 0#2 then data.extractLsb' 0 8
  else if index = 1#2 then data.extractLsb' 8 8
  else if index = 2#2 then data.extractLsb' 16 8
  else data.extractLsb' 24 8

/-- Offset 3 crosses the word boundary and reads the upper half, like offset 2. -/
def halfLane (index : BitVec 2) (data : Word) : BitVec 16 :=
  if index = 0#2 then data.extractLsb' 0 16
  else if index = 1#2 then data.extractLsb' 8 16
  else data.extractLsb' 16 16

def processedData (funct3 : BitVec 3) (index : BitVec 2) (data : Word) : Word :=
  if funct3 = InstructionsTypeL.lb then (byteLane index data).signExtend 32
  else if funct3 = InstructionsTypeL.lbu then (byteLane index data).zeroExtend 32
  else if funct3 = InstructionsTypeL.lh then (halfLane index data).signExtend 32
  else if funct3 = InstructionsTypeL.lhu then (halfLane index data).zeroExtend 32
  else if funct3 = InstructionsTypeL.lw then data
  else 0#32

def storeStrobe (funct3 : BitVec 3) (index : BitVec 2) : Strobe :=
  if funct3 = InstructionsTypeS.sb then 1#4 <<< index
  else if funct3 = InstructionsTypeS.sh then
    if index = 0#2 then 0b0011#4 else if index = 1#2 then 0b0110#4 else 0b1100#4
  else if funct3 = InstructionsTypeS.sw then 0b1111#4
  else 0#4

def storeData (funct3 : BitVec 3) (index : BitVec 2) (data : Word) : Word :=
  if funct3 = InstructionsTypeS.sb then
    ((data.extractLsb' 0 8).zeroExtend 32) <<< ((index.zeroExtend 5) <<< 3)
  else if funct3 = InstructionsTypeS.sh then
    if index = 0#2 then (data.extractLsb' 0 16).zeroExtend 32
    else if index = 1#2 then ((data.extractLsb' 0 16).zeroExtend 32) <<< 8
    else ((data.extractLsb' 0 16).zeroExtend 32) <<< 16
  else data

variable (mem : MemoryAccess) (io : EX2MEM) (bus : BusInputs)

/-! ## Completion and stall -/

def readCompletes : Bool := mem.memAccessState = .read && bus.readValid

def writeCompletes : Bool := mem.memAccessState = .write && bus.writeValid

/-- A load or store waits in MEM for the bus. -/
def ctrlStallFlag : Bool :=
  match mem.memAccessState with
  | .read => !bus.readValid
  | .write => !bus.writeValid
  | .idle => io.memoryReadEnable || io.memoryWriteEnable

def startsRead : Bool := mem.memAccessState = .idle && io.memoryReadEnable

def startsWrite : Bool := mem.memAccessState = .idle && !io.memoryReadEnable && io.memoryWriteEnable

def busOutputs : BusOutputs where
  request := mem.memAccessState ≠ .idle || io.memoryReadEnable || io.memoryWriteEnable
  read := startsRead mem io
  write := startsWrite mem io
  address := busAddress io
  writeData := if startsWrite mem io then storeData io.funct3
    (memAddressIndex io) io.reg2Data else 0#32
  writeStrobe := if startsWrite mem io then storeStrobe io.funct3 (memAddressIndex io) else 0#4

/-! ## Write-back and forwarding outputs -/

def wbMemoryReadData : Word :=
  if readCompletes mem bus then processedData io.funct3 (memAddressIndex io) bus.readData
  else mem.latchedMemoryReadData

def inActiveRead : Bool := mem.memAccessState = .read && !bus.readValid

def wbRegsWriteSource : RegWriteSource :=
  if inActiveRead mem bus then mem.latchedRegsWriteSource else io.regsWriteSource

def wbRegsWriteAddress : RegAddr :=
  if inActiveRead mem bus then mem.latchedRegsWriteAddress else io.regsWriteAddress

def wbRegsWriteEnable : Bool :=
  if inActiveRead mem bus then mem.latchedRegsWriteEnable else io.regsWriteEnable

def forwardToEx : Word :=
  match wbRegsWriteSource mem io bus with
  | .memory => wbMemoryReadData mem io bus
  | .csr => io.csrReadData
  | .nextInstructionAddress => io.instructionAddress + 4#32
  | .aluResult => io.aluResult

/-! ## Clocked update -/

def nextState : MemoryAccessStates :=
  match mem.memAccessState with
  | .read => if bus.readValid then .idle else .read
  | .write => if bus.writeValid then .idle else .write
  | .idle =>
    if io.memoryReadEnable then (if bus.granted then .read else .idle)
    else if io.memoryWriteEnable then (if bus.granted then .write else .idle)
    else .idle

def step : MemoryAccess where
  memAccessState := nextState mem io bus
  latchedMemoryReadData := wbMemoryReadData mem io bus
  latchedRegsWriteSource := if startsRead mem io then io.regsWriteSource
    else mem.latchedRegsWriteSource
  latchedRegsWriteAddress := if startsRead mem io then io.regsWriteAddress
    else mem.latchedRegsWriteAddress
  latchedRegsWriteEnable := if startsRead mem io then io.regsWriteEnable
    else mem.latchedRegsWriteEnable
  readJustCompleted := readCompletes mem bus

end MemoryAccess

end MyCpu
