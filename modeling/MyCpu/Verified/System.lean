import MyCpu.Isa.Rv32im
import MyCpu.Verified.PipelineRun

/-! # The core with its program and its data memory

The pipeline reads every instruction from a fixed program and is connected to a
data memory that answers after any delay; an interrupt may be raised in any cycle.
Beside the registers of the core, the system records for each stage whether it
holds a bubble, an instruction, an earlier copy of a branch or jump that is still
held in ID, or the `mret` of the interrupt handler, so that the log can name each
instruction once. -/

namespace MyCpu

/-- What a stage holds. -/
inductive Occupant where
  | bubble
  | instruction
  | reissued
  | handler
deriving DecidableEq, Repr

/-- Nothing of the program moves through a stage that holds a bubble or the `mret` of the
    handler. -/
def Occupant.passive : Occupant → Bool
  | .bubble | .handler => true
  | .instruction | .reissued => false

/-- The delays of the data bus in one cycle. -/
structure Latency where
  granted : Bool
  readValid : Bool
  writeValid : Bool
deriving DecidableEq, Repr

/-- What the core sees of its surroundings in one cycle. -/
structure Stimulus extends Latency where
  interruptFlag : Word
deriving DecidableEq, Repr

/-- A cycle without an interrupt. -/
def Latency.quiet (latency : Latency) : Stimulus := { latency with interruptFlag := 0#32 }

structure System where
  cpu : PipelinedCPU
  dataMemory : Rv32im.Memory
  id : Occupant
  ex : Occupant
  mem : Occupant

/-- What the core holds when a program starts, beside its architectural state: the CSR file and any
    contents of the predictors. -/
structure Setup where
  csrRegs : CSR
  btb : BranchTargetBuffer 5
  ras : ReturnAddressStack 2
  ibtb : IndirectBTB 3

/-- The CSR file of reset and empty predictors. -/
def Setup.reset : Setup where
  csrRegs := CSR.reset
  btb := PowerUp.zero.btb
  ras := PowerUp.zero.ras
  ibtb := PowerUp.zero.ibtb

namespace System

/-- The little-endian word at an aligned address. -/
def readWord (memory : Rv32im.Memory) (address : Word) : Word :=
  memory (address + 3#32) ++ memory (address + 2#32) ++ memory (address + 1#32) ++ memory address

/-- The memory after a strobed word is written. -/
def writeWord (memory : Rv32im.Memory) (address data : Word) (strobe : Strobe) : Rv32im.Memory :=
  fun target =>
    let offset := (target - address).toNat
    if offset < 4 ∧ strobe.getLsbD offset = true then data.extractLsb'
      (8 * offset) 8 else memory target

theorem writeWord_twice (memory : Rv32im.Memory) (address data : Word) (strobe : Strobe) :
    writeWord (writeWord memory address data strobe) address data strobe =
      writeWord memory address data strobe := by
  funext target
  simp only [writeWord]
  split_ifs <;> rfl

/-- An empty pipeline in an architectural state. -/
def start (setup : Setup) (hart : Rv32im.Hart) : System where
  cpu :=
    { PipelinedCPU.reset hart.regs setup.btb setup.ras setup.ibtb with
      instFetch :=
        { (PipelinedCPU.reset hart.regs setup.btb setup.ras setup.ibtb).instFetch with
          pc := hart.pc }
      csrRegs := setup.csrRegs }
  dataMemory := hart.memory
  id := .bubble
  ex := .bubble
  mem := .bubble

variable (program : Rv32im.Program) (predictions : Predictions)
    (system : System) (stimulus : Stimulus)

/-- The inputs of the core in this cycle. -/
def inputs : PipelinedCPU.Inputs where
  instruction := program system.cpu.instFetch.pc
  instructionValid := true
  interruptFlag := stimulus.interruptFlag
  bus :=
    { readData := readWord system.dataMemory (PipelinedCPU.bus system.cpu).address
      readValid := stimulus.readValid
      writeValid := stimulus.writeValid
      granted := stimulus.granted }

def memStall : Bool := PipelinedCPU.memStall system.cpu (inputs program system stimulus)

/-- The data memory takes the write of MEM when the bus grants it. -/
def writeGranted : Bool := (PipelinedCPU.bus system.cpu).write && stimulus.granted

def nextMemory : Rv32im.Memory :=
  let bus := PipelinedCPU.bus system.cpu
  if writeGranted system stimulus then
    writeWord system.dataMemory bus.address bus.writeData bus.writeStrobe
  else system.dataMemory

/-- What IF hands to ID. -/
def fetches : Occupant :=
  if program system.cpu.instFetch.pc = InstructionsRet.mret then .handler else .instruction

/-- What ID hands to EX: a branch or jump that `branch_hazard` holds in ID leaves an early copy. -/
def issues : Occupant :=
  if system.id = .instruction ∧ PipelinedCPU.branchHazard system.cpu then .reissued else system.id

/-- One clock edge of the whole system, with a given answer of the predictors. -/
def stepWith : System where
  cpu := PipelinedCPU.stepWith predictions system.cpu (inputs program system stimulus)
  dataMemory := nextMemory system stimulus
  id := pipelineRegister .bubble
    (PipelinedCPU.if2idStall system.cpu (inputs program system stimulus))
    (PipelinedCPU.if2idFlush system.cpu (inputs program system stimulus))
    (fetches program system) system.id
  ex := pipelineRegister .bubble (memStall program system stimulus)
    (PipelinedCPU.id2exFlush system.cpu (inputs program system stimulus)) (issues system) system.ex
  mem := pipelineRegister .bubble (memStall program system stimulus) false system.ex system.mem

/-- One clock edge of the whole system. -/
def step : System := stepWith program system.cpu.instFetch.predict system stimulus

/-- One clock edge when none of the predictors reports a hit. -/
def stepUnpredicted : System := stepWith program Predictions.miss system stimulus

/-- The register write that MEM hands to WB, without `x0`. -/
def regWrite : Option (RegAddr × Word) :=
  let wb := PipelinedCPU.mem2wbInput system.cpu (inputs program system stimulus)
  if wb.regsWriteEnable ∧ wb.regsWriteAddress ≠ 0#5 then
    some (wb.regsWriteAddress, WriteBack.regsWriteData wb)
  else none

/-- The effects that this cycle commits: the bus write that is granted, and the instruction that
    passes from MEM to WB. -/
def emit : List Rv32im.Event :=
  let bus := PipelinedCPU.bus system.cpu
  (if writeGranted system stimulus then
    [.busWrite ⟨bus.address, bus.writeData, bus.writeStrobe⟩] else []) ++
    (if !memStall program system stimulus ∧ system.mem = .instruction
      then [.retire system.cpu.ex2mem.instructionAddress (regWrite program system stimulus)]
        else [])

end System

end MyCpu
