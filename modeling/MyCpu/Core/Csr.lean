import MyCpu.Core.Instructions

/-! # CSR file and CLINT

`CSR.scala`: the machine trap registers, the 64-bit counters with their shadow
words, and the pipeline's write port.  `CLINT.scala`: trap entry and return,
decided from the word in ID and applied to the CSR file in the same cycle. -/

namespace MyCpu

/-! ## Addresses -/

namespace CSRRegister

def MSTATUS : CsrAddr := 0x300#12
def MISA : CsrAddr := 0x301#12
def MIE : CsrAddr := 0x304#12
def MTVEC : CsrAddr := 0x305#12
def MSCRATCH : CsrAddr := 0x340#12
def MEPC : CsrAddr := 0x341#12
def MCAUSE : CsrAddr := 0x342#12
def MCOUNTINHIBIT : CsrAddr := 0x320#12
def CycleL : CsrAddr := 0xc00#12
def CycleH : CsrAddr := 0xc80#12
def InstretL : CsrAddr := 0xc02#12
def InstretH : CsrAddr := 0xc82#12

end CSRRegister

/-- The 64-bit counters. -/
inductive Counter where
  | mcycle
  | minstret
  | mhpmcounter3
  | mhpmcounter4
  | mhpmcounter5
  | mhpmcounter6
  | mhpmcounter7
  | mhpmcounter8
  | mhpmcounter9
deriving DecidableEq, Repr

namespace Counter

def all : List Counter :=
  [.mcycle, .minstret, .mhpmcounter3, .mhpmcounter4, .mhpmcounter5, .mhpmcounter6, .mhpmcounter7,
    .mhpmcounter8, .mhpmcounter9]

/-- Number of the counter: its inhibit bit and its offset from `0xb00` and `0xb80`. -/
def number : Counter → ℕ
  | .mcycle => 0
  | .minstret => 2
  | .mhpmcounter3 => 3
  | .mhpmcounter4 => 4
  | .mhpmcounter5 => 5
  | .mhpmcounter6 => 6
  | .mhpmcounter7 => 7
  | .mhpmcounter8 => 8
  | .mhpmcounter9 => 9

/-- Machine-mode address of the low word (`MCycleL`, `MInstretL`, `MHPMCounter3L`, …). -/
def lowAddress (counter : Counter) : CsrAddr := 0xb00#12 + BitVec.ofNat 12 counter.number

/-- Machine-mode address of the high word (`MCycleH`, `MInstretH`, `MHPMCounter3H`, …). -/
def highAddress (counter : Counter) : CsrAddr := 0xb80#12 + BitVec.ofNat 12 counter.number

/-- The low word is addressed, through the machine-mode or the read-only user address. -/
def readsLow (counter : Counter) (address : CsrAddr) : Bool :=
  address = counter.lowAddress ||
    (counter = .mcycle && address = CSRRegister.CycleL) ||
      (counter = .minstret && address = CSRRegister.InstretL)

/-- The high word is addressed, through the machine-mode or the read-only user address. -/
def readsHigh (counter : Counter) (address : CsrAddr) : Bool :=
  address = counter.highAddress ||
    (counter = .mcycle && address = CSRRegister.CycleH) ||
      (counter = .minstret && address = CSRRegister.InstretH)

end Counter

/-! ## CSR file -/

structure CSR where
  mstatus : Word
  mie : Word
  mtvec : Word
  mscratch : Word
  mepc : Word
  mcause : Word
  mcountinhibit : Word
  counters : Counter → BitVec 64
  shadows : Counter → Word

/-- The pipeline's CSR write of the instruction in EX. -/
structure CsrWrite where
  enable : Bool
  address : CsrAddr
  data : Word
deriving DecidableEq, Repr

/-- `CSRDirectAccessBundle`, CSR side: the trap registers as CLINT sees them. -/
structure TrapView where
  mstatus : Word
  mepc : Word
  mcause : Word
  mtvec : Word
  mie : Word
deriving DecidableEq, Repr

/-- `CSRDirectAccessBundle`, CLINT side, with the redirect that ID and IF see. -/
structure TrapAction where
  mstatusWriteData : Word
  mepcWriteData : Word
  mcauseWriteData : Word
  directWriteEnable : Bool
  idInterruptAssert : Bool
  idInterruptHandlerAddress : Word
deriving DecidableEq, Repr

namespace CSR

def reset : CSR where
  mstatus := 0#32
  mie := 0#32
  mtvec := 0#32
  mscratch := 0#32
  mepc := 0#32
  mcause := 0#32
  mcountinhibit := 0#32
  counters := fun _ => 0#64
  shadows := fun _ => 0#32

def misa : Word := 0x40001100#32

/-- `regLUT`: a low word is live, a high word is the shadow latched with the low word. -/
def regLUT (csr : CSR) (address : CsrAddr) : Word :=
  if address = CSRRegister.MSTATUS then csr.mstatus
  else if address = CSRRegister.MISA then misa
  else if address = CSRRegister.MIE then csr.mie
  else if address = CSRRegister.MTVEC then csr.mtvec
  else if address = CSRRegister.MSCRATCH then csr.mscratch
  else if address = CSRRegister.MEPC then csr.mepc
  else if address = CSRRegister.MCAUSE then csr.mcause
  else if address = CSRRegister.MCOUNTINHIBIT then csr.mcountinhibit
  else match Counter.all.find? (fun c => c.readsLow address) with
    | some c => (csr.counters c).extractLsb' 0 32
    | none => match Counter.all.find? (fun c => c.readsHigh address) with
      | some c => csr.shadows c
      | none => 0#32

/-- A trap register with the write of the instruction in EX already applied. -/
def bypass (write : CsrWrite) (address : CsrAddr) (register : Word) : Word :=
  if write.enable && write.address = address then write.data else register

def clintAccessBundle (csr : CSR) (write : CsrWrite) : TrapView where
  mstatus := bypass write CSRRegister.MSTATUS csr.mstatus
  mepc := bypass write CSRRegister.MEPC csr.mepc
  mcause := bypass write CSRRegister.MCAUSE csr.mcause
  mtvec := bypass write CSRRegister.MTVEC csr.mtvec
  mie := bypass write CSRRegister.MIE csr.mie

/-- Next value of a counter: a pipeline write to one of its words wins over its event. -/
def nextCounter (csr : CSR) (write : CsrWrite) (event : Counter → Bool) (counter : Counter) :
    BitVec 64 :=
  let value := csr.counters counter
  if write.enable && write.address = counter.lowAddress then value.extractLsb' 32 32 ++ write.data
  else if write.enable && write.address = counter.highAddress then
    write.data ++ value.extractLsb' 0 32
  else if event counter && !csr.mcountinhibit.getLsbD counter.number then value + 1#64
  else value

def nextShadow (csr : CSR) (readAddress : CsrAddr) (counter : Counter) : Word :=
  if counter.readsLow readAddress then (csr.counters counter).extractLsb' 32 32
    else csr.shadows counter

def step (csr : CSR) (readAddress : CsrAddr) (write : CsrWrite) (trap : TrapAction)
    (event : Counter → Bool) : CSR where
  mstatus := if trap.directWriteEnable then trap.mstatusWriteData
    else bypass write CSRRegister.MSTATUS csr.mstatus
  mie := bypass write CSRRegister.MIE csr.mie
  mtvec := bypass write CSRRegister.MTVEC csr.mtvec
  mscratch := bypass write CSRRegister.MSCRATCH csr.mscratch
  mepc := if trap.directWriteEnable then trap.mepcWriteData
    else bypass write CSRRegister.MEPC csr.mepc
  mcause := if trap.directWriteEnable then trap.mcauseWriteData
    else bypass write CSRRegister.MCAUSE csr.mcause
  mcountinhibit := if write.enable && write.address = CSRRegister.MCOUNTINHIBIT
    then write.data &&& 0x000003fd#32 else csr.mcountinhibit
  counters := nextCounter csr write event
  shadows := nextShadow csr readAddress

end CSR

/-! ## CLINT -/

namespace CLINT

structure Inputs where
  interruptFlag : Word
  instructionId : Word
  instructionAddressIf : Word
  jumpFlag : Bool
  jumpAddress : Word

/-- Trap entry on `mstatus`: MPIE takes MIE, MIE is cleared. -/
def mstatusDisableInterrupt (mstatus : Word) : Word :=
  mstatus.extractLsb' 8 24 ++ mstatus.extractLsb' 3 1 ++ mstatus.extractLsb' 4 3 ++ 0#1 ++
    mstatus.extractLsb' 0 3

/-- Trap return on `mstatus`: MIE takes MPIE, MPIE is set. -/
def mstatusRecoverInterrupt (mstatus : Word) : Word :=
  mstatus.extractLsb' 8 24 ++ 1#1 ++ mstatus.extractLsb' 4 3 ++ mstatus.extractLsb' 7 1 ++
    mstatus.extractLsb' 0 3

/-- The address saved in `mepc`. -/
def instructionAddress (io : Inputs) : Word :=
  if io.jumpFlag then io.jumpAddress else io.instructionAddressIf

def isEnvironmentTrap (instruction : Word) : Bool :=
  instruction = InstructionsEnv.ecall || instruction = InstructionsEnv.ebreak

/-- A pending interrupt whose source and the global enable are set. -/
def interruptEnabled (io : Inputs) (csr : TrapView) : Bool :=
  io.interruptFlag ≠ 0#32 && csr.mstatus.getLsbD 3 &&
    (if io.interruptFlag.getLsbD 0 then csr.mie.getLsbD 7 else csr.mie.getLsbD 11)

def environmentCause (instruction : Word) : Word :=
  if instruction = InstructionsEnv.ecall then 11#32
  else if instruction = InstructionsEnv.ebreak then 3#32
  else 10#32

def interruptCause (io : Inputs) : Word :=
  if io.interruptFlag.getLsbD 0 then 0x80000007#32 else 0x8000000b#32

/-- Trap entry with the given cause. -/
def enter (io : Inputs) (csr : TrapView) (cause : Word) : TrapAction where
  mstatusWriteData := mstatusDisableInterrupt csr.mstatus
  mepcWriteData := instructionAddress io
  mcauseWriteData := cause
  directWriteEnable := true
  idInterruptAssert := true
  idInterruptHandlerAddress := csr.mtvec

/-- Trap return. -/
def leave (csr : TrapView) : TrapAction where
  mstatusWriteData := mstatusRecoverInterrupt csr.mstatus
  mepcWriteData := csr.mepc
  mcauseWriteData := csr.mcause
  directWriteEnable := true
  idInterruptAssert := true
  idInterruptHandlerAddress := csr.mepc

def idle (csr : TrapView) : TrapAction where
  mstatusWriteData := csr.mstatus
  mepcWriteData := csr.mepc
  mcauseWriteData := csr.mcause
  directWriteEnable := false
  idInterruptAssert := false
  idInterruptHandlerAddress := 0#32

def outputs (io : Inputs) (csr : TrapView) : TrapAction :=
  if isEnvironmentTrap io.instructionId then enter io csr (environmentCause io.instructionId)
  else if interruptEnabled io csr then enter io csr (interruptCause io)
  else if io.instructionId = InstructionsRet.mret then leave csr
  else idle csr

end CLINT

end MyCpu
