import MyCpu.Core.Instructions

/-! # Hazard detection

`Control.scala`: the six hazard terms that hold ID, the flush of ID/EX, and the
suppression of a branch decision whose operands are not ready. -/

namespace MyCpu.Control

structure Inputs where
  jumpInstructionId : Bool
  rs1Id : RegAddr
  rs2Id : RegAddr
  memoryReadEnableEx : Bool
  rdEx : RegAddr
  memoryReadEnableMem : Bool
  rdMem : RegAddr
  memoryWriteEnableMem : Bool
  regsWriteSourceEx : RegWriteSource
  regsWriteSourceMem : RegWriteSource
  regsWriteSourceWb : RegWriteSource
  rdWb : RegAddr

/-- The destination `rd` is a register that the instruction in ID names as a source. -/
def names (io : Inputs) (rd : RegAddr) : Bool := rd ≠ 0#5 && (rd = io.rs1Id || rd = io.rs2Id)

def exHazardForBranch (io : Inputs) : Bool := io.jumpInstructionId && names io io.rdEx

def memHazardForBranch (io : Inputs) : Bool :=
  io.jumpInstructionId && io.memoryReadEnableMem && names io io.rdMem

def storeLoadHazard (io : Inputs) : Bool := io.memoryWriteEnableMem && io.memoryReadEnableEx

def jalJalrHazardEx (io : Inputs) : Bool :=
  io.regsWriteSourceEx = .nextInstructionAddress && names io io.rdEx

def jalJalrHazardMem (io : Inputs) : Bool :=
  io.regsWriteSourceMem = .nextInstructionAddress && names io io.rdMem

def jalJalrHazardWb (io : Inputs) : Bool :=
  io.regsWriteSourceWb = .nextInstructionAddress && names io io.rdWb

def isLoadUseHazard (io : Inputs) : Bool := io.memoryReadEnableEx && names io io.rdEx

def isJalJalrHazard (io : Inputs) : Bool :=
  jalJalrHazardEx io || jalJalrHazardMem io || jalJalrHazardWb io

/-- The condition of the stall branch of `Control`. -/
def hazard (io : Inputs) : Bool :=
  ((io.jumpInstructionId || io.memoryReadEnableEx) && names io io.rdEx) || memHazardForBranch io ||
    storeLoadHazard io || jalJalrHazardEx io || jalJalrHazardMem io || jalJalrHazardWb io

def pcStall (io : Inputs) : Bool := hazard io

def ifStall (io : Inputs) : Bool := hazard io

def idFlush (io : Inputs) : Bool := hazard io && (isLoadUseHazard io || isJalJalrHazard io)

def branchHazard (io : Inputs) : Bool :=
  hazard io && (exHazardForBranch io || memHazardForBranch io)

def jalJalrHazard (io : Inputs) : Bool := hazard io && isJalJalrHazard io

/-- A taken transfer flushes IF/ID only when no hazard holds ID. -/
def ifFlush (io : Inputs) (jumpFlag : Bool) : Bool := !hazard io && jumpFlag

end MyCpu.Control
