import MyCpu.Core.Instructions

/-! # Branch predictors

`BranchTargetBuffer.scala`, `ReturnAddressStack.scala` and `IndirectBTB.scala`,
each over `2 ^ k` entries. -/

namespace MyCpu

/-! ## Branch target buffer -/

structure BranchTargetBuffer (indexBits : ℕ) where
  valid : BitVec indexBits → Bool
  tags : BitVec indexBits → Word
  targets : BitVec indexBits → Word
  counters : BitVec indexBits → BitVec 2

namespace BranchTargetBuffer

variable {indexBits : ℕ}

def reset (tags targets : BitVec indexBits → Word) : BranchTargetBuffer indexBits where
  valid := fun _ => false
  tags := tags
  targets := targets
  counters := fun _ => 2#2

def getIndex (indexBits : ℕ) (pc : Word) : BitVec indexBits := pc.extractLsb' 2 indexBits

/-- The bits of the pc above the index. -/
def getTag (indexBits : ℕ) (pc : Word) : Word := pc >>> (indexBits + 2)

def entryHit (btb : BranchTargetBuffer indexBits) (pc : Word) : Bool :=
  btb.valid (getIndex indexBits pc) && btb.tags (getIndex indexBits pc) = getTag indexBits pc

def predictedTaken (btb : BranchTargetBuffer indexBits) (pc : Word) : Bool :=
  btb.entryHit pc && (2#2).ule (btb.counters (getIndex indexBits pc))

def predictedPc (btb : BranchTargetBuffer indexBits) (pc : Word) : Word :=
  if btb.predictedTaken pc then btb.targets (getIndex indexBits pc) else pc + 4#32

def update (btb : BranchTargetBuffer indexBits) (pc target : Word) (taken : Bool) :
    BranchTargetBuffer indexBits :=
  let index := getIndex indexBits pc
  let counter := btb.counters index
  if taken then
    { valid := Function.update btb.valid index true
      tags := Function.update btb.tags index (getTag indexBits pc)
      targets := Function.update btb.targets index target
      counters := Function.update btb.counters index
        (if btb.entryHit pc then (if counter = 3#2 then 3#2 else counter + 1#2) else 2#2) }
  else if btb.entryHit pc then
    if counter = 1#2 then { btb with valid := Function.update btb.valid index false }
    else if (1#2).ult counter then
      { btb with counters := Function.update btb.counters index (counter - 1#2) }
    else btb
  else btb

/-- Clocked update port. -/
def step (btb : BranchTargetBuffer indexBits) (updateValid : Bool) (updatePc updateTarget : Word)
    (updateTaken : Bool) : BranchTargetBuffer indexBits :=
  if updateValid then btb.update updatePc updateTarget updateTaken else btb

end BranchTargetBuffer

/-! ## Return address stack -/

structure ReturnAddressStack (k : ℕ) where
  stack : BitVec k → Word
  sp : BitVec (k + 1)

namespace ReturnAddressStack

variable {k : ℕ}

def reset (stack : BitVec k → Word) : ReturnAddressStack k := ⟨stack, 0#(k + 1)⟩

/-- The stack pointer of a full stack. -/
def depth (k : ℕ) : BitVec (k + 1) := BitVec.ofNat (k + 1) (2 ^ k)

def tosIndex (ras : ReturnAddressStack k) : BitVec k := (ras.sp - 1#(k + 1)).truncate k

def valid (ras : ReturnAddressStack k) : Bool := (0#(k + 1)).ult ras.sp

def predictedAddr (ras : ReturnAddressStack k) : Word :=
  if ras.valid then ras.stack ras.tosIndex else 0#32

/-- Store at `sp` and increment it. -/
def append (ras : ReturnAddressStack k) (address : Word) : ReturnAddressStack k where
  stack := Function.update ras.stack (ras.sp.truncate k) address
  sp := ras.sp + 1#(k + 1)

/-- Drop the oldest address of a full stack and store at the top. -/
def shift (ras : ReturnAddressStack k) (address : Word) : ReturnAddressStack k where
  stack := fun index => if index = BitVec.allOnes k then address else ras.stack (index + 1#k)
  sp := ras.sp

def step (ras : ReturnAddressStack k) (push : Bool) (pushAddr : Word) (pop restore : Bool)
    (restoreAddr : Word) (restoreValid : Bool) : ReturnAddressStack k :=
  if restore then
    if restoreValid && ras.sp.ult (depth k) then ras.append restoreAddr else ras
  else if push && pop then { ras with stack := Function.update ras.stack ras.tosIndex pushAddr }
  else if push then
    if ras.sp.ult (depth k) then ras.append pushAddr else ras.shift pushAddr
  else if pop then
    if ras.valid then { ras with sp := ras.sp - 1#(k + 1) } else ras
  else ras

end ReturnAddressStack

/-! ## Indirect branch target buffer -/

/-- XOR-fold of a register value to 8 bits. -/
def indirectBTBHash (value : Word) : BitVec 8 :=
  value.extractLsb' 0 8 ^^^ value.extractLsb' 8 8 ^^^ value.extractLsb' 16 8 ^^^
    value.extractLsb' 24 8

structure IndirectBTB (k : ℕ) where
  valid : BitVec k → Bool
  pcTags : BitVec k → BitVec 30
  rs1Hashs : BitVec k → BitVec 8
  targets : BitVec k → Word
  ages : BitVec k → BitVec k

namespace IndirectBTB

variable {k : ℕ}

def reset (pcTags : BitVec k → BitVec 30) (rs1Hashs : BitVec k → BitVec 8)
    (targets : BitVec k → Word) :
    IndirectBTB k where
  valid := fun _ => false
  pcTags := pcTags
  rs1Hashs := rs1Hashs
  targets := targets
  ages := fun _ => 0#k

/-- All entry numbers, lowest first. -/
def indices (k : ℕ) : List (BitVec k) := (List.finRange (2 ^ k)).map BitVec.ofFin

/-- The age of an entry that has not been used for longest. -/
def maxAge (k : ℕ) : BitVec k := BitVec.allOnes k

def getPcTag (pc : Word) : BitVec 30 := pc.extractLsb' 2 30

/-- The lowest entry number that satisfies `bits`, the highest entry number if none does. -/
def priorityEncoder (bits : BitVec k → Bool) : BitVec k :=
  ((indices k).find? bits).getD (maxAge k)

def pcHit (ibtb : IndirectBTB k) (pc : Word) (i : BitVec k) : Bool :=
  ibtb.valid i && ibtb.pcTags i = getPcTag pc

def hit (ibtb : IndirectBTB k) (pc : Word) : Bool := (indices k).any (ibtb.pcHit pc)

def hitAge (ibtb : IndirectBTB k) (pc : Word) (i : BitVec k) : BitVec k :=
  if ibtb.pcHit pc i then ibtb.ages i else maxAge k

def minAge (ibtb : IndirectBTB k) (pc : Word) : BitVec k :=
  (indices k).foldl (fun age i => if age.ult (ibtb.hitAge pc i) then age else ibtb.hitAge pc i)
  (maxAge k)

/-- The most recently used entry among those that match the pc. -/
def mru (ibtb : IndirectBTB k) (pc : Word) (i : BitVec k) : Bool :=
  ibtb.pcHit pc i && ibtb.ages i = ibtb.minAge pc

def predictedTarget (ibtb : IndirectBTB k) (pc : Word) : Word :=
  if ibtb.hit pc then ibtb.targets (priorityEncoder (ibtb.mru pc)) else 0#32

/-- Entries marked by `used` become youngest, every other valid entry ages by one. -/
def touch (ibtb : IndirectBTB k) (used : BitVec k → Bool) : BitVec k → BitVec k := fun i =>
  if used i then 0#k
  else if ibtb.valid i && (ibtb.ages i).ult (maxAge k) then ibtb.ages i + 1#k
  else ibtb.ages i

def existing (ibtb : IndirectBTB k) (pc : Word) (rs1Hash : BitVec 8) (i : BitVec k) : Bool :=
  ibtb.valid i && ibtb.pcTags i = getPcTag pc && ibtb.rs1Hashs i = rs1Hash

def oldestAge (ibtb : IndirectBTB k) : BitVec k :=
  (indices k).foldl (fun age i => if (ibtb.ages i).ult age then age else ibtb.ages i) 0#k

/-- The entry an update writes: the existing one, else an invalid one, else an oldest one. -/
def targetIndex (ibtb : IndirectBTB k) (pc : Word) (rs1Hash : BitVec 8) : BitVec k :=
  if (indices k).any (ibtb.existing pc rs1Hash) then priorityEncoder (ibtb.existing pc rs1Hash)
  else if (indices k).any (fun i => !ibtb.valid i) then priorityEncoder (fun i => !ibtb.valid i)
  else priorityEncoder (fun i => ibtb.valid i && ibtb.ages i = ibtb.oldestAge)

def update (ibtb : IndirectBTB k) (pc : Word) (rs1Hash : BitVec 8) (target : Word) :
    IndirectBTB k :=
  let index := ibtb.targetIndex pc rs1Hash
  { valid := Function.update ibtb.valid index true
    pcTags := Function.update ibtb.pcTags index (getPcTag pc)
    rs1Hashs := Function.update ibtb.rs1Hashs index rs1Hash
    targets := Function.update ibtb.targets index target
    ages := ibtb.touch (fun i => i = index) }

def step (ibtb : IndirectBTB k) (pc : Word) (updateValid : Bool) (updatePc : Word)
    (updateRs1Hash : BitVec 8) (updateTarget : Word) : IndirectBTB k :=
  if updateValid then ibtb.update updatePc updateRs1Hash updateTarget
  else if ibtb.hit pc then { ibtb with ages := ibtb.touch (ibtb.mru pc) }
  else ibtb

end IndirectBTB

end MyCpu
