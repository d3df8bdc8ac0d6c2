import MyCpu.Software.SimMemory
import MyCpu.Verified.ByteLanes

/-! # Loads after stores

MEM asks for a strobed write of a whole word, and later selects the bytes of a load from the word
that the memory returns.  Between the two lies a memory that applies the strobes byte by byte, as
that of the simulator does. -/

namespace MyCpu

open Rv32im (Memory LoadOp StoreOp lane)

/-! ## The memory of the simulator -/

namespace SimMemory

variable (memory : SimMemory) (address : Word)

theorem word_bytes (word : Word) :
    word.extractLsb' 24 8 ++ word.extractLsb' 16 8 ++ word.extractLsb' 8 8 ++
      word.extractLsb' 0 8 = word := by
  rw [BitVec.extractLsb'_append_extractLsb'_eq_extractLsb' (by decide),
    BitVec.extractLsb'_append_extractLsb'_eq_extractLsb' (by decide),
    BitVec.extractLsb'_append_extractLsb'_eq_extractLsb' (by decide)]
  exact BitVec.extractLsb'_eq_self

theorem index_toNat (address : Word) : (address >>> 2).toNat = address.toNat / 4 := by
  rw [BitVec.toNat_ushiftRight, Nat.shiftRight_eq_div_pow]

theorem wordAddress_offset {k : ℕ} (inside : k < 4) :
    (wordAddress address + BitVec.ofNat 32 k).toNat = 4 * (address.toNat / 4) + k := by
  have bound := address.isLt
  rw [BitVec.toNat_add, BitVec.toNat_ofNat, wordAddress_toNat]
  omega

theorem read_congr {address' : Word} (same : address.toNat / 4 = address'.toNat / 4) :
    memory.read address = memory.read address' := by
  rw [read, read, index_toNat, index_toNat, same]

theorem bytes_wordAddress {k : ℕ} (inside : k < 4) :
    memory.bytes (wordAddress address + BitVec.ofNat 32 k) =
      (memory.read address).extractLsb' (8 * k) 8 := by
  have place := wordAddress_offset address inside
  have lane' : lane (wordAddress address + BitVec.ofNat 32 k) = k := by
    rw [lane_eq, place]
    omega
  have same : memory.read (wordAddress address + BitVec.ofNat 32 k) = memory.read address :=
    memory.read_congr _ (by omega)
  rw [bytes, lane', same]

/-- A read gives the four bytes of the aligned word. -/
theorem read_bytes : memory.read address = System.readWord memory.bytes (wordAddress address) := by
  have first := memory.bytes_wordAddress address (show 0 < 4 by decide)
  rw [BitVec.add_zero] at first
  rw [System.readWord, first, memory.bytes_wordAddress address (show 1 < 4 by decide),
    memory.bytes_wordAddress address (show 2 < 4 by decide), memory.bytes_wordAddress address
      (show 3 < 4 by decide)]
  exact (word_bytes _).symm

theorem mask_byte (strobe : Strobe) {k : ℕ} (inside : k < 4) :
    (mask (strobe.zeroExtend 8)).extractLsb' (8 * k) 8 = if strobe.getLsbD k then
      BitVec.allOnes 8 else 0#8 := by
  have table : ∀ strobe : Strobe, ∀ k < 4,
      (mask (strobe.zeroExtend 8)).extractLsb' (8 * k) 8 = if strobe.getLsbD k then
        BitVec.allOnes 8 else 0#8 := by
    decide
  exact table strobe k inside

/-- Both words, each on the bits that the mask gives it. -/
def merged (strobe : BitVec 8) (old new : Word) : Word :=
  (old &&& ~~~mask strobe) ||| (new &&& mask strobe)

theorem read_write (data : Word) (strobe : BitVec 8)
    (inside : address.toNat / 4 < memory.mem.size) (target : Word) :
    (memory.write address data strobe).read target =
      if target.toNat / 4 = address.toNat / 4 then merged strobe (memory.read address) data
      else memory.read target := by
  have outside : ¬ memory.mem.size ≤ (address >>> 2).toNat := by
    rw [index_toNat]
    exact Nat.not_le_of_lt inside
  rw [write, if_neg outside]
  simp only [read, index_toNat, Array.set!_eq_setIfInBounds, Array.size_setIfInBounds,
    Array.getD_eq_getD_getElem?, Array.getElem?_setIfInBounds, inside, if_true]
  by_cases same : target.toNat / 4 = address.toNat / 4
  · rw [same, if_pos inside, if_pos rfl, if_pos rfl]
    rfl
  · rw [if_neg same, if_neg (Ne.symm same)]

theorem merged_byte (strobe : Strobe) (old new : Word) {k : ℕ} (inside : k < 4) :
    (merged (strobe.zeroExtend 8) old new).extractLsb' (8 * k) 8 =
      if strobe.getLsbD k = true then new.extractLsb' (8 * k) 8 else old.extractLsb' (8 * k) 8 := by
  have kept : (~~~mask (strobe.zeroExtend 8)).extractLsb' (8 * k) 8 =
      ~~~(mask (strobe.zeroExtend 8)).extractLsb' (8 * k) 8 := by
    ext i low
    simp
    omega
  rw [merged, BitVec.extractLsb'_or, BitVec.extractLsb'_and, BitVec.extractLsb'_and, kept,
    mask_byte strobe inside]
  split_ifs
  · rw [BitVec.not_allOnes, BitVec.and_zero, BitVec.zero_or, BitVec.and_allOnes]
  · rw [BitVec.not_zero, BitVec.and_allOnes, BitVec.and_zero, BitVec.or_zero]

/-- A write within the memory applies its strobes byte by byte. -/
theorem write_bytes (data : Word) (strobe : Strobe) (inside : address.toNat / 4 < memory.mem.size) :
    (memory.write address data (strobe.zeroExtend 8)).bytes =
      System.writeWord memory.bytes (wordAddress address) data strobe := by
  funext target
  have bound := address.isLt
  have bound' := target.isLt
  have offset : (target - wordAddress address).toNat =
      (2 ^ 32 - 4 * (address.toNat / 4) + target.toNat) % 2 ^ 32 := by
    rw [BitVec.toNat_sub, wordAddress_toNat]
    congr 2
    omega
  rw [bytes, System.writeWord, read_write memory address data _ inside, lane_eq]
  by_cases same : target.toNat / 4 = address.toNat / 4
  · have place : (target - wordAddress address).toNat = target.toNat % 4 := by
      rw [offset]
      omega
    have low : target.toNat % 4 < 4 := Nat.mod_lt _ (by decide)
    rw [if_pos same, merged_byte strobe _ _ low, place]
    by_cases strobed : strobe.getLsbD (target.toNat % 4) = true
    · rw [if_pos strobed, if_pos ⟨low, strobed⟩]
    · rw [if_neg strobed, if_neg fun both => strobed both.2, bytes, lane_eq,
        memory.read_congr target same]
  · have far : ¬ (target - wordAddress address).toNat < 4 := by
      rw [offset]
      omega
    rw [if_neg same, if_neg fun both => far both.1, bytes, lane_eq]

end SimMemory

/-! ## Bytes of a store -/

section Bytes

variable (memory : Memory) (address value : Word)

theorem storeEval_byte (op : StoreOp) {k : ℕ} (inside : k < op.size) :
    op.eval memory address value (address + BitVec.ofNat 32 k) = value.extractLsb' (8 * k) 8 := by
  have small : op.size ≤ 4 := by cases op <;> decide
  have distance : (address + BitVec.ofNat 32 k - address).toNat = k := by
    rw [BitVec.add_comm, BitVec.add_sub_cancel, BitVec.toNat_ofNat, Nat.mod_eq_of_lt (by omega)]
  rw [StoreOp.eval, distance, if_pos inside]

/-- The low bytes of a value, extended as the load does it. -/
def extended (op : LoadOp) (value : Word) : Word :=
  match op with
  | .lb => (value.extractLsb' 0 8).signExtend 32
  | .lbu => (value.extractLsb' 0 8).zeroExtend 32
  | .lh => (value.extractLsb' 0 16).signExtend 32
  | .lhu => (value.extractLsb' 0 16).zeroExtend 32
  | .lw => value

/-- A load of the bytes just stored. -/
theorem loadEval_storeEval (loadOp : LoadOp) (storeOp : StoreOp)
    (same : loadOp.size = storeOp.size) :
    loadOp.eval (storeOp.eval memory address value) address = extended loadOp value := by
  have byte : ∀ k < loadOp.size, storeOp.eval memory address value (address + BitVec.ofNat 32 k) =
      value.extractLsb' (8 * k) 8 :=
        fun k inside => storeEval_byte memory address value storeOp (same ▸ inside)
  have first : storeOp.eval memory address value address = value.extractLsb' 0 8 := by
    have positive : 0 < loadOp.size := by cases loadOp <;> decide
    have lowest := byte 0 positive
    rwa [BitVec.add_zero] at lowest
  have half : 1 < loadOp.size → storeOp.eval memory address value (address + 1#32) ++
      storeOp.eval memory address value address = value.extractLsb' 0 16 := by
    intro wide
    rw [first, byte 1 wide]
    exact BitVec.extractLsb'_append_extractLsb'_eq_extractLsb' (by decide)
  cases loadOp with
  | lb => exact congrArg (BitVec.signExtend 32) first
  | lbu => exact congrArg (BitVec.zeroExtend 32) first
  | lh => exact congrArg (BitVec.signExtend 32) (half (by decide))
  | lhu => exact congrArg (BitVec.zeroExtend 32) (half (by decide))
  | lw =>
    rw [LoadOp.eval, first, byte 1 (by decide), byte 2 (by decide), byte 3 (by decide)]
    exact SimMemory.word_bytes value

end Bytes

/-! ## The two accesses of MEM -/

theorem wordAddress_wordAddress (address : Word) :
    wordAddress (wordAddress address) = wordAddress address := by
  apply BitVec.eq_of_toNat_eq
  rw [wordAddress_toNat, wordAddress_toNat]
  omega

namespace MemoryAccess

/-- MEM asks for the write of a store that stays inside one word. -/
structure AsksFor (mem : MemoryAccess) (io : EX2MEM) (op : StoreOp) : Prop where
  starts : startsWrite mem io = true
  funct3 : io.funct3 = storeFunct3 op
  inside : lane io.aluResult + op.size ≤ 4

/-- MEM takes the word for a load that stays inside one word. -/
structure Takes (mem : MemoryAccess) (io : EX2MEM) (bus : BusInputs) (op : LoadOp) : Prop where
  completes : readCompletes mem bus = true
  funct3 : io.funct3 = loadFunct3 op
  inside : lane io.aluResult + op.size ≤ 4

/-- The memory after a request. -/
def written (memory : Memory) (bus : BusOutputs) : Memory :=
  if bus.write then System.writeWord memory bus.address bus.writeData bus.writeStrobe else memory

section Accesses

variable {mem : MemoryAccess} {io : EX2MEM}

theorem written_store (memory : Memory) {op : StoreOp} (asks : mem.AsksFor io op) :
    written memory (busOutputs mem io) = op.eval memory io.aluResult io.reg2Data := by
  simp only [written, busOutputs, asks.starts, if_true, asks.funct3]
  exact writeWord_store memory io.aluResult io.reg2Data asks.inside

theorem wbMemoryReadData_load (memory : Memory) {bus : BusInputs} {op : LoadOp}
    (takes : mem.Takes io bus op)
    (answer : bus.readData = System.readWord memory (busOutputs mem io).address) :
    wbMemoryReadData mem io bus = op.eval memory io.aluResult := by
  rw [wbMemoryReadData, if_pos takes.completes, takes.funct3, answer]
  exact processedData_load memory io.aluResult op takes.inside

theorem react_bytes (memory : SimMemory) {op : StoreOp} (asks : mem.AsksFor io op)
    (room : io.aluResult.toNat / 4 < memory.mem.size) :
    (memory.react (busOutputs mem io)).bytes = written memory.bytes (busOutputs mem io) := by
  have inside : (wordAddress io.aluResult).toNat / 4 < memory.mem.size := by
    rw [wordAddress_toNat]
    omega
  simp only [SimMemory.react, written, busOutputs, asks.starts, if_true]
  have applied := SimMemory.write_bytes memory (wordAddress io.aluResult)
    (storeData io.funct3 (memAddressIndex io) io.reg2Data)
    (storeStrobe io.funct3 (memAddressIndex io)) inside
  rwa [wordAddress_wordAddress] at applied

end Accesses

/-- A store changes its bytes and no other, and a load after it has the value of the changed
    memory. -/
theorem load_after_store (memory : Memory) {mem mem' : MemoryAccess}
    {store load : EX2MEM} {bus : BusInputs}
    {storeOp : StoreOp} {loadOp : LoadOp} (asks : mem.AsksFor store storeOp)
    (takes : mem'.Takes load bus loadOp)
    (answer : bus.readData =
      System.readWord (written memory (busOutputs mem store)) (busOutputs mem' load).address) :
    (∀ target, written memory (busOutputs mem store) target =
      if (target - store.aluResult).toNat < storeOp.size then
        store.reg2Data.extractLsb' (8 * (target - store.aluResult).toNat) 8
      else memory target) ∧
    wbMemoryReadData mem' load bus =
      loadOp.eval (written memory (busOutputs mem store)) load.aluResult ∧
    (load.aluResult = store.aluResult → loadOp.size = storeOp.size →
      wbMemoryReadData mem' load bus = extended loadOp store.reg2Data) ∧
    ∀ sim : SimMemory, sim.bytes = memory → store.aluResult.toNat / 4 < sim.mem.size →
      (sim.react (busOutputs mem store)).bytes = written memory (busOutputs mem store) ∧
      (sim.react (busOutputs mem store)).read (busOutputs mem' load).address = bus.readData := by
  have stored := written_store memory asks
  have loaded := wbMemoryReadData_load _ takes answer
  refine ⟨fun target => ?_, loaded, fun address size => ?_, fun sim contents room => ?_⟩
  · rw [stored]
    rfl
  · rw [loaded, stored, address]
    exact loadEval_storeEval memory store.aluResult store.reg2Data loadOp storeOp size
  · have same := contents ▸ react_bytes sim asks room
    rw [SimMemory.read_bytes, same, answer]
    exact ⟨rfl, congrArg _ (wordAddress_wordAddress load.aluResult)⟩

/-- The last byte of a word, stored and loaded with its sign. -/
def storeByte : EX2MEM :=
  { EX2MEM.reset with
    memoryWriteEnable := true
    funct3 := InstructionsTypeS.sb
    aluResult := 0x1003#32
    reg2Data := 0x180#32 }

def loadByte : EX2MEM :=
  { EX2MEM.reset with
    memoryReadEnable := true
    funct3 := InstructionsTypeL.lb
    aluResult := 0x1003#32 }

def byteAnswer : BusInputs where
  readData := System.readWord (written (fun _ => 0#8) (busOutputs reset storeByte)) 0x1000#32
  readValid := true
  writeValid := false
  granted := false

theorem load_after_store_signed :
    AsksFor reset storeByte .sb ∧
      Takes { reset with memAccessState := .read } loadByte byteAnswer .lb ∧
      wbMemoryReadData { reset with memAccessState := .read } loadByte byteAnswer =
        0xffffff80#32 := by
  have asks : AsksFor reset storeByte .sb := ⟨rfl, rfl, by decide⟩
  have takes : Takes { reset with memAccessState := .read } loadByte byteAnswer .lb :=
    ⟨rfl, rfl, by decide⟩
  exact ⟨asks, takes, (load_after_store (fun _ => 0#8) asks takes rfl).2.2.1 rfl rfl⟩

end MemoryAccess

end MyCpu
