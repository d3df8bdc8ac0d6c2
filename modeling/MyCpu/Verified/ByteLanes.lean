import Mathlib.Tactic.IntervalCases
import MyCpu.Core.MemoryAccess
import MyCpu.Verified.System

/-! # Byte lanes

MEM reads and writes whole aligned words: a load selects its bytes from the word, a
store places its bytes on their lanes and strobes them.  As long as an access stays
inside one word this is the byte access of the instruction set. -/

namespace MyCpu

open Rv32im (Memory LoadOp StoreOp lane)

def loadFunct3 : LoadOp → BitVec 3
  | .lb => InstructionsTypeL.lb
  | .lh => InstructionsTypeL.lh
  | .lw => InstructionsTypeL.lw
  | .lbu => InstructionsTypeL.lbu
  | .lhu => InstructionsTypeL.lhu

def storeFunct3 : StoreOp → BitVec 3
  | .sb => InstructionsTypeS.sb
  | .sh => InstructionsTypeS.sh
  | .sw => InstructionsTypeS.sw

theorem decodeLoadOp_funct3 {funct3 : BitVec 3} {op : LoadOp}
    (decoded : Rv32im.decodeLoadOp funct3 = some op) :
    funct3 = loadFunct3 op := by
  unfold Rv32im.decodeLoadOp at decoded
  split at decoded
  all_goals
    cases decoded
    try rfl

theorem decodeStoreOp_funct3 {funct3 : BitVec 3} {op : StoreOp}
    (decoded : Rv32im.decodeStoreOp funct3 = some op) :
    funct3 = storeFunct3 op := by
  unfold Rv32im.decodeStoreOp at decoded
  split at decoded
  all_goals
    cases decoded
    try rfl

/-! ## The word around an address -/

/-- The address of the aligned word. -/
def wordAddress (address : Word) : Word := address.extractLsb' 2 30 ++ 0#2

theorem lane_lt (address : Word) : lane address < 4 := (address.extractLsb' 0 2).isLt

theorem lane_eq (address : Word) : lane address = address.toNat % 4 := by
  rw [lane, BitVec.extractLsb'_toNat, Nat.shiftRight_zero]

theorem wordAddress_toNat (address : Word) :
    (wordAddress address).toNat = address.toNat - address.toNat % 4 := by
  have bound := address.isLt
  rw [wordAddress, BitVec.toNat_append, BitVec.extractLsb'_toNat, Nat.shiftRight_eq_div_pow]
  simp only [BitVec.toNat_ofNat, Nat.zero_mod, Nat.or_zero, Nat.shiftLeft_eq]
  omega

theorem wordAddress_eq (address : Word) :
    wordAddress address = address - BitVec.ofNat 32 (lane address) := by
  have bound := address.isLt
  apply BitVec.eq_of_toNat_eq
  rw [wordAddress_toNat, BitVec.toNat_sub, BitVec.toNat_ofNat, lane_eq]
  omega

theorem wordAddress_add (address : Word) :
    wordAddress address + BitVec.ofNat 32 (lane address) = address := by
  rw [wordAddress_eq, BitVec.sub_add_cancel]

/-! ## Loads -/

section Loads

variable (memory : Memory) (address : Word)

theorem readWord_byte {k : ℕ} (inside : k < 4) :
    (System.readWord memory address).extractLsb' (8 * k) 8 =
      memory (address + BitVec.ofNat 32 k) := by
  apply BitVec.eq_of_getLsbD_eq
  intro i low
  rw [BitVec.getLsbD_extractLsb', System.readWord, BitVec.getLsbD_append, BitVec.getLsbD_append,
    BitVec.getLsbD_append]
  have first : address + 0#32 = address := BitVec.add_zero address
  interval_cases k
  · simp [low, first]
  · have above : ¬ 8 + i < 8 := by omega
    simp [low, above]
  · have above : ¬ 16 + i < 8 := by omega
    have lane : 16 + i - 8 = 8 + i := by omega
    simp [low, above, lane]
  · have above : ¬ 24 + i < 8 := by omega
    have lane : 24 + i - 8 = 16 + i := by omega
    have lane' : 16 + i - 8 = 8 + i := by omega
    have above' : ¬ 16 + i < 8 := by omega
    simp [low, above, lane, above', lane']

theorem readWord_half {k : ℕ} (inside : k < 3) :
    (System.readWord memory address).extractLsb' (8 * k) 16 =
      memory (address + BitVec.ofNat 32 k + 1#32) ++ memory (address + BitVec.ofNat 32 k) := by
  have split : ∀ (word : Word) (start : ℕ),
      word.extractLsb' start 16 = word.extractLsb' (start + 8) 8 ++ word.extractLsb' start 8 := by
    intro word start
    rw [BitVec.extractLsb'_append_extractLsb'_eq_extractLsb' (by omega)]
  have next : address + BitVec.ofNat 32 k + 1#32 = address + BitVec.ofNat 32 (k + 1) := by
    rw [BitVec.add_assoc, BitVec.ofNat_add]
  have above : 8 * k + 8 = 8 * (k + 1) := by omega
  rw [split, next, above, readWord_byte memory address (by omega),
    readWord_byte memory address (by omega)]

theorem index_eq (address : Word) : address.extractLsb' 0 2 = BitVec.ofNat 2 (lane address) := by
  rw [lane, BitVec.ofNat_toNat, BitVec.setWidth_eq]

theorem byteLane_eq (word : Word) {k : ℕ} (inside : k < 4) :
    MemoryAccess.byteLane (BitVec.ofNat 2 k) word = word.extractLsb' (8 * k) 8 := by
  interval_cases k <;> rfl

theorem halfLane_eq (word : Word) {k : ℕ} (inside : k < 3) :
    MemoryAccess.halfLane (BitVec.ofNat 2 k) word = word.extractLsb' (8 * k) 16 := by
  interval_cases k <;> rfl

/-- A load inside one word takes its bytes from the word that the bus returns. -/
theorem processedData_load (op : LoadOp) (inside : lane address + op.size ≤ 4) :
    MemoryAccess.processedData (loadFunct3 op) (address.extractLsb' 0 2)
      (System.readWord memory (wordAddress address)) = op.eval memory address := by
  have bound := lane_lt address
  have byte : MemoryAccess.byteLane (address.extractLsb' 0 2)
      (System.readWord memory (wordAddress address)) =
      memory address := by
    rw [index_eq, byteLane_eq _ bound, readWord_byte _ _ bound, wordAddress_add]
  have half : lane address < 3 →
      MemoryAccess.halfLane (address.extractLsb' 0 2) (System.readWord memory (wordAddress address)) =
        memory (address + 1#32) ++ memory address := by
    intro below
    rw [index_eq, halfLane_eq _ below, readWord_half _ _ below, wordAddress_add]
  cases op with
  | lb => exact congrArg (BitVec.signExtend 32) byte
  | lbu => exact congrArg (BitVec.zeroExtend 32) byte
  | lh => exact congrArg (BitVec.signExtend 32) (half (Nat.lt_of_add_lt_add_right (Nat.lt_succ_of_le inside)))
  | lhu => exact congrArg (BitVec.zeroExtend 32) (half (Nat.lt_of_add_lt_add_right (Nat.lt_succ_of_le inside)))
  | lw =>
    have aligned : lane address = 0 := by
      rw [LoadOp.size] at inside
      omega
    have same := wordAddress_add address
    rw [aligned, BitVec.add_zero] at same
    rw [same]
    rfl

end Loads

/-! ## Stores -/

section Stores

variable (memory : Memory) (address value : Word) {op : StoreOp}

/-- The strobes of a store are its bytes. -/
theorem storeStrobe_getLsbD (inside : lane address + op.size ≤ 4) {offset : ℕ} (low : offset < 4) :
    (MemoryAccess.storeStrobe (storeFunct3 op) (address.extractLsb' 0 2)).getLsbD offset =
      decide (lane address ≤ offset ∧ offset < lane address + op.size) := by
  have bound := lane_lt address
  rw [index_eq]
  generalize lane address = k at *
  cases op with
  | sb => interval_cases k <;> interval_cases offset <;> rfl
  | sh =>
    have below : k < 3 := by
      rw [StoreOp.size] at inside
      omega
    interval_cases k <;> interval_cases offset <;> rfl
  | sw =>
    obtain rfl : k = 0 := by
      rw [StoreOp.size] at inside
      omega
    interval_cases offset <;> rfl

theorem lowBits_eq {n : ℕ} (fits : n ≤ 32) :
    (value.extractLsb' 0 n).zeroExtend 32 = value &&& BitVec.ofNat 32 (2 ^ n - 1) := by
  have small : 2 ^ n ≤ 2 ^ 32 := Nat.pow_le_pow_right (by decide) fits
  have positive := Nat.two_pow_pos n
  have low : value.toNat % 2 ^ n < 2 ^ 32 := (Nat.mod_lt _ positive).trans_le small
  apply BitVec.eq_of_toNat_eq
  have mask : (2 ^ n - 1) % 2 ^ 32 = 2 ^ n - 1 := Nat.mod_eq_of_lt (by omega)
  rw [BitVec.zeroExtend_eq_setWidth, BitVec.toNat_setWidth,
    BitVec.extractLsb'_toNat, Nat.shiftRight_zero, Nat.mod_eq_of_lt low, BitVec.toNat_and,
    BitVec.toNat_ofNat, mask, Nat.and_two_pow_sub_one_eq_mod]

/-- The data of a store is its value, cut to the stored bytes and moved to their lanes. -/
theorem storeData_eq (inside : lane address + op.size ≤ 4) :
    MemoryAccess.storeData (storeFunct3 op) (address.extractLsb' 0 2) value =
      (value &&& BitVec.ofNat 32 (2 ^ (8 * op.size) - 1)) <<< (8 * lane address) := by
  have bound := lane_lt address
  rw [index_eq]
  generalize lane address = k at *
  cases op with
  | sb =>
    have byte := lowBits_eq value (n := 8) (by decide)
    rw [StoreOp.size, ← byte]
    interval_cases k <;> rfl
  | sh =>
    have half := lowBits_eq value (n := 16) (by decide)
    have below : k < 3 := by
      rw [StoreOp.size] at inside
      omega
    rw [StoreOp.size, ← half]
    interval_cases k <;> simp [MemoryAccess.storeData, storeFunct3,
      InstructionsTypeS.sb, InstructionsTypeS.sh]
  | sw =>
    obtain rfl : k = 0 := by
      rw [StoreOp.size] at inside
      omega
    have whole : value &&& BitVec.allOnes 32 = value := BitVec.and_allOnes
    exact whole.symm.trans (BitVec.shiftLeft_zero _).symm

/-- The bytes of a store are on the lanes that it strobes. -/
theorem storeData_byte (inside : lane address + op.size ≤ 4) {i : ℕ} (low : i < op.size) :
    (MemoryAccess.storeData (storeFunct3 op) (address.extractLsb' 0 2) value).extractLsb'
      (8 * (lane address + i)) 8 =
      value.extractLsb' (8 * i) 8 := by
  rw [storeData_eq address value inside]
  apply BitVec.eq_of_getLsbD_eq
  intro j bit
  have shifted : 8 * (lane address + i) + j - 8 * lane address = 8 * i + j := by omega
  have within : 8 * i + j < 8 * op.size := by omega
  have word : 8 * (lane address + i) + j < 32 := by omega
  have mask : (BitVec.ofNat 32 (2 ^ (8 * op.size) - 1)).getLsbD (8 * i + j) = true := by
    rw [BitVec.getLsbD_ofNat, Nat.testBit_two_pow_sub_one, Bool.and_eq_true,
      decide_eq_true_eq, decide_eq_true_eq]
    exact ⟨by omega, within⟩
  have above : ¬ 8 * (lane address + i) + j < 8 * lane address := by omega
  rw [BitVec.getLsbD_extractLsb', BitVec.getLsbD_extractLsb', BitVec.getLsbD_shiftLeft,
    shifted, BitVec.getLsbD_and, mask, decide_eq_true word, decide_eq_false above, Bool.and_true,
    Bool.not_false, Bool.and_true, Bool.true_and]

/-- The strobed write of a store inside one word writes its bytes. -/
theorem writeWord_store (inside : lane address + op.size ≤ 4) :
    System.writeWord memory (wordAddress address)
        (MemoryAccess.storeData (storeFunct3 op) (address.extractLsb' 0 2) value)
        (MemoryAccess.storeStrobe (storeFunct3 op) (address.extractLsb' 0 2)) =
      op.eval memory address value := by
  funext target
  have bound := lane_lt address
  have targetBound := target.isLt
  have addressBound := address.isLt
  have offset : (target - wordAddress address).toNat =
      ((target - address).toNat + lane address) % 2 ^ 32 := by
    rw [BitVec.toNat_sub, BitVec.toNat_sub, wordAddress_toNat, lane_eq]
    omega
  rw [System.writeWord, StoreOp.eval]
  by_cases written : (target - address).toNat < op.size
  · -- A byte of the store: its lane is strobed.
    have place : (target - wordAddress address).toNat =
        lane address + (target - address).toNat := by
      rw [offset]
      omega
    have strobed : (MemoryAccess.storeStrobe (storeFunct3 op) (address.extractLsb' 0 2)).getLsbD
        (lane address + (target - address).toNat) = true := by
      rw [storeStrobe_getLsbD address inside (by omega), decide_eq_true_eq]
      omega
    rw [if_pos written, place, if_pos ⟨by omega, strobed⟩,
      storeData_byte address value inside written]
  · rw [if_neg written, if_neg]
    rintro ⟨low, strobed⟩
    rw [storeStrobe_getLsbD address inside low, decide_eq_true_eq] at strobed
    omega

/-- What the bus sees of a store is the word transfer of the instruction set. -/
theorem busWrite_eq (inside : lane address + op.size ≤ 4) :
    op.busWrite address value =
      ⟨wordAddress address, MemoryAccess.storeData (storeFunct3 op) (address.extractLsb' 0 2) value,
        MemoryAccess.storeStrobe (storeFunct3 op) (address.extractLsb' 0 2)⟩ := by
  have bound := lane_lt address
  have strobe : BitVec.ofNat 4 ((2 ^ op.size - 1) * 2 ^ lane address) =
      MemoryAccess.storeStrobe (storeFunct3 op) (address.extractLsb' 0 2) := by
    rw [index_eq]
    generalize lane address = k at *
    cases op with
    | sb => interval_cases k <;> rfl
    | sh =>
      have below : k < 3 := by
        rw [StoreOp.size] at inside
        omega
      interval_cases k <;> rfl
    | sw =>
      obtain rfl : k = 0 := by
        rw [StoreOp.size] at inside
        omega
      rfl
  rw [StoreOp.busWrite, strobe, storeData_eq address value inside, wordAddress_eq]

end Stores

end MyCpu
