import Mathlib.Tactic.Linarith
import MyCpu.Core.Alu
import MyCpu.Core.InstructionDecode
import MyCpu.Isa.Rv32im

/-! # The arithmetic of the core

The functions of the ALU, the selection made by the ALU control, the branch
comparator of ID and the jump targets compute the operations of the instruction
set.  The ALU divides magnitudes and takes the high half of double-width products;
the instruction set divides and multiplies integers. -/

namespace MyCpu

open Rv32im (AluOp MulOp Condition)

/-! ## Which function computes an operation -/

def aluFunction : AluOp → ALUFunctions
  | .add => .add
  | .sub => .sub
  | .sll => .sll
  | .slt => .slt
  | .sltu => .sltu
  | .xor => .xor
  | .srl => .srl
  | .sra => .sra
  | .or => .or
  | .and => .and

def mulFunction : MulOp → ALUFunctions
  | .mul => .mul
  | .mulh => .mulh
  | .mulhsu => .mulhsu
  | .mulhu => .mulhu
  | .div => .div
  | .divu => .divu
  | .rem => .rem
  | .remu => .remu

/-! ## Products -/

section Products

variable (a b : Word)

theorem extractHigh_eq (product : BitVec 64) :
    product.extractLsb' 32 32 = BitVec.ofInt 32 (product.toInt / 2 ^ 32) := by
  apply BitVec.eq_of_toNat_eq
  rw [BitVec.extractLsb'_toNat, BitVec.toNat_ofInt, BitVec.toInt_eq_toNat_cond,
    Nat.shiftRight_eq_div_pow]
  have bound := product.isLt
  split_ifs <;> omega

theorem toInt_product {x y : BitVec 64} (left : -2 ^ 31 ≤ x.toInt ∧ x.toInt < 2 ^ 31)
    (right : -2 ^ 31 ≤ y.toInt ∧ y.toInt < 2 ^ 32) : (x * y).toInt = x.toInt * y.toInt := by
  obtain ⟨xLow, xHigh⟩ := left
  obtain ⟨yLow, yHigh⟩ := right
  rw [BitVec.toInt_mul]
  -- The two signs of `x` bound the product from different sides.
  have bounds : -2 ^ 63 ≤ x.toInt * y.toInt ∧ x.toInt * y.toInt < 2 ^ 63 := by
    obtain nonneg | nonpos := Int.le_total 0 x.toInt
    · constructor <;> nlinarith
    · constructor <;> nlinarith
  apply Int.bmod_eq_of_le
  · exact bounds.1
  · exact bounds.2

theorem signExtend_bounds : -2 ^ 31 ≤ (a.signExtend 64).toInt ∧
    (a.signExtend 64).toInt < 2 ^ 31 := by
  rw [BitVec.toInt_signExtend_of_le (by decide)]
  exact ⟨BitVec.le_toInt a, BitVec.toInt_lt⟩

theorem zeroExtend_toInt : (b.zeroExtend 64).toInt = b.toNat := by
  have bound := b.isLt
  rw [BitVec.toInt_eq_toNat_cond, BitVec.zeroExtend_eq_setWidth, BitVec.toNat_setWidth,
    Nat.mod_eq_of_lt (by omega), if_pos (by omega)]

theorem mulh_eq : ALU.result .mulh a b = MulOp.mulh.eval a b := by
  obtain ⟨low, high⟩ := signExtend_bounds b
  rw [ALU.result, extractHigh_eq, toInt_product (signExtend_bounds a) ⟨low, by omega⟩]
  rw [BitVec.toInt_signExtend_of_le (by decide), BitVec.toInt_signExtend_of_le
    (by decide), MulOp.eval]

theorem mulhsu_eq : ALU.result .mulhsu a b = MulOp.mulhsu.eval a b := by
  have bound := b.isLt
  have right : -2 ^ 31 ≤ (b.zeroExtend 64).toInt ∧ (b.zeroExtend 64).toInt < 2 ^ 32 := by
    rw [zeroExtend_toInt]
    omega
  rw [ALU.result, extractHigh_eq, toInt_product (signExtend_bounds a) right, zeroExtend_toInt,
    BitVec.toInt_signExtend_of_le (by decide), MulOp.eval]

theorem mulhu_eq : ALU.result .mulhu a b = MulOp.mulhu.eval a b := by
  have product : a.toNat * b.toNat < 2 ^ 64 := by
    have bound : a.toNat * b.toNat < 2 ^ 32 * 2 ^ 32 := Nat.mul_lt_mul'' a.isLt b.isLt
    omega
  apply BitVec.eq_of_toNat_eq
  rw [ALU.result, MulOp.eval, BitVec.extractLsb'_toNat, BitVec.toNat_mul,
    BitVec.zeroExtend_eq_setWidth, BitVec.zeroExtend_eq_setWidth, BitVec.toNat_setWidth,
    BitVec.toNat_setWidth, BitVec.toNat_ofNat, Nat.shiftRight_eq_div_pow]
  have left : a.toNat % 2 ^ 64 = a.toNat := Nat.mod_eq_of_lt (by have := a.isLt; omega)
  have right : b.toNat % 2 ^ 64 = b.toNat := Nat.mod_eq_of_lt (by have := b.isLt; omega)
  rw [left, right, Nat.mod_eq_of_lt product]

end Products

/-! ## Quotients -/

section Quotients

variable (a b : Word)

theorem magnitude_eq : ALU.magnitude a = if a.msb then -a else a := by
  rw [ALU.magnitude, BitVec.neg_eq_not_add]

theorem divSigned_eq : ALU.divSigned a b = a.sdiv b := by
  rw [ALU.divSigned, magnitude_eq, magnitude_eq, BitVec.sdiv_eq]
  cases a.msb <;> cases b.msb <;> simp [BitVec.neg_eq_not_add]

theorem remSigned_eq : ALU.remSigned a b = a.srem b := by
  rw [ALU.remSigned, magnitude_eq, magnitude_eq, BitVec.srem_eq]
  cases a.msb <;> cases b.msb <;> simp [BitVec.neg_eq_not_add]

theorem div_eq : ALU.result .div a b = MulOp.div.eval a b := by
  rw [ALU.result, MulOp.eval, divSigned_eq]
  split_ifs with zero
  · rfl
  · apply BitVec.eq_of_toInt_eq
    rw [BitVec.toInt_sdiv, BitVec.toInt_ofInt]

theorem rem_eq : ALU.result .rem a b = MulOp.rem.eval a b := by
  rw [ALU.result, MulOp.eval, remSigned_eq]
  split_ifs with zero
  · rfl
  · apply BitVec.eq_of_toInt_eq
    rw [BitVec.toInt_ofInt, ← BitVec.toInt_srem, BitVec.toInt_bmod_cancel]

theorem divu_eq : ALU.result .divu a b = MulOp.divu.eval a b := by
  rw [ALU.result, MulOp.eval, BitVec.udiv_def]
  rfl

theorem remu_eq : ALU.result .remu a b = MulOp.remu.eval a b := by
  rw [ALU.result, MulOp.eval, BitVec.umod_def]

end Quotients

/-! ## All functions -/

section Functions

variable (a b : Word)

theorem shiftAmount_toNat : (b.extractLsb' 0 5).toNat = b.toNat % 32 := by
  rw [BitVec.extractLsb'_toNat, Nat.shiftRight_zero]

theorem result_aluFunction (op : AluOp) : ALU.result (aluFunction op) a b = op.eval a b := by
  cases op with
  | add | sub | xor | or | and => rfl
  | slt | sltu => simp [aluFunction, ALU.result, ALU.flag, AluOp.eval, BitVec.slt, BitVec.ult]
  | sll => rw [aluFunction, ALU.result, AluOp.eval, BitVec.shiftLeft_eq', shiftAmount_toNat]
  | srl => rw [aluFunction, ALU.result, AluOp.eval, BitVec.ushiftRight_eq', shiftAmount_toNat]
  | sra => rw [aluFunction, ALU.result, AluOp.eval, BitVec.sshiftRight_eq', shiftAmount_toNat]

theorem result_mulFunction (op : MulOp) : ALU.result (mulFunction op) a b = op.eval a b := by
  cases op with
  | mul => rfl
  | mulh => exact mulh_eq a b
  | mulhsu => exact mulhsu_eq a b
  | mulhu => exact mulhu_eq a b
  | div => exact div_eq a b
  | divu => exact divu_eq a b
  | rem => exact rem_eq a b
  | remu => exact remu_eq a b

end Functions

/-! ## Selection by the instruction word -/

section Selection

variable (funct3 : BitVec 3) (funct7 : BitVec 7)

theorem functI_decodeOpImm {op : AluOp} (decoded : Rv32im.decodeOpImm funct3 funct7 = some op) :
    ALUControl.functI funct3 funct7 = aluFunction op := by
  unfold Rv32im.decodeOpImm at decoded
  split at decoded
  case h_2 | h_6 =>
    -- The shifts: `funct7` is fixed by the word being legal.
    split_ifs at decoded
    all_goals
      cases decoded
      subst funct7
      rfl
  case h_8 =>
    have last : ∀ field : BitVec 3, field ∉ [0#3, 1#3, 2#3, 3#3, 4#3, 5#3, 6#3] →
        field = 7#3 := by decide
    obtain rfl := last funct3 (by simp_all)
    cases decoded
    rfl
  all_goals
    cases decoded
    rfl

theorem functR_decodeOp {op : AluOp} (decoded : Rv32im.decodeOp funct3 funct7 = some op) :
    ALUControl.functR funct3 funct7 = aluFunction op := by
  unfold Rv32im.decodeOp at decoded
  split_ifs at decoded with plain alternate sub sra
  · subst funct7
    revert op funct3
    decide
  · cases decoded
    subst funct7 funct3
    rfl
  · cases decoded
    subst funct7 funct3
    rfl

theorem functM_decodeMulOp :
    ALUControl.functM funct3 = mulFunction (Rv32im.decodeMulOp funct3) := by
  revert funct3
  decide

theorem branchCondition_decodeCondition {condition : Condition} {word : Word} (a b : Word)
    (decoded : Rv32im.decodeCondition (Rv32im.funct3 word) = some condition) :
    InstructionDecode.branchCondition word a b = condition.eval a b := by
  have field : InstructionDecode.funct3 word = Rv32im.funct3 word := rfl
  rw [InstructionDecode.branchCondition, field]
  generalize Rv32im.funct3 word = selector at decoded ⊢
  unfold Rv32im.decodeCondition at decoded
  rw [Bool.eq_iff_iff]
  split at decoded
  all_goals cases decoded
  all_goals simp [Condition.eval, BitVec.slt, BitVec.ult, InstructionsTypeB.beq,
    InstructionsTypeB.bne, InstructionsTypeB.blt, InstructionsTypeB.bge, InstructionsTypeB.bltu,
    InstructionsTypeB.bgeu]

theorem clearLowest_eq (a : Word) : a.extractLsb' 1 31 ++ 0#1 = a &&& ~~~1#32 := by
  apply BitVec.eq_of_getLsbD_eq
  intro i inside
  rw [BitVec.getLsbD_append, BitVec.getLsbD_and, BitVec.getLsbD_not, BitVec.getLsbD_one]
  by_cases zero : i < 1
  · obtain rfl : i = 0 := by omega
    simp
  · have shifted : 1 + (i - 1) = i := by omega
    have nonzero : ¬ i = 0 := by omega
    have high : i - 1 < 31 := by omega
    simp [nonzero, inside, shifted, high]

end Selection

end MyCpu
