import MyCpu.Verified.AluSoundness

/-! # The M extension

The eight functions of the ALU for the M extension, on all operands: the products with their high
words, and the quotients with their remainders. -/

namespace MyCpu

open Rv32im (MulOp)

/-! ## Products -/

section Products

variable (a b : Word)

/-- The high and the low word of a product make up the product. -/
theorem high_low {product : ℤ} (low : -2 ^ 63 ≤ product) (high : product < 2 ^ 63) :
    (BitVec.ofInt 32 (product / 2 ^ 32)).toInt * 2 ^ 32 +
      (BitVec.ofInt 32 product).toNat = product := by
  rw [BitVec.toInt_ofInt_eq_self (by decide) (by omega) (by omega), BitVec.toNat_ofInt]
  omega

theorem mul_signed : ALU.result .mul a b = BitVec.ofInt 32 (a.toInt * b.toInt) := by
  rw [BitVec.ofInt_mul, BitVec.ofInt_toInt, BitVec.ofInt_toInt, ALU.result]

theorem mul_mixed : ALU.result .mul a b = BitVec.ofInt 32 (a.toInt * b.toNat) := by
  rw [BitVec.ofInt_mul, BitVec.ofInt_toInt, BitVec.ofInt_natCast, BitVec.ofNat_toNat,
    BitVec.setWidth_eq, ALU.result]

theorem mulh_exact : (ALU.result .mulh a b).toInt * 2 ^ 32 + (ALU.result .mul a b).toNat =
    a.toInt * b.toInt := by
  obtain ⟨aLow, aHigh⟩ : -2 ^ 31 ≤ a.toInt ∧ a.toInt < 2 ^ 31 :=
    ⟨BitVec.le_toInt a, BitVec.toInt_lt⟩
  obtain ⟨bLow, bHigh⟩ : -2 ^ 31 ≤ b.toInt ∧ b.toInt < 2 ^ 31 :=
    ⟨BitVec.le_toInt b, BitVec.toInt_lt⟩
  rw [mulh_eq, mul_signed, MulOp.eval]
  apply high_low
  · obtain nonneg | nonpos := Int.le_total 0 a.toInt <;> nlinarith
  · obtain nonneg | nonpos := Int.le_total 0 a.toInt <;> nlinarith

theorem mulhsu_exact : (ALU.result .mulhsu a b).toInt * 2 ^ 32 + (ALU.result .mul a b).toNat =
    a.toInt * b.toNat := by
  obtain ⟨aLow, aHigh⟩ : -2 ^ 31 ≤ a.toInt ∧ a.toInt < 2 ^ 31 :=
    ⟨BitVec.le_toInt a, BitVec.toInt_lt⟩
  have bHigh : (b.toNat : ℤ) < 2 ^ 32 := by exact_mod_cast b.isLt
  have bLow : (0 : ℤ) ≤ b.toNat := Int.natCast_nonneg _
  rw [mulhsu_eq, mul_mixed, MulOp.eval]
  apply high_low
  · obtain nonneg | nonpos := Int.le_total 0 a.toInt <;> nlinarith
  · obtain nonneg | nonpos := Int.le_total 0 a.toInt <;> nlinarith

theorem mulhu_exact : (ALU.result .mulhu a b).toNat * 2 ^ 32 + (ALU.result .mul a b).toNat =
    a.toNat * b.toNat := by
  have product : a.toNat * b.toNat < 2 ^ 32 * 2 ^ 32 := Nat.mul_lt_mul'' a.isLt b.isLt
  rw [mulhu_eq, MulOp.eval, ALU.result, BitVec.toNat_mul, BitVec.toNat_ofNat]
  omega

/-- The source multiplies at 65 bits, with a zero in front of the unsigned operand. -/
theorem mulhsu_wide :
    (a.signExtend 65 * (0#1 ++ b).signExtend 65).extractLsb' 32 32 = ALU.result .mulhsu a b := by
  have truncated : ∀ product : BitVec 65,
      product.extractLsb' 32 32 = (product.setWidth 64).extractLsb' 32 32 := by
    intro product
    apply BitVec.eq_of_getLsbD_eq
    intro i inside
    have low : 32 + i < 64 := by omega
    simp [low]
  have signed : (a.signExtend 65).setWidth 64 = a.signExtend 64 := by
    apply BitVec.eq_of_getLsbD_eq
    intro i inside
    have wide : i < 65 := by omega
    simp only [BitVec.getLsbD_setWidth, BitVec.getLsbD_signExtend, inside, wide,
      decide_true, Bool.true_and]
  have unsigned : ((0#1 ++ b).signExtend 65).setWidth 64 = b.zeroExtend 64 := by
    have bound := b.isLt
    have value : (0#1 ++ b).toNat = b.toNat := by
      rw [BitVec.toNat_append, BitVec.toNat_ofNat, Nat.zero_mod, Nat.zero_shiftLeft, Nat.zero_or]
    have positive : (0#1 ++ b).msb = false := by
      rw [BitVec.msb_eq_false_iff_two_mul_lt, value]
      omega
    rw [BitVec.signExtend_eq_setWidth_of_msb_false positive]
    apply BitVec.eq_of_toNat_eq
    rw [BitVec.toNat_setWidth, BitVec.toNat_setWidth, value, BitVec.zeroExtend_eq_setWidth,
      BitVec.toNat_setWidth]
    omega
  rw [truncated, BitVec.setWidth_mul _ _ (by decide), signed, unsigned, ALU.result]

end Products

/-! ## Quotients -/

section Quotients

variable (a b : Word)

theorem signed_identity : a = ALU.result .div a b * b + ALU.result .rem a b := by
  rw [div_eq, rem_eq, MulOp.eval, MulOp.eval]
  by_cases zero : b = 0#32
  · rw [if_pos zero, if_pos zero, zero, BitVec.mul_zero, BitVec.zero_add]
  · rw [if_neg zero, if_neg zero]
    calc a = BitVec.ofInt 32 a.toInt := BitVec.ofInt_toInt.symm
      _ = BitVec.ofInt 32 (a.toInt.tdiv b.toInt * b.toInt + a.toInt.tmod b.toInt) := by
        rw [Int.tdiv_mul_add_tmod]
      _ = _ := by rw [BitVec.ofInt_add, BitVec.ofInt_mul, BitVec.ofInt_toInt]

theorem unsigned_identity : a = ALU.result .divu a b * b + ALU.result .remu a b := by
  rw [divu_eq, remu_eq, MulOp.eval, MulOp.eval]
  by_cases zero : b = 0#32
  · rw [if_pos zero, if_pos zero, zero, BitVec.mul_zero, BitVec.zero_add]
  · rw [if_neg zero, if_neg zero]
    apply BitVec.eq_of_toNat_eq
    have division : a.toNat / b.toNat * b.toNat + a.toNat % b.toNat =
        a.toNat := Nat.div_add_mod' _ _
    simp only [BitVec.toNat_add, BitVec.toNat_mul, BitVec.toNat_ofNat,
      Nat.mod_mul_mod, Nat.add_mod_mod, Nat.mod_add_mod, division]
    exact (Nat.mod_eq_of_lt a.isLt).symm

variable {b} (nonzero : b ≠ 0#32)

include nonzero

theorem rem_toInt : (ALU.result .rem a b).toInt = a.toInt.tmod b.toInt := by
  rw [ALU.result, if_neg nonzero, remSigned_eq, BitVec.toInt_srem]

theorem remu_toNat : (ALU.result .remu a b).toNat = a.toNat % b.toNat := by
  rw [ALU.result, if_neg nonzero, BitVec.toNat_umod]

theorem rem_small : (ALU.result .rem a b).toInt.natAbs < b.toInt.natAbs := by
  have divisor : b.toInt ≠ 0 := fun zero => nonzero (BitVec.eq_of_toInt_eq zero)
  rw [rem_toInt a nonzero, Int.natAbs_tmod]
  exact Nat.mod_lt _ (Int.natAbs_pos.mpr divisor)

theorem rem_nonneg (dividend : 0 ≤ a.toInt) : 0 ≤ (ALU.result .rem a b).toInt := by
  rw [rem_toInt a nonzero]
  exact Int.tmod_nonneg _ dividend

theorem rem_nonpos (dividend : a.toInt ≤ 0) : (ALU.result .rem a b).toInt ≤ 0 := by
  have mirrored := Int.tmod_nonneg b.toInt (Int.neg_nonneg_of_nonpos dividend)
  rw [Int.neg_tmod] at mirrored
  rw [rem_toInt a nonzero]
  exact Int.nonpos_of_neg_nonneg mirrored

theorem remu_small : (ALU.result .remu a b).toNat < b.toNat := by
  have divisor : b.toNat ≠ 0 := fun zero => nonzero (BitVec.eq_of_toNat_eq zero)
  rw [remu_toNat a nonzero]
  exact Nat.mod_lt _ (Nat.pos_of_ne_zero divisor)

end Quotients

/-! ## All operands -/

/-- What the M extension asks of the ALU. -/
structure MExtension (a b : Word) : Prop where
  operation : ∀ op, ALU.result (mulFunction op) a b = op.eval a b
  mulh : (ALU.result .mulh a b).toInt * 2 ^ 32 + (ALU.result .mul a b).toNat = a.toInt * b.toInt
  mulhsu : (ALU.result .mulhsu a b).toInt * 2 ^ 32 + (ALU.result .mul a b).toNat = a.toInt * b.toNat
  mulhu : (ALU.result .mulhu a b).toNat * 2 ^ 32 + (ALU.result .mul a b).toNat = a.toNat * b.toNat
  byZero : b = 0#32 → ALU.result .div a b = BitVec.allOnes 32 ∧
    ALU.result .divu a b = BitVec.allOnes 32 ∧
    ALU.result .rem a b = a ∧ ALU.result .remu a b = a
  overflow : a = BitVec.intMin 32 → b = -1#32 → ALU.result .div a b = BitVec.intMin 32 ∧
    ALU.result .rem a b = 0#32
  signed : a = ALU.result .div a b * b + ALU.result .rem a b
  unsigned : a = ALU.result .divu a b * b + ALU.result .remu a b
  remainder : b ≠ 0#32 → (ALU.result .rem a b).toInt.natAbs < b.toInt.natAbs ∧
    (0 ≤ a.toInt → 0 ≤ (ALU.result .rem a b).toInt) ∧
    (a.toInt ≤ 0 → (ALU.result .rem a b).toInt ≤ 0)
  remainderUnsigned : b ≠ 0#32 → (ALU.result .remu a b).toNat < b.toNat

/-- The ALU computes the M extension on all operands, and the ALU control selects its functions. -/
theorem aluResult_mExtension :
    (∀ a b, MExtension a b) ∧ ∀ funct3, ALUControl.aluFunct InstructionTypes.RM funct3 0b0000001#7 =
      mulFunction (Rv32im.decodeMulOp funct3) := by
  refine ⟨fun a b => ?_, fun funct3 => ?_⟩
  · exact {
      operation := result_mulFunction a b
      mulh := mulh_exact a b
      mulhsu := mulhsu_exact a b
      mulhu := mulhu_exact a b
      byZero := by
        rintro rfl
        exact ⟨rfl, rfl, rfl, rfl⟩
      overflow := by
        rintro rfl rfl
        exact ⟨by decide, by decide⟩
      signed := signed_identity a b
      unsigned := unsigned_identity a b
      remainder := fun nonzero => ⟨rem_small a nonzero, rem_nonneg a nonzero, rem_nonpos a nonzero⟩
      remainderUnsigned := remu_small a }
  · exact functM_decodeMulOp funct3

end MyCpu
