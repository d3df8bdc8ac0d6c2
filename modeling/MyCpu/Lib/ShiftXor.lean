import Mathlib.Logic.Function.Defs
import Mathlib.Data.Nat.Notation

/-! # Shifts and exclusive or

A word is combined by exclusive or with another one that is made of it.  If the bits can be put in
an order in which each bit of the other word depends on earlier bits only, the word can be found out
again bit by bit.  So it is with shifts by at least one place: to the left from the lowest bit on,
to the right from the highest. -/

namespace ShiftXor

variable {width : ℕ}

/-- Each bit of `other word` depends only on the bits of `word` with a lower rank. -/
def DependsBelow (rank : ℕ → ℕ) (other : BitVec width → BitVec width) : Prop :=
  ∀ word word' i, (∀ j, rank j < rank i → word.getLsbD j = word'.getLsbD j) →
    (other word).getLsbD i = (other word').getLsbD i

theorem xor_injective {rank : ℕ → ℕ} {other : BitVec width → BitVec width}
    (depends : DependsBelow rank other) :
    Function.Injective fun word => word ^^^ other word := by
  intro word word' same
  have known : ∀ level i, rank i < level → word.getLsbD i = word'.getLsbD i := by
    intro level
    induction level with
    | zero => exact fun i none => absurd none (Nat.not_lt_zero _)
    | succ level inductionHypothesis =>
      intro i ranked
      have others := depends word word' i fun j lower => inductionHypothesis j (by omega)
      have bit := congrArg (fun result => result.getLsbD i) same
      simp only [BitVec.getLsbD_xor, others] at bit
      exact Bool.xor_left_inj.mp bit
  exact BitVec.eq_of_getLsbD_eq fun i _ => known (rank i + 1) i (Nat.lt_succ_self _)

variable {shift : ℕ} (pos : 0 < shift)

include pos

theorem shiftLeft_depends : DependsBelow id fun word : BitVec width => word <<< shift := by
  intro word word' i lower
  rw [BitVec.getLsbD_shiftLeft, BitVec.getLsbD_shiftLeft]
  by_cases low : i < shift
  · simp only [decide_eq_true low, Bool.not_true, Bool.and_false, Bool.false_and]
  · rw [lower (i - shift) (show i - shift < i by omega)]

theorem shiftRight_depends : DependsBelow (width - ·) fun word :
    BitVec width => word >>> shift := by
  intro word word' i lower
  rw [BitVec.getLsbD_ushiftRight, BitVec.getLsbD_ushiftRight]
  by_cases inside : shift + i < width
  · exact lower (shift + i) (show width - (shift + i) < width - i by omega)
  · rw [BitVec.getLsbD_of_ge _ _ (Nat.le_of_not_lt inside), BitVec.getLsbD_of_ge _ _
      (Nat.le_of_not_lt inside)]

theorem xor_shiftLeft_injective :
    Function.Injective fun word : BitVec width => word ^^^ word <<< shift :=
  xor_injective (shiftLeft_depends pos)

theorem xor_shiftRight_injective :
    Function.Injective fun word : BitVec width => word ^^^ word >>> shift :=
  xor_injective (shiftRight_depends pos)

end ShiftXor
