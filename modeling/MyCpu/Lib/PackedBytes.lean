import Mathlib.Data.Nat.Notation

/-! # Bytes packed in words

Four bytes lie in a word of 32 bits, the first in the lowest bits.  A byte is written by masking the
word and is read by shifting it: the byte on one lane changes, and those on the other lanes stay. -/

namespace PackedBytes

/-- The byte on a lane. -/
def read (word : BitVec 32) (lane : ℕ) : BitVec 8 := (word >>> (8 * lane)).setWidth 8

def write (word : BitVec 32) (lane : ℕ) (byte : BitVec 8) : BitVec 32 :=
  word &&& ~~~(0xff#32 <<< (8 * lane)) ||| byte.zeroExtend 32 <<< (8 * lane)

theorem mask_bit (i : ℕ) : (0xff#32).getLsbD i = decide (i < 8) := by
  by_cases inside : i < 32
  · have all : ∀ i < 32, (0xff#32).getLsbD i = decide (i < 8) := by decide
    exact all i inside
  · have high : ¬ i < 8 := by omega
    rw [BitVec.getLsbD_of_ge _ _ (Nat.le_of_not_lt inside), decide_eq_false high]

theorem read_bit (word : BitVec 32) (lane : ℕ) {i : ℕ} (inside : i < 8) :
    (read word lane).getLsbD i = word.getLsbD (8 * lane + i) := by
  rw [read, BitVec.getLsbD_setWidth, decide_eq_true inside, Bool.true_and,
    BitVec.getLsbD_ushiftRight]

theorem read_write (word : BitVec 32) {lane lane' : ℕ} (valid : lane < 4)
    (valid' : lane' < 4) (byte : BitVec 8) :
    read (write word lane byte) lane' = if lane' = lane then byte else read word lane' := by
  apply BitVec.eq_of_getLsbD_eq
  intro i inside
  have narrow : 8 * lane' + i < 32 := by omega
  rw [read_bit _ _ inside, write, BitVec.getLsbD_or, BitVec.getLsbD_and, BitVec.getLsbD_not,
    BitVec.getLsbD_shiftLeft, BitVec.getLsbD_shiftLeft, mask_bit, BitVec.getLsbD_setWidth,
    decide_eq_true narrow, Bool.true_and]
  by_cases same : lane' = lane
  · subst same
    have at_lane : 8 * lane' + i - 8 * lane' = i := by omega
    have low : ¬ 8 * lane' + i < 8 * lane' := by omega
    have wide : i < 32 := by omega
    rw [if_pos rfl, at_lane, decide_eq_false low, decide_eq_true inside, decide_eq_true wide]
    simp
  · rw [if_neg same, read_bit _ _ inside]
    -- the bit lies below the lane or above it
    by_cases below : 8 * lane' + i < 8 * lane
    · simp [below]
    · have above : ¬ 8 * lane' + i - 8 * lane < 8 := by omega
      have outside : byte.getLsbD (8 * lane' + i - 8 * lane) = false :=
        BitVec.getLsbD_of_ge _ _ (Nat.le_of_not_lt above)
      simp [below, above, outside]

end PackedBytes
