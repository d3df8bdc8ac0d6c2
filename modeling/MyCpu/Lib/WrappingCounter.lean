import Mathlib.Algebra.BigOperators.Group.Finset.Basic
import Mathlib.Algebra.Order.BigOperators.Group.Finset

/-! # Counters that wrap

A register of `w` bits that is raised by the events of every cycle holds their number modulo `2^w`.
It follows another count exactly when the two rise by the same amount in every cycle. -/

namespace WrappingCounter

variable {w : ℕ} (register : ℕ → BitVec w) (event : ℕ → ℕ)

/-- A register that starts at zero holds the number of events so far. -/
theorem register_eq (start : register 0 = 0#w)
    (raised : ∀ n, register (n + 1) = register n + BitVec.ofNat w (event n))
    (n : ℕ) : register n = BitVec.ofNat w (∑ k ∈ Finset.range n, event k) := by
  induction n with
  | zero => exact start
  | succ n inductionHypothesis =>
    rw [raised, inductionHypothesis, Finset.sum_range_succ, BitVec.ofNat_add]

/-- Two amounts below `2^w` raise a register alike only when they are equal. -/
theorem raise_inj {value : BitVec w} {amount amount' : ℕ} (small : amount < 2 ^ w)
    (small' : amount' < 2 ^ w) :
    value + BitVec.ofNat w amount = value + BitVec.ofNat w amount' ↔ amount = amount' := by
  rw [BitVec.add_right_inj]
  constructor
  · intro same
    have numbers := congrArg BitVec.toNat same
    rwa [BitVec.toNat_ofNat, BitVec.toNat_ofNat, Nat.mod_eq_of_lt small,
      Nat.mod_eq_of_lt small'] at numbers
  · exact congrArg _

/-- A register follows a count exactly when it is raised by what the count rises. -/
theorem follows_iff (count amount : ℕ → ℕ) (start : register 0 = BitVec.ofNat w (count 0))
    (raised : ∀ n, register (n + 1) = register n + BitVec.ofNat w (event n))
    (counted : ∀ n, count (n + 1) = count n + amount n) (small : ∀ n, event n < 2 ^ w)
    (small' : ∀ n, amount n < 2 ^ w) :
    (∀ n, register n = BitVec.ofNat w (count n)) ↔ ∀ n, event n = amount n := by
  constructor
  · intro follows n
    have next := follows (n + 1)
    rw [raised, counted, BitVec.ofNat_add, follows n, raise_inj (small n) (small' n)] at next
    exact next
  · intro same n
    induction n with
    | zero => exact start
    | succ n inductionHypothesis =>
      rw [raised, counted, BitVec.ofNat_add, inductionHypothesis, same]

/-- While it has not wrapped, a register that is raised by more holds more. -/
theorem register_le (register' : ℕ → BitVec w) (event' : ℕ → ℕ) (start : register 0 = 0#w)
    (start' : register' 0 = 0#w)
    (raised : ∀ n, register (n + 1) = register n + BitVec.ofNat w (event n))
    (raised' : ∀ n, register' (n + 1) = register' n + BitVec.ofNat w (event' n))
    (fewer : ∀ n, event n ≤ event' n)
    {n : ℕ} (unwrapped : ∑ k ∈ Finset.range n, event' k < 2 ^ w) : register n ≤ register' n := by
  have less : ∑ k ∈ Finset.range n, event k ≤ ∑ k ∈ Finset.range n, event' k :=
    Finset.sum_le_sum fun k _ => fewer k
  rw [register_eq register event start raised,
    register_eq register' event' start' raised', BitVec.le_def, BitVec.toNat_ofNat,
    BitVec.toNat_ofNat, Nat.mod_eq_of_lt unwrapped, Nat.mod_eq_of_lt (less.trans_lt unwrapped)]
  exact less

end WrappingCounter
