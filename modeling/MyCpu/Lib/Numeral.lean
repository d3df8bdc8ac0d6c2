import Mathlib.Algebra.Order.Group.Nat
import Mathlib.Data.List.DropRight
import Mathlib.Data.Nat.Notation
import Mathlib.Tactic.Ring

/-! # Positional numerals

A number in a base, written with a fixed number of digits from the highest place on, or without the
zeros in front. -/

namespace Numeral

variable (base : ℕ)

/-- The number that the digits stand for. -/
def value (digits : List ℕ) : ℕ := digits.foldl (fun value digit => base * value + digit) 0

/-- The digits of the lowest places. -/
def padded : ℕ → ℕ → List ℕ
  | 0, _ => []
  | places + 1, n => n / base ^ places % base :: padded places n

/-- Without the zeros in front. -/
def significant (places n : ℕ) : List ℕ := (padded base places n).dropWhile fun digit => digit = 0

variable {base}

theorem padded_eq_map (places n : ℕ) :
    padded base places n = (List.range places).reverse.map fun i => n / base ^ i % base := by
  induction places with
  | zero => rfl
  | succ places inductionHypothesis =>
    rw [padded, inductionHypothesis, List.range_succ, List.reverse_append, List.reverse_singleton,
      List.singleton_append, List.map_cons]

theorem padded_length (places n : ℕ) : (padded base places n).length = places := by
  rw [padded_eq_map, List.length_map, List.length_reverse, List.length_range]

/-- Higher places do not matter. -/
theorem padded_congr {places n n' : ℕ} (same : n % base ^ places = n' % base ^ places) :
    padded base places n = padded base places n' := by
  induction places generalizing n n' with
  | zero => rfl
  | succ places inductionHypothesis =>
    have top : n / base ^ places % base = n' / base ^ places % base := by
      rw [← Nat.mod_mul_right_div_self, ← Nat.mod_mul_right_div_self, ← Nat.pow_succ, same]
    have below : n % base ^ places = n' % base ^ places := by
      have lower := congrArg (· % base ^ places) same
      simpa only [Nat.pow_succ, Nat.mod_mul_right_mod] using lower
    rw [padded, padded, top, inductionHypothesis below]

theorem padded_mod (places n : ℕ) : padded base places (n % base ^ places) = padded base places n :=
  padded_congr (Nat.mod_mod _ _)

theorem padded_lt (pos : 0 < base) {places n digit : ℕ} (member : digit ∈ padded base places n) :
    digit < base := by
  rw [padded_eq_map, List.mem_map] at member
  obtain ⟨i, _, rfl⟩ := member
  exact Nat.mod_lt _ pos

/-! ## Values -/

theorem foldl_value (digits : List ℕ) (start : ℕ) :
    digits.foldl (fun value digit => base * value + digit) start =
      start * base ^ digits.length + value base digits := by
  induction digits generalizing start with
  | nil => simp [value]
  | cons digit digits inductionHypothesis =>
    rw [value, List.foldl_cons, List.foldl_cons, inductionHypothesis,
      inductionHypothesis (base * 0 + digit), List.length_cons]
    ring

theorem value_cons (digit : ℕ) (digits : List ℕ) :
    value base (digit :: digits) = digit * base ^ digits.length + value base digits := by
  rw [value, List.foldl_cons, foldl_value]
  ring

theorem value_padded (places n : ℕ) : value base (padded base places n) = n % base ^ places := by
  induction places with
  | zero => rw [Nat.pow_zero, Nat.mod_one]; rfl
  | succ places inductionHypothesis =>
    rw [padded, value_cons, inductionHypothesis, padded_length, Nat.pow_succ, Nat.mod_mul]
    ring

theorem value_dropWhile (digits : List ℕ) :
    value base (digits.dropWhile fun digit => digit = 0) = value base digits := by
  induction digits with
  | nil => rfl
  | cons digit digits inductionHypothesis =>
    rw [List.dropWhile_cons]
    by_cases zero : digit = 0
    · rw [if_pos (by simpa using zero), inductionHypothesis, value_cons, zero,
        Nat.zero_mul, Nat.zero_add]
    · rw [if_neg (by simpa using zero)]

/-! ## Numerals without leading zeros -/

theorem significant_succ (places n : ℕ) :
    significant base (places + 1) n =
      if n / base ^ places % base = 0 then significant base places n
        else padded base (places + 1) n := by
  rw [significant, padded, List.dropWhile_cons]
  simp only [decide_eq_true_eq]
  rfl

theorem significant_mod (places n : ℕ) :
    significant base places (n % base ^ places) = significant base places n := by
  rw [significant, padded_mod, significant]

theorem value_significant (places n : ℕ) :
    value base (significant base places n) = n % base ^ places := by
  rw [significant, value_dropWhile, value_padded]

theorem significant_lt (pos : 0 < base) {places n digit : ℕ}
    (member : digit ∈ significant base places n) :
    digit < base := padded_lt pos ((List.dropWhile_sublist _).subset member)

theorem significant_head (places n : ℕ) : (significant base places n).head? ≠ some 0 := by
  intro zero
  have first := List.head?_dropWhile_not (fun digit : ℕ => digit = 0) (padded base places n)
  rw [← significant, zero] at first
  simp at first

end Numeral
