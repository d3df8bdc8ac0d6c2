import MyCpu.Lib.Numeral
import MyCpu.Software.Shell

/-! # The numbers of the shell

Repeated subtraction divides, and over the powers of ten it prints the decimal digits.  The digits
that `print_hex` sends are those that `parse_hex` puts together again. -/

namespace MyCpu.Shell

open Numeral

/-! ## Division -/

theorem rounds_enough (word : Word) : word.toNat < ROUNDS := word.isLt

/-- What has been subtracted is a multiple of the divisor. -/
theorem divide_loop_eq {num den : Word} (pos : den ≠ 0#32) :
    divide_loop num den = some (num % den, num / den) := by
  have positive : 0 < den.toNat := Nat.pos_of_ne_zero fun zero => pos (BitVec.eq_of_toNat_eq zero)
  obtain ⟨⟨rest, quot⟩, ended, sum, stopped⟩ :=
    @Loop.while_total _ (fun state : Word × Word => decide (den ≤ state.1))
      (fun state => (state.1 - den, state.2 + 1#32))
      (fun state => state.1.toNat + den.toNat * state.2.toNat = num.toNat)
      (fun state => state.1.toNat)
      (fun state sum more => by
        obtain ⟨rest, quot⟩ := state
        simp only [decide_eq_true_eq, BitVec.le_def] at more sum
        have lower : (rest - den).toNat = rest.toNat - den.toNat := BitVec.toNat_sub_of_le more
        have small : quot.toNat ≤ den.toNat * quot.toNat := Nat.le_mul_of_pos_left _ positive
        have bound := num.isLt
        have next : (quot + 1#32).toNat = quot.toNat + 1 := by
          rw [BitVec.toNat_add]
          exact Nat.mod_eq_of_lt (by simp only [BitVec.toNat_ofNat]; omega)
        simp only [lower, next, Nat.mul_succ]
        omega)
      (num, 0#32) (Nat.add_zero _) ROUNDS (rounds_enough num)
  simp only [decide_eq_false_iff_not, BitVec.not_le, BitVec.lt_def] at sum stopped
  refine ended.trans
    (congrArg some (Prod.ext (BitVec.eq_of_toNat_eq ?_) (BitVec.eq_of_toNat_eq ?_)))
  · rw [BitVec.toNat_umod, ← sum, Nat.add_mul_mod_self_left, Nat.mod_eq_of_lt stopped]
  · rw [BitVec.toNat_udiv, ← sum, Nat.add_mul_div_left _ _ positive,
      Nat.div_eq_of_lt stopped, Nat.zero_add]

theorem udiv_eq {num den : Word} (pos : den ≠ 0#32) : udiv num den = some (num / den) := by
  rw [udiv, if_neg pos, divide_loop_eq pos]
  rfl

theorem umod_eq {num den : Word} (pos : den ≠ 0#32) : umod num den = some (num % den) := by
  have positive : 0 < den.toNat := Nat.pos_of_ne_zero fun zero => pos (BitVec.eq_of_toNat_eq zero)
  obtain ⟨rest, ended, same, stopped⟩ := @Loop.while_total _ (fun num : Word => decide (den ≤ num))
    (fun num => num - den) (fun rest => rest.toNat % den.toNat = num.toNat % den.toNat)
    (fun rest => rest.toNat)
    (fun rest same more => by
      simp only [decide_eq_true_eq, BitVec.le_def] at more
      rw [BitVec.toNat_sub_of_le more, ← Nat.mod_eq_sub_mod more]
      exact ⟨same, by omega⟩)
    num rfl ROUNDS (rounds_enough num)
  simp only [decide_eq_false_iff_not, BitVec.not_le, BitVec.lt_def] at stopped
  rw [umod, if_neg pos]
  refine ended.trans (congrArg some (BitVec.eq_of_toNat_eq ?_))
  rw [BitVec.toNat_umod, ← same, Nat.mod_eq_of_lt stopped]

/-! ## Decimal digits -/

/-- The character of a decimal digit. -/
def decimal (digit : ℕ) : Byte := BitVec.ofNat 8 (48 + digit)

/-- The digits of a number, and those of 0. -/
def numeral (n : ℕ) : List ℕ := if n = 0 then [0] else significant 10 10 n

theorem divisors_powers : ∀ places < 10,
    divisors.drop (9 - places) = BitVec.ofNat 32 (10 ^ places) :: divisors.drop (10 - places) ∧
      (BitVec.ofNat 32 (10 ^ places)).toNat = 10 ^ places := by
  decide

/-- The loop at a power of ten parts the number there. -/
theorem divide_power (places : ℕ) (few : places < 10) (val : Word) :
    ∃ digit rest, divide_loop val (BitVec.ofNat 32 (10 ^ places)) = some (rest, digit) ∧
      digit.toNat = val.toNat / 10 ^ places ∧ rest.toNat = val.toNat % 10 ^ places := by
  have power := (divisors_powers places few).2
  have positive : BitVec.ofNat 32 (10 ^ places) ≠ 0#32 := by
    intro zero
    have none := congrArg BitVec.toNat zero
    rw [power] at none
    exact absurd none (Nat.ne_of_gt (Nat.pow_pos (by decide)))
  refine ⟨_, _, divide_loop_eq positive, ?_, ?_⟩
  · rw [BitVec.toNat_udiv, power]
  · rw [BitVec.toNat_umod, power]

theorem decimal_sent (digit : Word) : (48#32 + digit).setWidth 8 = decimal digit.toNat := by
  apply BitVec.eq_of_toNat_eq
  rw [BitVec.toNat_setWidth, BitVec.toNat_add, decimal, BitVec.toNat_ofNat, BitVec.toNat_ofNat]
  omega

theorem digit_positive {digit : Word} (single : digit.toNat < 10) :
    0 < digit.toInt ↔ digit.toNat ≠ 0 := by
  rw [BitVec.toInt_eq_toNat_cond]
  omega

/-- From a power of ten on, the digits below it are printed; zeros only behind another digit. -/
theorem print_digits_eq {places : ℕ} (few : places ≤ 10) {val : Word}
    (small : val.toNat < 10 ^ places)
    (started : Bool) :
    print_digits (divisors.drop (10 - places)) val started =
      some ((if started then padded 10 places val.toNat
        else significant 10 places val.toNat).map decimal) := by
  induction places generalizing val started with
  | zero => cases started <;> rfl
  | succ places inductionHypothesis =>
    obtain ⟨first, _⟩ := divisors_powers places few
    have place : 10 - (places + 1) = 9 - places := by omega
    obtain ⟨digit, rest, divided, digit_toNat, rest_toNat⟩ := divide_power places few val
    have single : val.toNat / 10 ^ places < 10 := by
      rw [Nat.pow_succ] at small
      exact Nat.div_lt_of_lt_mul small
    have printed := @inductionHypothesis (Nat.le_of_succ_le few) rest
      (rest_toNat.trans_lt (Nat.mod_lt _ (Nat.pow_pos (by decide))))
    simp only [rest_toNat, padded_mod, significant_mod] at printed
    have sent := decimal_sent digit
    have nonzero := digit_positive (digit_toNat.trans_lt single)
    rw [digit_toNat] at sent nonzero
    rw [place, first, print_digits, divided]
    simp only [Option.bind_eq_bind, Option.bind_some, Option.pure_def, nonzero, sent]
    rw [significant_succ, Nat.mod_eq_of_lt single]
    by_cases shown : val.toNat / 10 ^ places ≠ 0 ∨ started = true
    · rw [if_pos shown, printed true]
      have digits : (if started then padded 10 (places + 1) val.toNat
          else if val.toNat / 10 ^ places = 0 then significant 10 places val.toNat
            else padded 10 (places + 1) val.toNat) = padded 10 (places + 1) val.toNat := by
        cases shown with
        | inl digit => rw [if_neg digit, ite_self]
        | inr begun => rw [begun, if_pos rfl]
      rw [digits, padded, Nat.mod_eq_of_lt single]
      rfl
    · -- a leading zero is not printed
      have zero : val.toNat / 10 ^ places = 0 := by
        by_contra digit
        exact shown (.inl digit)
      have silent : started = false := Bool.eq_false_iff.mpr fun begun => shown (.inr begun)
      rw [if_neg shown, printed started, silent, if_pos zero]
      rfl

theorem print_uint_eq (val : Word) : print_uint val = some ((numeral val.toNat).map decimal) := by
  rw [print_uint, numeral]
  by_cases zero : val = 0#32
  · rw [if_pos zero, if_pos (show val.toNat = 0 from congrArg BitVec.toNat zero)]
    decide
  · have positive : ¬ val.toNat = 0 := fun none => zero (BitVec.eq_of_toNat_eq none)
    have bound := val.isLt
    rw [if_neg zero, if_neg positive]
    exact print_digits_eq (Nat.le_refl 10) (by omega) false

/-- The digits of a number below 2^32 are its canonical numeral. -/
theorem numeral_canonical {n : ℕ} (small : n < 10 ^ 10) :
    numeral n ≠ [] ∧ (∀ digit ∈ numeral n, digit < 10) ∧
      ((numeral n).head? = some 0 → numeral n = [0]) ∧
      value 10 (numeral n) = n := by
  rw [numeral]
  split_ifs with zero
  · exact ⟨List.cons_ne_nil _ _, by decide, fun _ => rfl, zero.symm⟩
  · have number : value 10 (significant 10 10 n) = n := by
      rw [value_significant, Nat.mod_eq_of_lt small]
    refine ⟨fun empty => zero ?_, fun digit => significant_lt (by decide), fun head => ?_, number⟩
    · rw [← number, empty]
      rfl
    · exact absurd head (significant_head 10 n)

/-! ## Hexadecimal digits -/

/-- The character of a hexadecimal digit. -/
def hexChar (digit : ℕ) : Byte := hex.getD digit 0#8

theorem print_hex_eq (val : Word) (digits : ℕ) :
    print_hex val digits = (padded 16 digits val.toNat).map hexChar := by
  rw [print_hex, padded_eq_map, List.map_map]
  refine List.map_congr_left fun i _ => ?_
  have digit : ((val >>> (i * 4)) &&& 0xf#32).toNat = val.toNat / 16 ^ i % 16 := by
    have power : 16 ^ i = 2 ^ (i * 4) := by
      rw [Nat.mul_comm, Nat.pow_mul]
    rw [BitVec.toNat_and, BitVec.toNat_ushiftRight, Nat.shiftRight_eq_div_pow, power]
    exact Nat.and_two_pow_sub_one_eq_mod _ 4
  rw [Function.comp_apply, digit, hexChar]

theorem hexChar_parsed : ∀ digit < 16,
    hex_digit (hexChar digit) = some (BitVec.ofNat 32 digit) ∧ hexChar digit ≠ 0#8 ∧
      hexChar digit ≠ 120#8 ∧
      hexChar digit ≠ 88#8 := by
  decide

theorem shifted_digit (n : ℕ) {digit : ℕ} (small : digit < 16) :
    (BitVec.ofNat 32 n <<< 4 ||| BitVec.ofNat 32 digit) = BitVec.ofNat 32 (16 * n + digit) := by
  have digit_toNat : (BitVec.ofNat 32 digit).toNat = digit := by
    rw [BitVec.toNat_ofNat]
    omega
  have shifted : (BitVec.ofNat 32 n <<< 4).toNat = (n % 2 ^ 28) <<< 4 := by
    rw [BitVec.toNat_shiftLeft, BitVec.toNat_ofNat, Nat.shiftLeft_eq, Nat.shiftLeft_eq]
    omega
  apply BitVec.eq_of_toNat_eq
  rw [BitVec.toNat_or, shifted, digit_toNat,
    ← Nat.shiftLeft_add_eq_or_of_lt small, Nat.shiftLeft_eq, BitVec.toNat_ofNat]
  omega

/-- The parser takes the digits to their value. -/
theorem parse_digits_eq (digits : List ℕ) (small : ∀ digit ∈ digits, digit < 16)
    (rest : List Byte) (n : ℕ) :
    parse_digits (digits.map hexChar ++ 0#8 :: rest) (BitVec.ofNat 32 n) =
      some (BitVec.ofNat 32 (digits.foldl (fun value digit => 16 * value + digit) n)) := by
  induction digits generalizing n with
  | nil => rw [List.map_nil, List.nil_append, parse_digits, if_pos rfl, List.foldl_nil]
  | cons digit digits inductionHypothesis =>
    have single := small digit List.mem_cons_self
    obtain ⟨parsed, more, _, _⟩ := hexChar_parsed digit single
    rw [List.map_cons, List.cons_append, parse_digits, if_neg more, parsed]
    simp only
    rw [shifted_digit n single, inductionHypothesis
      fun other member => small other (List.mem_cons_of_mem _ member), List.foldl_cons]

theorem parse_printed (val : Word) (rest : List Byte) :
    parse_digits (print_hex val 8 ++ 0#8 :: rest) 0#32 = some val := by
  have parsed := parse_digits_eq (padded 16 8 val.toNat) (fun digit => padded_lt (by decide)) rest 0
  have number := @value_padded 16 8 val.toNat
  rw [value] at number
  rw [print_hex_eq]
  refine parsed.trans (congrArg some (BitVec.eq_of_toNat_eq ?_))
  have bound := val.isLt
  rw [number, BitVec.toNat_ofNat]
  omega

/-- No hexadecimal digit is taken for the prefix. -/
theorem parse_hex_unprefixed {c x : Byte} (rest : List Byte) (other : x ≠ 120#8 ∧ x ≠ 88#8) :
    parse_hex (c :: x :: rest) = parse_digits (c :: x :: rest) 0#32 := by
  unfold parse_hex
  split
  · next same =>
    cases same
    exact if_neg fun found => found.elim other.1 other.2
  · rfl

theorem parse_hex_printed (val : Word) (rest : List Byte) :
    parse_hex (print_hex val 8 ++ 0#8 :: rest) = some val := by
  rw [← parse_printed val rest, print_hex_eq]
  have second := (hexChar_parsed (val.toNat / 16 ^ 6 % 16) (Nat.mod_lt _ (by decide))).2.2
  exact parse_hex_unprefixed _ second

/-- The eight digits are parsed back, with either prefix or none, and the decimal digits are the
    canonical numeral. -/
theorem numbers_round_trip (val : Word) :
    (∀ rest, parse_hex (print_hex val 8 ++ 0#8 :: rest) = some val ∧
        parse_hex (uart_puts "0x" ++ print_hex val 8 ++ 0#8 :: rest) = some val ∧
        parse_hex (uart_puts "0X" ++ print_hex val 8 ++ 0#8 :: rest) = some val) ∧
      ∃ digits : List ℕ, print_uint val = some (digits.map decimal) ∧ digits ≠ [] ∧
        (∀ digit ∈ digits, digit < 10) ∧
        (digits.head? = some 0 → digits = [0]) ∧ value 10 digits = val.toNat := by
  have bound := val.isLt
  refine ⟨fun rest => ⟨parse_hex_printed val rest, parse_printed val rest, parse_printed val rest⟩,
    ?_⟩
  exact ⟨numeral val.toNat, print_uint_eq val, numeral_canonical (by omega)⟩

end MyCpu.Shell
