import MyCpu.Verified.ShellNumbers

/-! # Cycles per instruction

`cmd_perf` prints the quotient of its two counters with two decimals.  The decimals come from a
product of 32 bits: they are right exactly if what the product loses does not show in them. -/

namespace MyCpu.Shell

/-- Two decimals. -/
def decimals (n : ℕ) : List Byte := [decimal (n / 10), decimal (n % 10)]

/-- The quotient, truncated to two decimals. -/
def truncated (cycles instret : ℕ) : List Byte :=
  (numeral (cycles / instret)).map decimal ++ uart_puts "." ++ decimals
    (100 * cycles / instret % 100)

/-- What the product `cycles * 100` loses in 32 bits, with the remainder of what is left of it, is a
    multiple of `100 * instret` up to less than `instret`. -/
def NothingLost (cycles instret : ℕ) : Prop :=
  (100 * cycles / 4294967296 * 4294967296 + 100 * cycles % 4294967296 % instret) %
    (100 * instret) < instret

/-! ## The decimals -/

theorem nothingLost_small {cycles instret : ℕ} (running : 0 < instret)
    (small : 100 * cycles < 4294967296) :
    NothingLost cycles instret := by
  rw [NothingLost, Nat.div_eq_of_lt small, Nat.zero_mul, Nat.zero_add]
  exact Nat.lt_of_le_of_lt (Nat.mod_le _ _) (Nat.mod_lt _ running)

/-- The lost part adds its own quotient, which must be a multiple of 100. -/
theorem quotient_mod_iff {divisor : ℕ} (pos : 0 < divisor) (lost left : ℕ) :
    left / divisor % 100 = (lost + left) / divisor % 100 ↔
      (lost + left % divisor) % (100 * divisor) < divisor := by
  have quotient : (lost + left) / divisor = (lost + left % divisor) / divisor + left / divisor := by
    rw [← Nat.add_mul_div_left _ _ pos, Nat.add_assoc, Nat.mod_add_div]
  have remainder := Nat.mod_lt (lost + left % divisor) pos
  rw [quotient, Nat.mul_comm 100 divisor, Nat.mod_mul]
  generalize (lost + left % divisor) / divisor = added
  generalize (lost + left % divisor) % divisor = rest at remainder
  constructor
  · intro same
    have multiple : added % 100 = 0 := by omega
    rwa [multiple, Nat.mul_zero]
  · intro below
    have multiple : added % 100 = 0 := by
      by_contra some
      have more := Nat.le_mul_of_pos_right divisor (Nat.pos_of_ne_zero some)
      omega
    omega

theorem nothingLost_iff {cycles instret : ℕ} (running : 0 < instret) :
    100 * cycles % 4294967296 / instret % 100 = 100 * cycles / instret % 100 ↔
      NothingLost cycles instret := by
  rw [NothingLost, ← quotient_mod_iff running, Nat.div_add_mod']

theorem decimals_printed : ∀ n < 100,
    (if n < 10 then uart_puts "0" else []) ++ (numeral n).map decimal = decimals n := by
  decide +kernel

theorem decimals_injective {n n' : ℕ} (small : n < 100) (small' : n' < 100)
    (same : decimals n = decimals n') :
    n = n' := by
  simp only [decimals, List.cons.injEq, decimal, ← BitVec.toNat_inj, BitVec.toNat_ofNat] at same
  omega

/-! ## The command -/

theorem print_cpi_eq {cycles instret : Word} (running : instret ≠ 0#32) :
    print_cpi cycles instret =
      some ((numeral (cycles.toNat / instret.toNat)).map decimal ++ uart_puts "." ++
        decimals (100 * cycles.toNat % 4294967296 / instret.toNat % 100)) := by
  have scaled : (cycles * 100#32).toNat = 100 * cycles.toNat % 4294967296 := by
    rw [BitVec.toNat_mul, Nat.mul_comm]
    rfl
  have fraction : (cycles * 100#32 / instret % 100#32).toNat =
      100 * cycles.toNat % 4294967296 / instret.toNat % 100 := by
    rw [BitVec.toNat_umod, BitVec.toNat_udiv, scaled]
    rfl
  have small : 100 * cycles.toNat % 4294967296 / instret.toNat % 100 < 100 :=
    Nat.mod_lt _ (by decide)
  have single : cycles * 100#32 / instret % 100#32 < 10#32 ↔
      100 * cycles.toNat % 4294967296 / instret.toNat % 100 < 10 := by
    rw [BitVec.lt_def, fraction]
    rfl
  rw [print_cpi, udiv_eq running, udiv_eq running]
  simp only [Option.bind_eq_bind, Option.bind_some,
    umod_eq (show 100#32 ≠ 0#32 by decide), print_uint_eq, Option.pure_def, single,
    fraction, BitVec.toNat_udiv]
  rw [List.append_assoc _ (ite _ _ _), decimals_printed _ small]

/-- The two counters. -/
def counters (cycles instret : ℕ) : List Byte :=
  uart_puts "Performance Counters:\r\n" ++ uart_puts "  mcycle:   " ++
    (numeral cycles).map decimal ++
    uart_puts "\r\n" ++ uart_puts "  minstret: " ++
      (numeral instret).map decimal ++ uart_puts "\r\n"

theorem cmd_perf_eq {cycles instret : Word} (running : instret ≠ 0#32) {cpi : List Byte}
    (printed : print_cpi cycles instret = some cpi) :
    cmd_perf cycles instret =
      some (counters cycles.toNat instret.toNat ++ uart_puts "  CPI:      " ++ cpi ++
        uart_puts "\r\n") := by
  have positive : 0#32 < instret := by
    rw [BitVec.lt_def]
    exact Nat.pos_of_ne_zero fun zero => running (BitVec.eq_of_toNat_eq zero)
  rw [cmd_perf, print_uint_eq, print_uint_eq]
  simp only [Option.bind_eq_bind, Option.bind_some, if_pos positive, printed, Option.pure_def]
  rfl

/-- The command prints a number, and this is the truncated quotient exactly if nothing is lost. -/
theorem cpi_truncated_iff {cycles instret : Word} (running : instret ≠ 0#32) :
    ∃ cpi, cmd_perf cycles instret =
        some (counters cycles.toNat instret.toNat ++ uart_puts "  CPI:      " ++
          cpi ++ uart_puts "\r\n") ∧
      (cpi = truncated cycles.toNat instret.toNat ↔ NothingLost cycles.toNat instret.toNat) := by
  refine ⟨_, cmd_perf_eq running (print_cpi_eq running), ?_⟩
  have positive : 0 < instret.toNat :=
    Nat.pos_of_ne_zero fun zero => running (BitVec.eq_of_toNat_eq zero)
  rw [← nothingLost_iff positive, truncated, List.append_cancel_left_eq]
  constructor
  · exact decimals_injective (Nat.mod_lt _ (by decide)) (Nat.mod_lt _ (by decide))
  · intro same
    rw [same]

/-- 250 cycles for 100 instructions. -/
theorem cpi_truncated_shown :
    cmd_perf 250#32 100#32 =
      some (counters 250 100 ++ uart_puts "  CPI:      " ++ uart_puts "2.50" ++
        uart_puts "\r\n") := by
  obtain ⟨cpi, printed, right⟩ := @cpi_truncated_iff 250#32 100#32 (by decide)
  have number : cpi = truncated 250 100 := right.mpr (nothingLost_small (by decide) (by decide))
  have shown : truncated 250 100 = uart_puts "2.50" := by decide +kernel
  rw [number, shown] at printed
  exact printed

/-- 50 million cycles for 30 million instructions. -/
theorem cpi_wrapped :
    cmd_perf 50000000#32 30000000#32 =
        some (counters 50000000 30000000 ++ uart_puts "  CPI:      " ++
          uart_puts "1.23" ++ uart_puts "\r\n") ∧
      truncated 50000000 30000000 = uart_puts "1.66" ∧
        uart_puts "1.23" ≠ truncated 50000000 30000000 := by
  have printed : print_cpi 50000000#32 30000000#32 = some (uart_puts "1.23") := by decide +kernel
  have quotient : truncated 50000000 30000000 = uart_puts "1.66" := by decide +kernel
  refine ⟨cmd_perf_eq (by decide) printed, quotient, ?_⟩
  rw [quotient]
  decide

end MyCpu.Shell
