import MyCpu.Lib.SerialLine
import MyCpu.Peripheral.Uart

/-! # The receiver, bit by bit

`Rx` waits for a low level, counts to the middle of the first data bit, and then
samples once per bit time.  `Rx.Receiving` describes it `offset` cycles after the
low level was seen, in terms of the levels it has been shown since. -/

namespace MyCpu

open SerialLine UartConstants

namespace UartConfig

variable (config : UartConfig)

/-- Cycles from the low level to the first sample. -/
def startTime : ℕ := config.startCnt + 1

/-- Cycles from the low level to the last sample. -/
def lastSample : ℕ := config.startTime + 7 * config.bitTime

end UartConfig

namespace Rx

/-! ## The five kinds of edge -/

section Edges

variable {config : UartConfig} {rx : Rx} {rxd ready : Bool}

@[simp] theorem step_rxSync : (rx.step config rxd ready).rxSync = rxd := rfl

@[simp] theorem step_rxReg : (rx.step config rxd ready).rxReg = rx.rxSync := rfl

/-- The byte register takes a sample at the top. -/
def shifted (rx : Rx) : Byte := BitVec.ofBool rx.rxReg ++ rx.shiftReg.extractLsb' 1 7

theorem shifted_bit (i : ℕ) (inside : i < 8) :
    rx.shifted.getLsbD i = if i = 7 then rx.rxReg else rx.shiftReg.getLsbD (i + 1) := by
  rw [shifted, BitVec.getLsbD_append]
  by_cases last : i = 7
  · simp [last]
  · rw [if_pos (by omega), if_neg last, BitVec.getLsbD_extractLsb', decide_eq_true
      (by omega), Bool.true_and, Nat.add_comm]

/-- The registers behind the synchroniser. -/
structure Core where
  shiftReg : Byte
  cntReg : ℕ
  bitsReg : ℕ
  valReg : Bool
deriving DecidableEq, Repr

def core (rx : Rx) : Core := ⟨rx.shiftReg, rx.cntReg, rx.bitsReg, rx.valReg⟩

theorem step_count (counting : rx.cntReg ≠ 0) :
    (rx.step config rxd ready).core =
      ⟨rx.shiftReg, rx.cntReg - 1, rx.bitsReg, rx.valReg && !ready⟩ := by
  cases held : rx.valReg <;> cases ready <;> simp [step, core, samples, starts, counting, held]

theorem step_sample (expired : rx.cntReg = 0) (busy : rx.bitsReg ≠ 0) (free : rx.valReg = false) :
    (rx.step config rxd ready).core =
      ⟨rx.shifted, config.bitCnt, rx.bitsReg - 1, rx.bitsReg = 1⟩ := by
  by_cases last : rx.bitsReg = 1 <;> simp [step, core, samples, expired, busy, free, shifted, last]

theorem step_start (expired : rx.cntReg = 0) (idle : rx.bitsReg = 0) (low : rx.rxReg = false)
    (free : rx.valReg = false) :
    (rx.step config rxd ready).core = ⟨rx.shiftReg, config.startCnt, DATA_BITS, false⟩ := by
  simp [step, core, samples, starts, expired, idle, low, free]

theorem step_idle (expired : rx.cntReg = 0) (idle : rx.bitsReg = 0)
    (quiet : rx.rxReg = true ∨ rx.valReg = true) :
    (rx.step config rxd ready).core = ⟨rx.shiftReg, 0, 0, rx.valReg && !ready⟩ := by
  -- nothing is received while the line is high, or while a byte is held
  cases quiet with
  | inl high => cases held : rx.valReg <;> cases ready <;> simp [step, core, samples, starts,
      expired, idle, high, held]
  | inr held => cases ready <;> simp [step, core, samples, starts, expired, idle, held]

end Edges

/-! ## One byte -/

/-- `offset` cycles after the low level, `k` bits have been sampled from the line. -/
structure Receiving (config : UartConfig) (line : ℕ → Bool) (offset k : ℕ) (core : Core) :
    Prop where
  bits : core.bitsReg + k = DATA_BITS
  unfinished : k < DATA_BITS
  clock : offset + core.cntReg = config.startTime + k * config.bitTime
  free : core.valReg = false
  sampled : ∀ q < k, core.shiftReg.getLsbD (DATA_BITS - k + q) =
    line (config.startTime + q * config.bitTime)

/-- The byte is held, and the receiver counts out the last bit time. -/
structure Received (config : UartConfig) (line : ℕ → Bool) (core : Core) : Prop where
  bits : core.bitsReg = 0
  count : core.cntReg = config.bitCnt
  held : core.valReg = true
  sampled : ∀ q < DATA_BITS, core.shiftReg.getLsbD q = line (config.startTime + q * config.bitTime)

section OneByte

variable {config : UartConfig} {line : ℕ → Bool} {offset k : ℕ} {rx : Rx} {rxd ready : Bool}

theorem receiving_start (expired : rx.cntReg = 0) (idle : rx.bitsReg = 0) (low : rx.rxReg = false)
    (free : rx.valReg = false) : Receiving config line 1 0 (rx.step config rxd ready).core := by
  rw [step_start expired idle low free]
  refine ⟨rfl, by decide, ?_, rfl, fun q none => absurd none (Nat.not_lt_zero q)⟩
  rw [UartConfig.startTime]
  ring

/-- A byte is received before its stop bits are over. -/
theorem receiving_early {core : Core} (receiving : Receiving config line offset k core) :
    offset ≤ config.lastSample := by
  obtain ⟨_, unfinished, clock, _⟩ := receiving
  have earlier : k * config.bitTime ≤ 7 * config.bitTime :=
    Nat.mul_le_mul_right _ (Nat.le_of_lt_succ unfinished)
  rw [UartConfig.lastSample]
  omega

theorem receiving_next (receiving : Receiving config line offset k rx.core)
    (seen : rx.rxReg = line offset) :
    (∃ k', Receiving config line (offset + 1) k' (rx.step config rxd ready).core) ∨
      offset = config.lastSample ∧ Received config line (rx.step config rxd ready).core := by
  obtain ⟨bits, unfinished, clock, free, sampled⟩ := receiving
  simp only [core] at bits clock free sampled
  by_cases expired : rx.cntReg = 0
  · have busy : rx.bitsReg ≠ 0 := by omega
    have now : offset = config.startTime + k * config.bitTime := by omega
    -- the new sample stands above the old ones
    have samples : ∀ q < k + 1, rx.shifted.getLsbD (DATA_BITS - (k + 1) + q) =
        line (config.startTime + q * config.bitTime) := by
      intro q earlier
      simp only [DATA_BITS] at unfinished sampled ⊢
      rw [shifted_bit _ (by omega)]
      by_cases newest : q = k
      · rw [if_pos (by omega), seen, now, newest]
      · rw [if_neg (by omega), ← sampled q (by omega)]
        congr 1
        omega
    rw [step_sample expired busy free]
    by_cases last : k = 7
    · right
      have one : rx.bitsReg = 1 := by
        simp only [DATA_BITS] at bits
        omega
      refine ⟨by rw [now, last, UartConfig.lastSample], ?_⟩
      refine ⟨by simp only; omega, rfl, by simp [one], fun q inside => ?_⟩
      have sample := samples q (by simp only [DATA_BITS] at inside; omega)
      rwa [last, show DATA_BITS - (7 + 1) + q = q from Nat.zero_add q] at sample
    · left
      simp only [DATA_BITS] at unfinished bits
      have more : rx.bitsReg ≠ 1 := by omega
      refine ⟨k + 1, by simp only [DATA_BITS]; omega, by simp only [DATA_BITS]; omega, ?_, by simp [more], samples⟩
      simp only [UartConfig.bitTime] at now ⊢
      rw [now]
      ring
  · left
    rw [step_count expired]
    exact ⟨k, bits, unfinished, by simp only; omega, by simp [free], sampled⟩

/-- The byte whose bits the line shows when it is sampled. -/
theorem received_data {byte : Byte} {core : Core} (received : Received config line core)
    (cells : ∀ q < DATA_BITS, line (config.startTime + q * config.bitTime) = byte.getLsbD q) :
    core.shiftReg = byte := by
  apply BitVec.eq_of_getLsbD_eq
  intro q data
  rw [received.sampled q data, cells q data]

/-- The byte of a frame whose bits are sampled in their cells. -/
theorem received_byte {byte : Byte} {start : ℕ} {core : Core}
    (received : Received config (fun offset => level config.bitTime byte (start + offset)) core)
    (early : config.bitTime ≤ start + config.startTime)
    (late : start + config.startTime < 2 * config.bitTime) :
    core.shiftReg = byte := by
  refine received_data received fun q data => ?_
  rw [← Nat.add_assoc]
  refine level_data data ?_ ?_
  · rw [Nat.succ_mul, Nat.add_comm]
    exact Nat.add_le_add_right early _
  · rw [Nat.add_mul, Nat.add_comm]
    exact Nat.add_lt_add_left late _

end OneByte

end Rx

end MyCpu
