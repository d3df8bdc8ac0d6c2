import MyCpu.Lib.SerialLine
import MyCpu.Peripheral.Uart

/-! # The transmitter, frame by frame

`Tx` is idle and counts down to the cycle in which it looks for a byte, or it is a
number of cycles into a frame of eleven bits.  `TxPhase.Refines` ties the shift
register and the two counters to these phases; `refines_next` is one clock edge. -/

namespace MyCpu

open SerialLine UartConstants

/-! ## The four kinds of edge -/

namespace Tx

variable {config : UartConfig} {tx : Tx} {channel : UartIO}

theorem step_count (counting : tx.cntReg ≠ 0) : tx.step config channel =
    { tx with cntReg := tx.cntReg - 1 } := by
  rw [step, if_neg counting]

theorem step_shift (expired : tx.cntReg = 0) (busy : tx.bitsReg ≠ 0) :
    tx.step config channel =
      { shiftReg := 1#1 ++ tx.shiftReg.extractLsb' 1 10, cntReg := config.bitCnt, bitsReg := tx.bitsReg - 1 } := by
  rw [step, if_pos expired, if_pos busy]

theorem step_load (expired : tx.cntReg = 0) (free : tx.bitsReg = 0)
    (offered : channel.valid = true) :
    tx.step config channel =
      { shiftReg := 3#2 ++ channel.bits ++ 0#1, cntReg := config.bitCnt, bitsReg := TX_FRAME_BITS } := by
  rw [step, if_pos expired, if_neg (not_not.mpr free), if_pos offered]

theorem step_wait (expired : tx.cntReg = 0) (free : tx.bitsReg = 0)
    (silent : channel.valid = false) :
    tx.step config channel = { tx with shiftReg := TX_IDLE, cntReg := config.bitCnt } := by
  rw [step, if_pos expired, if_neg (not_not.mpr free), silent, if_neg Bool.false_ne_true]

end Tx

/-! ## Phases -/

inductive TxPhase where
  /-- The next byte is looked for after some cycles. -/
  | idle (wait : ℕ)
  /-- So many cycles of the frame are over. -/
  | sending (byte : Byte) (offset : ℕ)
deriving DecidableEq, Repr

namespace TxPhase

/-- The level of the line. -/
def level (config : UartConfig) : TxPhase → Bool
  | .idle _ => true
  | .sending byte offset => SerialLine.level config.bitTime byte offset

/-- One cycle; the frame is followed by one more bit time of silence. -/
def next (config : UartConfig) (channel : UartIO) : TxPhase → TxPhase
  | .idle 0 => if channel.valid then .sending channel.bits 0 else .idle config.bitCnt
  | .idle (wait + 1) => .idle wait
  | .sending byte offset =>
    if offset + 1 < TX_FRAME_BITS * config.bitTime then .sending byte (offset + 1)
      else .idle config.bitCnt

/-- The shift register holds the frame from bit `k` on, and bit `k` lasts for `tx.cntReg` more
    cycles. -/
structure Shifting (config : UartConfig) (byte : Byte) (offset k : ℕ) (tx : Tx) : Prop where
  bits : tx.bitsReg + k = TX_FRAME_BITS
  unfinished : k < TX_FRAME_BITS
  clock : offset + tx.cntReg + 1 = (k + 1) * config.bitTime
  bounded : tx.cntReg < config.bitTime
  rest : ∀ i < TX_FRAME_BITS, tx.shiftReg.getLsbD i = frameBit byte (k + i)

def Refines (config : UartConfig) (tx : Tx) : TxPhase → Prop
  | .idle wait => tx.cntReg = wait ∧ tx.bitsReg = 0 ∧ tx.txd = true ∧ wait < config.bitTime
  | .sending byte offset => ∃ k, Shifting config byte offset k tx

section Edge

variable {config : UartConfig} {tx : Tx} {byte : Byte} {offset k : ℕ}

theorem loaded_bit (byte : Byte) (i : ℕ) (inside : i < TX_FRAME_BITS) :
    (3#2 ++ byte ++ 0#1 : BitVec 11).getLsbD i = frameBit byte i := by
  simp only [TX_FRAME_BITS] at inside
  rw [BitVec.getLsbD_append, frameBit]
  by_cases start : i = 0
  · simp [start]
  · rw [if_neg (by omega), BitVec.getLsbD_append, if_neg start]
    by_cases data : i ≤ 8
    · rw [if_pos (by omega), if_pos data]
    · have stops : i = 9 ∨ i = 10 := by omega
      rw [if_neg (by omega), if_neg data]
      cases stops with
      | inl first => rw [first]; rfl
      | inr second => rw [second]; rfl

theorem shifted_bit (shiftReg : BitVec 11) (i : ℕ) (inside : i < TX_FRAME_BITS) :
    (1#1 ++ shiftReg.extractLsb' 1 10 : BitVec 11).getLsbD i = if i = 10 then true
      else shiftReg.getLsbD (i + 1) := by
  simp only [TX_FRAME_BITS] at inside
  rw [BitVec.getLsbD_append]
  by_cases last : i = 10
  · simp [last]
  · rw [if_pos (by omega), if_neg last, BitVec.getLsbD_extractLsb', decide_eq_true
      (by omega), Bool.true_and, Nat.add_comm]

theorem frameBit_high (byte : Byte) {k : ℕ} (stop : 9 ≤ k) : frameBit byte k = true := by
  -- behind the data bits of a frame there are only high bits
  rw [frameBit, if_neg (by omega), if_neg (by omega)]

theorem Refines.txd {phase : TxPhase} (refines : phase.Refines config tx) :
    tx.txd = phase.level config := by
  cases phase with
  | idle wait => exact refines.2.2.1
  | sending byte offset =>
    obtain ⟨k, bits, unfinished, clock, bounded, rest⟩ := refines
    rw [Tx.txd, rest 0 (by decide), level, Nat.add_zero]
    rw [Nat.succ_mul] at clock
    exact (level_cell (by omega) (by rw [Nat.succ_mul]; omega)).symm

theorem Refines.ready {phase : TxPhase} (refines : phase.Refines config tx) :
    tx.ready = true ↔ phase = .idle 0 := by
  cases phase with
  | idle wait => simp [Tx.ready, refines.1, refines.2.1]
  | sending byte offset =>
    obtain ⟨k, bits, unfinished, _⟩ := refines
    have busy : tx.bitsReg ≠ 0 := by omega
    simp [Tx.ready, busy]

theorem Refines.busy {phase : TxPhase} (refines : phase.Refines config tx)
    (other : phase ≠ .idle 0) :
    tx.ready = false := Bool.eq_false_iff.mpr fun ready => other (refines.ready.mp ready)

theorem refines_reset (config : UartConfig) : (TxPhase.idle 0).Refines config Tx.reset :=
  ⟨rfl, rfl, rfl, Nat.succ_pos _⟩

theorem Shifting.count (shifting : Shifting config byte offset k tx) (counting : tx.cntReg ≠ 0) :
    Shifting config byte (offset + 1) k { tx with cntReg := tx.cntReg - 1 } := by
  obtain ⟨bits, unfinished, clock, bounded, rest⟩ := shifting
  exact ⟨bits, unfinished, by simp only; omega, by simp only; omega, rest⟩

theorem Shifting.shift (shifting : Shifting config byte offset k tx) (expired : tx.cntReg = 0)
    (more : k + 1 < TX_FRAME_BITS) :
    Shifting config byte (offset + 1) (k + 1)
      { shiftReg := 1#1 ++ tx.shiftReg.extractLsb' 1 10, cntReg := config.bitCnt, bitsReg := tx.bitsReg - 1 } := by
  obtain ⟨bits, unfinished, clock, bounded, rest⟩ := shifting
  refine ⟨by simp only; omega, more, ?_, Nat.lt_succ_self _, fun i inside => ?_⟩
  · simp only [UartConfig.bitTime] at clock ⊢
    rw [Nat.succ_mul (k + 1), ← clock, expired]
    ring
  · rw [shifted_bit _ i inside]
    by_cases last : i = 10
    · rw [if_pos last, frameBit_high byte (by omega)]
    · simp only [TX_FRAME_BITS] at inside
      rw [if_neg last, rest (i + 1) (by simp only [TX_FRAME_BITS]; omega)]
      congr 1
      omega

end Edge

theorem refines_next {config : UartConfig} {tx : Tx} {phase : TxPhase}
    (refines : phase.Refines config tx)
    (channel : UartIO) : (phase.next config channel).Refines config (tx.step config channel) := by
  cases phase with
  | idle wait =>
    obtain ⟨count, bits, high, bounded⟩ := refines
    cases wait with
    | zero =>
      cases offered : channel.valid with
      | true =>
        rw [next, if_pos offered, Tx.step_load count bits offered]
        refine ⟨0, rfl, by decide, ?_, Nat.lt_succ_self _, fun i inside => ?_⟩
        · simp only [UartConfig.bitTime]
          omega
        · rw [Nat.zero_add]
          exact loaded_bit channel.bits i inside
      | false =>
        rw [next, offered, if_neg Bool.false_ne_true, Tx.step_wait count bits offered]
        exact ⟨rfl, bits, (by decide : TX_IDLE.getLsbD 0 = true), Nat.lt_succ_self _⟩
    | succ wait =>
      rw [next, Tx.step_count (by omega)]
      exact ⟨by simp only; omega, bits, high, by omega⟩
  | sending byte offset =>
    obtain ⟨k, shifting⟩ := refines
    have clock := shifting.clock
    have bits := shifting.bits
    have unfinished := shifting.unfinished
    have frameLength : (k + 1) * config.bitTime ≤ TX_FRAME_BITS * config.bitTime :=
      Nat.mul_le_mul_right _ unfinished
    by_cases expired : tx.cntReg = 0
    · have busy : tx.bitsReg ≠ 0 := by omega
      rw [Tx.step_shift expired busy]
      by_cases more : k + 1 < TX_FRAME_BITS
      · have positive : (k + 1) * config.bitTime < TX_FRAME_BITS * config.bitTime :=
          Nat.mul_lt_mul_of_pos_right more (Nat.succ_pos _)
        rw [next, if_pos (by omega)]
        exact ⟨k + 1, shifting.shift expired more⟩
      · -- the last stop bit is over
        have last : k = 10 := by
          simp only [TX_FRAME_BITS] at more unfinished
          omega
        subst last
        rw [next, if_neg (by simp only [TX_FRAME_BITS]; omega)]
        refine ⟨rfl, by simp only [TX_FRAME_BITS] at bits; simp only; omega, ?_, Nat.lt_succ_self _⟩
        rw [Tx.txd, shifted_bit _ 0 (by decide), if_neg (by decide), shifting.rest 1 (by decide)]
        exact frameBit_high byte (by decide)
    · rw [Tx.step_count expired, next, if_pos (by omega)]
      exact ⟨k, shifting.count expired⟩

/-! ## Waiting for the next byte -/

/-- The number of cycles until the transmitter looks for a byte. -/
def untilReady (config : UartConfig) : TxPhase → ℕ
  | .idle wait => wait
  | .sending _ offset => TX_FRAME_BITS * config.bitTime - offset + config.bitCnt

theorem Refines.unfinished {config : UartConfig} {tx : Tx} {byte : Byte} {offset : ℕ}
    (refines : (TxPhase.sending byte offset).Refines config tx) :
    offset < TX_FRAME_BITS * config.bitTime := by
  obtain ⟨k, bits, unfinished, clock, _⟩ := refines
  have frameLength : (k + 1) * config.bitTime ≤ TX_FRAME_BITS * config.bitTime :=
    Nat.mul_le_mul_right _ unfinished
  omega

theorem Refines.untilReady {config : UartConfig} {tx : Tx} {phase : TxPhase}
    (refines : phase.Refines config tx)
    (now : phase.untilReady config = 0) : tx.ready = true := by
  rw [refines.ready]
  cases phase with
  | idle wait => exact congrArg TxPhase.idle now
  | sending byte offset =>
    have unfinished := refines.unfinished
    rw [TxPhase.untilReady] at now
    omega

theorem untilReady_next {config : UartConfig} {tx : Tx} {phase : TxPhase}
    (refines : phase.Refines config tx)
    (channel : UartIO) (waiting : phase.untilReady config ≠ 0) :
    (phase.next config channel).untilReady config + 1 = phase.untilReady config := by
  cases phase with
  | idle wait =>
    cases wait with
    | zero => exact absurd rfl waiting
    | succ wait => rfl
  | sending byte offset =>
    have unfinished := refines.unfinished
    by_cases more : offset + 1 < TX_FRAME_BITS * config.bitTime
    · rw [next, if_pos more, untilReady, untilReady]
      omega
    · rw [next, if_neg more, untilReady, untilReady]
      omega

theorem eventually_ready {config : UartConfig} {txAt : ℕ → Tx} {channel : ℕ → UartIO}
    (steps : ∀ n, txAt (n + 1) = (txAt n).step config (channel n)) {n : ℕ} {phase : TxPhase}
    (refines : phase.Refines config (txAt n)) : ∃ m ≥ n, (txAt m).ready = true := by
  generalize waiting : phase.untilReady config = wait
  induction wait generalizing n phase with
  | zero => exact ⟨n, Nat.le_refl n, refines.untilReady waiting⟩
  | succ wait inductionHypothesis =>
    have next := refines_next refines (channel n)
    have shorter := untilReady_next refines (channel n) (by omega)
    rw [← steps] at next
    obtain ⟨m, later, ready⟩ := inductionHypothesis next (by omega)
    exact ⟨m, by omega, ready⟩

/-! ## What the line carries -/

/-- The samples so far are those of the frames of the bytes, the last of which may be unfinished. -/
def Carries (config : UartConfig) (line : List Bool) (bytes : List Byte) : TxPhase → Prop
  | .idle _ => Framed config.bitTime TX_FRAME_BITS line bytes
  | .sending byte offset => ∃ before sent, Framed config.bitTime TX_FRAME_BITS before sent ∧
      line = before ++ (frame config.bitTime TX_FRAME_BITS byte).take offset ∧
      bytes = sent ++ [byte]

/-- The byte that the transmitter takes in this cycle. -/
def taken (tx : Tx) (channel : UartIO) : List Byte :=
  if tx.ready && channel.valid then [channel.bits] else []

theorem carries_next {config : UartConfig} {tx : Tx} {phase : TxPhase}
    {line : List Bool} {bytes : List Byte}
    (refines : phase.Refines config tx)
    (carries : phase.Carries config line bytes) (channel : UartIO) :
    (phase.next config channel).Carries config (line ++ [tx.txd]) (bytes ++ taken tx channel) := by
  rw [refines.txd]
  cases phase with
  | idle wait =>
    have silent := carries.append_high
    cases wait with
    | zero =>
      have ready : tx.ready = true := refines.ready.mpr rfl
      cases offered : channel.valid with
      | true =>
        rw [next, if_pos offered, taken, ready, offered, Bool.and_true, if_pos rfl]
        exact ⟨_, _, silent, (List.append_nil _).symm, rfl⟩
      | false =>
        rw [next, offered, if_neg Bool.false_ne_true, taken, offered, Bool.and_false,
          if_neg Bool.false_ne_true, List.append_nil]
        exact silent
    | succ wait =>
      have busy := refines.busy fun same => Nat.succ_ne_zero wait (TxPhase.idle.inj same)
      rw [next, taken, busy, Bool.false_and, if_neg Bool.false_ne_true, List.append_nil]
      exact silent
  | sending byte offset =>
    obtain ⟨before, sent, framed, rfl, rfl⟩ := carries
    have unfinished := refines.unfinished
    have busy := refines.busy TxPhase.noConfusion
    rw [taken, busy, Bool.false_and, if_neg Bool.false_ne_true, List.append_nil,
      level, List.append_assoc, ← frame_take_succ unfinished]
    by_cases more : offset + 1 < TX_FRAME_BITS * config.bitTime
    · rw [next, if_pos more]
      exact ⟨before, sent, framed, rfl, rfl⟩
    · -- the frame is complete
      rw [next, if_neg more, List.take_of_length_le (by rw [frame_length]; omega)]
      exact framed.append_frame byte

/-- With the rest of the frame in progress, the line carries the bytes. -/
theorem Carries.completed {config : UartConfig} {phase : TxPhase}
    {line : List Bool} {bytes : List Byte}
    (carries : phase.Carries config line bytes) :
    ∃ tail, Framed config.bitTime TX_FRAME_BITS (line ++ tail) bytes := by
  cases phase with
  | idle wait => exact ⟨[], by rwa [List.append_nil]⟩
  | sending byte offset =>
    obtain ⟨before, sent, framed, rfl, rfl⟩ := carries
    refine ⟨(frame config.bitTime TX_FRAME_BITS byte).drop offset, ?_⟩
    rw [List.append_assoc, List.take_append_drop]
    exact framed.append_frame byte

end TxPhase

end MyCpu
