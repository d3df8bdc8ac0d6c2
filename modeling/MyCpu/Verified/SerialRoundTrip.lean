import MyCpu.Lib.Clocked
import MyCpu.Verified.Receiver
import MyCpu.Verified.Transmitter

/-! # Serial round trip

A receiver whose `rxd` is the `txd` of a transmitter with the same parameters, and
whose channel is always ready.  The synchroniser shows the receiver the line of two
cycles ago, so the phase of the transmitter is followed for two more cycles: the
receiver works on the oldest of the three phases. -/

namespace MyCpu

open SerialLine UartConstants

/-! ## The two counter constants -/

namespace UartConfig

variable {config : UartConfig}

/-- All samples lie inside their bit cells. -/
structure Samples (config : UartConfig) : Prop where
  /-- The idle line is longer than the synchroniser. -/
  long : 3 ≤ config.bitTime
  early : config.bitTime ≤ config.startTime
  late : config.startTime < 2 * config.bitTime

theorem bitTime_eq (positive : 0 < config.baudRate) (fast : 3 * config.baudRate ≤ config.frequency)
    (fits : config.bitClocks < 2 ^ 16) :
    config.bitTime = (config.frequency + config.baudRate / 2) / config.baudRate := by
  have counted : 1 ≤ (config.frequency + config.baudRate / 2) / config.baudRate :=
    (Nat.le_div_iff_mul_le positive).mpr (by omega)
  rw [bitTime, bitCnt, Nat.mod_eq_of_lt fits, bitClocks, Nat.sub_add_cancel counted]

theorem startTime_eq (positive : 0 < config.baudRate)
    (fast : 3 * config.baudRate ≤ config.frequency)
    (fits : config.startClocks < 2 ^ 16) :
    config.startTime = (3 * config.frequency / 2 + config.baudRate / 2) / config.baudRate := by
  have counted : 1 ≤ (3 * config.frequency / 2 + config.baudRate / 2) / config.baudRate :=
    (Nat.le_div_iff_mul_le positive).mpr (by omega)
  rw [startTime, startCnt, Nat.mod_eq_of_lt fits, startClocks, Nat.sub_add_cancel counted]

theorem samples_inside (positive : 0 < config.baudRate)
    (fast : 3 * config.baudRate ≤ config.frequency)
    (bitFits : config.bitClocks < 2 ^ 16)
    (startFits : config.startClocks < 2 ^ 16) : config.Samples := by
  -- rounding keeps the first sample in the first data bit
  have bit := bitTime_eq positive fast bitFits
  have start := startTime_eq positive fast startFits
  refine ⟨?_, ?_, ?_⟩
  · rw [bit, Nat.le_div_iff_mul_le positive]
    omega
  · rw [bit, start]
    exact Nat.div_le_div_right (by omega)
  · -- a bit time is more than `frequency / baudRate - 1`, and half a baud period was added to each constant
    have below := Nat.lt_div_mul_add positive (a := config.frequency + config.baudRate / 2)
    rw [start, Nat.div_lt_iff_lt_mul positive, bit, Nat.mul_assoc]
    omega

end UartConfig

/-! ## The wired pair -/

structure Loopback where
  tx : Tx
  rx : Rx
deriving DecidableEq, Repr

namespace Loopback

def reset : Loopback := ⟨Tx.reset, Rx.reset⟩

def step (config : UartConfig) (loopback : Loopback) (channel : UartIO) : Loopback where
  tx := loopback.tx.step config channel
  rx := loopback.rx.step config loopback.tx.txd true

variable (config : UartConfig) (channel : ℕ → UartIO)

/-- The pair after `n` cycles. -/
def stateAt (n : ℕ) : Loopback := Clocked.stateAt (step config) reset channel n

/-- The bytes that the transmitter has taken from the channel in the first `n` cycles. -/
def accepted (n : ℕ) : List Byte :=
  Clocked.logAt (step config)
    (fun loopback offer => TxPhase.taken loopback.tx offer) reset channel n

/-- The byte that the receiver gives away in this cycle. -/
def given (core : Rx.Core) : List Byte := if core.valReg then [core.shiftReg] else []

/-- The bytes that the receiver has delivered in the first `n` cycles. -/
def delivered (n : ℕ) : List Byte :=
  Clocked.logAt (step config) (fun loopback _ => given loopback.rx.core) reset channel n

/-- What is delivered is what was taken: each byte once and in order. -/
structure RoundTrip : Prop where
  faithful : ∀ n, delivered config channel n <+: accepted config channel n
  /-- Everything taken so far is delivered after some time. -/
  complete : ∀ n, ∃ m ≥ n, accepted config channel n <+: delivered config channel m
  /-- A byte that is offered until it is taken gets its turn. -/
  takes : ∀ n, ∃ m ≥ n, (stateAt config channel m).tx.ready = true

end Loopback

/-! ## What the receiver has heard of a frame -/

namespace TxPhase

/-- The byte whose frame begins in this cycle. -/
def starting : TxPhase → List Byte
  | .sending byte 0 => [byte]
  | _ => []

theorem starting_next {config : UartConfig} {tx : Tx} {phase : TxPhase}
    (refines : phase.Refines config tx)
    (offer : UartIO) : (phase.next config offer).starting = taken tx offer := by
  cases phase with
  | idle wait =>
    cases wait with
    | zero =>
      rw [next, taken, refines.ready.mpr rfl, Bool.true_and]
      cases offer.valid <;> rfl
    | succ wait =>
      have busy := refines.busy fun same => Nat.succ_ne_zero wait (TxPhase.idle.inj same)
      rw [next, taken, busy]
      rfl
  | sending byte offset =>
    have busy := refines.busy TxPhase.noConfusion
    rw [next, taken, busy]
    split <;> rfl

end TxPhase

namespace Rx

/-- Nothing is being received. -/
def Waiting (core : Core) : Prop := core.cntReg = 0 ∧ core.bitsReg = 0 ∧ core.valReg = false

/-- The byte has been given away, and the receiver counts out what is left of the last bit time. -/
def CountingOut (config : UartConfig) (offset : ℕ) (core : Core) : Prop :=
  core.cntReg = config.lastSample + config.bitTime - offset ∧ core.bitsReg = 0 ∧ core.valReg = false

/-- The receiver while the synchronised line is in a phase; `unheard` is the byte of the frame that
    is still to be delivered. -/
inductive Hears (config : UartConfig) (core : Core) : TxPhase → List Byte → Prop where
  | silence {wait : ℕ} (waiting : Waiting core) : Hears config core (.idle wait) []
  | start {byte : Byte} (waiting : Waiting core) : Hears config core (.sending byte 0) [byte]
  | receiving {byte : Byte} {offset k : ℕ}
      (within : Receiving config (level config.bitTime byte) offset k core) :
    Hears config core (.sending byte offset) [byte]
  | received {byte : Byte} (complete : Received config (level config.bitTime byte) core) :
    Hears config core (.sending byte (config.lastSample + 1)) [byte]
  | done {byte : Byte} {offset : ℕ} (sampled : config.lastSample + 1 < offset)
    (counting : CountingOut config offset core) : Hears config core (.sending byte offset) []

section OneCycle

variable {config : UartConfig} {rx : Rx} {rxd : Bool} {offset : ℕ}

theorem waiting_step (waiting : Waiting rx.core) (high : rx.rxReg = true) :
    Waiting (rx.step config rxd true).core := by
  obtain ⟨expired, idle, free⟩ := waiting
  rw [step_idle expired idle (.inl high)]
  exact ⟨rfl, rfl, by simp⟩

theorem received_step {line : ℕ → Bool} (received : Received config line rx.core) :
    CountingOut config (config.lastSample + 2) (rx.step config rxd true).core := by
  obtain ⟨bits, count, held, _⟩ := received
  simp only [core] at bits count held
  by_cases expired : rx.cntReg = 0
  · rw [step_idle expired bits (.inr held)]
    refine ⟨?_, rfl, by simp⟩
    simp only [UartConfig.bitTime]
    omega
  · rw [step_count expired]
    refine ⟨?_, bits, by simp⟩
    simp only [UartConfig.bitTime]
    omega

theorem countingOut_step (counting : CountingOut config offset rx.core)
    (high : rx.cntReg = 0 → rx.rxReg = true) :
    CountingOut config (offset + 1) (rx.step config rxd true).core := by
  obtain ⟨count, idle, free⟩ := counting
  simp only [core] at count idle free
  by_cases expired : rx.cntReg = 0
  · rw [step_idle expired idle (.inl (high expired))]
    refine ⟨?_, rfl, by simp⟩
    simp only
    omega
  · rw [step_count expired]
    refine ⟨?_, idle, by simp [free]⟩
    simp only
    omega

end OneCycle

theorem hears_next {config : UartConfig} {rx : Rx} {phase : TxPhase} {unheard : List Byte}
    (samples : config.Samples)
    (hears : Hears config rx.core phase unheard) (seen : rx.rxReg = phase.level config) (rxd : Bool)
    (offer : UartIO) :
    ∃ unheard', Hears config (rx.step config rxd true).core (phase.next config offer) unheard' ∧
      unheard ++ (phase.next config offer).starting = Loopback.given rx.core ++ unheard' := by
  -- one cycle of the receiver: the frame that begins on the line is still to be heard, and a byte
  -- that is given away has been heard
  have long := samples.long
  have late := samples.late
  cases hears with
  | @silence wait waiting =>
    have waits := @waiting_step config rx rxd waiting seen
    rw [Loopback.given, waiting.2.2]
    cases wait with
    | zero =>
      cases offered : offer.valid with
      | true =>
        rw [TxPhase.next, if_pos offered]
        exact ⟨[offer.bits], .start waits, rfl⟩
      | false =>
        rw [TxPhase.next, offered]
        exact ⟨[], .silence waits, rfl⟩
    | succ wait => exact ⟨[], .silence waits, rfl⟩
  | @start byte waiting =>
    obtain ⟨expired, idle, free⟩ := waiting
    have low : rx.rxReg = false := seen.trans (level_start (by omega))
    rw [TxPhase.next, if_pos (by simp only [TX_FRAME_BITS]; omega), Loopback.given, free]
    exact ⟨[byte], .receiving (receiving_start expired idle low free), rfl⟩
  | @receiving byte offset k within =>
    have inside := receiving_early within
    simp only [UartConfig.lastSample] at inside
    rw [TxPhase.next, if_pos (by simp only [TX_FRAME_BITS]; omega), Loopback.given, within.free]
    cases @receiving_next config _ offset k rx rxd true within seen with
    | inl more =>
      obtain ⟨k', goesOn⟩ := more
      exact ⟨[byte], .receiving goesOn, rfl⟩
    | inr complete =>
      obtain ⟨now, received⟩ := complete
      rw [now]
      exact ⟨[byte], .received received, rfl⟩
  | @received byte complete =>
    have same : rx.core.shiftReg = byte := by
      have early := samples.early
      refine @received_byte config byte 0 rx.core ?_ (by omega) (by omega)
      simpa only [Nat.zero_add] using complete
    rw [TxPhase.next, if_pos (by simp only [TX_FRAME_BITS, UartConfig.lastSample]; omega),
      Loopback.given, complete.held, same]
    exact ⟨[], .done (Nat.lt_succ_self _) (received_step complete), rfl⟩
  | @done byte offset sampled counting =>
    have counts := @countingOut_step config rx rxd offset counting fun expired => by
      have count := counting.1
      have early := samples.early
      simp only [core, UartConfig.lastSample] at count
      exact seen.trans (level_stop (by omega) (by omega))
    rw [Loopback.given, counting.2.2]
    by_cases more : offset + 1 < TX_FRAME_BITS * config.bitTime
    · rw [TxPhase.next, if_pos more]
      exact ⟨[], .done (by omega) counts, rfl⟩
    · rw [TxPhase.next, if_neg more]
      refine ⟨[], .silence ⟨?_, counts.2⟩, rfl⟩
      rw [counts.1, UartConfig.lastSample]
      simp only [TX_FRAME_BITS] at more
      omega

end Rx

/-! ## The run -/

namespace Loopback

/-- The receiver follows the transmitter at a distance of two cycles. -/
structure Follows (config : UartConfig) (loopback : Loopback) (now synced seen : TxPhase) :
    Prop where
  refines : now.Refines config loopback.tx
  earlier : ∃ offer, now = synced.next config offer
  earliest : ∃ offer, synced = seen.next config offer
  rxSync : loopback.rx.rxSync = synced.level config
  rxReg : loopback.rx.rxReg = seen.level config

/-- Every byte taken has been delivered, or its frame is on the way. -/
def Accounts (config : UartConfig) (loopback : Loopback) (accepted delivered : List Byte) : Prop :=
  ∃ now synced seen unheard, Follows config loopback now synced seen ∧
    Rx.Hears config loopback.rx.core seen unheard ∧
    accepted = delivered ++ unheard ++ synced.starting ++ now.starting

theorem accounts_reset (config : UartConfig) : Accounts config reset [] [] := by
  refine ⟨.idle 0, .idle 1, .idle 2, [], ⟨TxPhase.refines_reset config, ?_, ?_, rfl, rfl⟩, ?_, rfl⟩
  · exact ⟨⟨false, 0#8⟩, rfl⟩
  · exact ⟨⟨false, 0#8⟩, rfl⟩
  · exact .silence ⟨rfl, rfl, rfl⟩

theorem accounts_step {config : UartConfig} {loopback : Loopback} {accepted delivered : List Byte}
    (samples : config.Samples) (accounts : Accounts config loopback accepted delivered)
    (offer : UartIO) :
    Accounts config (loopback.step config offer) (accepted ++ TxPhase.taken loopback.tx offer)
      (delivered ++ given loopback.rx.core) := by
  obtain ⟨now, synced, seen, unheard, follows, hears, rfl⟩ := accounts
  obtain ⟨refines, earlier, ⟨before, rfl⟩, rxSync, rxReg⟩ := follows
  obtain ⟨unheard', hears', moved⟩ := Rx.hears_next samples hears rxReg loopback.tx.txd before
  refine ⟨now.next config offer, now, _, unheard',
    ⟨?_, ⟨offer, rfl⟩, earlier, refines.txd, rxSync⟩, hears', ?_⟩
  · exact TxPhase.refines_next refines offer
  · rw [TxPhase.starting_next refines, List.append_assoc delivered, moved]
    simp only [List.append_assoc]

variable {config : UartConfig} {channel : ℕ → UartIO}

theorem accounts_always (samples : config.Samples) (n : ℕ) :
    Accounts config (stateAt config channel n) (accepted config channel n)
      (delivered config channel n) := by
  induction n with
  | zero => exact accounts_reset config
  | succ n inductionHypothesis => exact accounts_step samples inductionHypothesis (channel n)

theorem eventually_ready (samples : config.Samples) (n : ℕ) :
    ∃ m ≥ n, (stateAt config channel m).tx.ready = true := by
  -- the transmitter looks for a byte again and again
  obtain ⟨phase, _, _, _, follows, _⟩ := @accounts_always config channel samples n
  exact @TxPhase.eventually_ready config (fun n => (stateAt config channel n).tx) channel
    (fun _ => rfl) n phase
    follows.refines

theorem idle_earlier {phase : TxPhase} {offer : UartIO} {wait : ℕ}
    (silent : phase.next config offer = .idle wait)
    (ends : wait < config.bitCnt) : phase = .idle (wait + 1) := by
  -- before the end of a silence there was silence
  cases phase with
  | idle before =>
    cases before with
    | zero =>
      rw [TxPhase.next] at silent
      split at silent
      · cases silent
      · cases silent
        omega
    | succ before =>
      cases silent
      rfl
  | sending byte offset =>
    rw [TxPhase.next] at silent
    split at silent
    · cases silent
    · cases silent
      omega

theorem ready_delivered (samples : config.Samples) {n : ℕ}
    (ready : (stateAt config channel n).tx.ready = true) :
    accepted config channel n = delivered config channel n := by
  -- when the transmitter looks for a byte, the line has been silent for longer than the
  -- synchroniser
  obtain ⟨now, synced, seen, unheard, follows, hears, all⟩ :=
    @accounts_always config channel samples n
  obtain ⟨refines, ⟨offer, earlier⟩, ⟨before, earliest⟩, _⟩ := follows
  have long := samples.long
  rw [UartConfig.bitTime] at long
  have ended : now = .idle 0 := refines.ready.mp ready
  have silent : synced = .idle 1 := idle_earlier (earlier.symm.trans ended) (by omega)
  have waiting : seen = .idle 2 := idle_earlier (earliest.symm.trans silent) (by omega)
  subst ended silent waiting
  cases hears
  rw [all, List.append_nil, TxPhase.starting, List.append_nil, TxPhase.starting, List.append_nil]
  all_goals simp

/-- Serial round trip. -/
theorem round_trip (config : UartConfig) (positive : 0 < config.baudRate)
    (fast : 3 * config.baudRate ≤ config.frequency) (bitFits : config.bitClocks < 2 ^ 16)
    (startFits : config.startClocks < 2 ^ 16) (channel : ℕ → UartIO) :
    RoundTrip config channel := by
  have samples := UartConfig.samples_inside positive fast bitFits startFits
  refine ⟨fun n => ?_, fun n => ?_, eventually_ready samples⟩
  · obtain ⟨_, _, _, _, _, _, all⟩ := @accounts_always config channel samples n
    rw [all, List.append_assoc, List.append_assoc]
    exact List.prefix_append _ _
  · obtain ⟨m, later, ready⟩ := @eventually_ready config channel samples n
    refine ⟨m, later, ?_⟩
    rw [← ready_delivered samples ready]
    exact Clocked.logAt_isPrefix _ _ _ _ later

/-- The byte `'A'` is offered all the time, at 115200 baud and 50 MHz. -/
theorem round_trip_repeated : RoundTrip ⟨50000000, 115200⟩ (fun _ => ⟨true, 0x41#8⟩) :=
  round_trip ⟨50000000, 115200⟩ (by decide) (by decide) (by decide) (by decide) _

end Loopback

end MyCpu
