import MyCpu.Software.UartTerminal
import MyCpu.Verified.SerialRoundTrip
import MyCpu.Verified.UartReceive

/-! # The terminal and the UART agree

The terminal of the simulator and the UART are connected by two lines, and take turns
in each clock cycle.  On one line the terminal samples the frames of the transmitter
half a bit after their start, on the other the receiver samples the frames of the
terminal, whose start bit is one cycle longer than the other bits. -/

namespace MyCpu

open SerialLine UartConstants

/-! ## The two lines -/

/-- The UART without its registers, and the terminal. -/
structure TerminalLink where
  tx : Tx
  rx : Rx
  terminal : UartTerminal
deriving DecidableEq, Repr

namespace TerminalLink

/-- What the CPU offers to the transmitter, and what is typed in. -/
structure Inputs where
  channel : UartIO
  typed : List Byte
deriving DecidableEq, Repr

def reset : TerminalLink := ⟨Tx.reset, Rx.reset, UartTerminal.reset⟩

/-- One round of the main loop of `sim.cpp`: the clock edge, then the terminal. -/
def step (config : UartConfig) (link : TerminalLink) (io : Inputs) : TerminalLink where
  tx := link.tx.step config io.channel
  rx := link.rx.step config link.terminal.rx_line_value true
  terminal := ((link.terminal.process_tx
    (link.tx.step config io.channel).txd).1.poll_input io.typed).get_rx_line

variable (config : UartConfig) (inputs : ℕ → Inputs)

def stateAt (n : ℕ) : TerminalLink := Clocked.stateAt (step config) reset inputs n

/-- The bytes that the transmitter has taken in the first `n` cycles. -/
def sent (n : ℕ) : List Byte :=
  Clocked.logAt (step config) (fun link io => TxPhase.taken link.tx io.channel) reset inputs n

/-- The bytes that the terminal has printed. -/
def printed (n : ℕ) : List Byte :=
  Clocked.logAt (step config)
    (fun link io =>
      (link.terminal.process_tx (link.tx.step config io.channel).txd).2) reset inputs n

/-- The bytes that have been typed in. -/
def typed (n : ℕ) : List Byte := Clocked.logAt (step config) (fun _ io => io.typed) reset inputs n

/-- The bytes that the receiver has delivered. -/
def delivered (n : ℕ) : List Byte :=
  Clocked.logAt (step config) (fun link _ => Loopback.given link.rx.core) reset inputs n

/-- Each byte goes over its line once, and in order. -/
structure Agrees : Prop where
  prints : ∀ n, printed config inputs n <+: sent config inputs n
  /-- Everything sent so far is printed after some time. -/
  printsAll : ∀ n, ∃ m ≥ n, sent config inputs n <+: printed config inputs m
  /-- A byte that is offered until it is taken gets its turn. -/
  takes : ∀ n, ∃ m ≥ n, (stateAt config inputs m).tx.ready = true
  delivers : ∀ n, delivered config inputs n <+: typed config inputs n
  /-- Everything typed so far is delivered after some time. -/
  deliversAll : ∀ n, ∃ m ≥ n, typed config inputs n <+: delivered config inputs m

end TerminalLink

/-! ## The transmit line -/

namespace UartTerminal

/-- The variables of `process_tx`. -/
structure TxSide where
  state : TerminalState
  counter : ℕ
  bit_idx : ℕ
  data : Byte
  prev : Bool
deriving DecidableEq, Repr

def txSide (terminal : UartTerminal) : TxSide :=
  ⟨terminal.tx_state, terminal.tx_counter, terminal.tx_bit_idx, terminal.tx_data, terminal.tx_prev⟩

/-- What is driven does not depend on what is received. -/
theorem get_rx_line_txSide (terminal : UartTerminal) :
    terminal.get_rx_line.txSide = terminal.txSide := by
  rw [get_rx_line]
  cases terminal.rx_state with
  | IDLE => cases fifo : terminal.rx_fifo <;> rfl
  | START => simp only; split_ifs <;> rfl
  | DATA => simp only; split_ifs <;> rfl
  | STOP => simp only; split_ifs <;> rfl

/-- The terminal while the transmitter is in a phase whose level it has just seen; `unprinted` is
    the byte of the frame that is still to be printed. -/
inductive Decodes (side : TxSide) : TxPhase → List Byte → Prop where
  | silence {wait : ℕ} (idle : side.state = .IDLE) (high : side.prev = true) :
      Decodes side (.idle wait) []
  | start {byte : Byte} {offset : ℕ} (state : side.state = .START) (first : side.bit_idx = 0)
      (empty : side.data = 0#8)
    (count : side.counter = HALF_BIT + offset) (early : side.counter < CYCLES_PER_BIT) :
    Decodes side (.sending byte offset) [byte]
  | data {byte : Byte} {offset : ℕ} (state : side.state = .DATA) (unfinished : side.bit_idx < 8)
    (count : offset = HALF_BIT + CYCLES_PER_BIT * side.bit_idx + side.counter)
    (bounded : side.counter < CYCLES_PER_BIT)
    (bits : ∀ i < 8, side.data.getLsbD i = (decide (i < side.bit_idx) && byte.getLsbD i)) :
    Decodes side (.sending byte offset) [byte]
  | stop {byte : Byte} {offset : ℕ} (state : side.state = .STOP) (whole : side.data = byte)
    (count : offset = HALF_BIT + CYCLES_PER_BIT * 8 + side.counter)
    (bounded : side.counter < CYCLES_PER_BIT * 2) :
    Decodes side (.sending byte offset) [byte]
  | done {byte : Byte} {offset : ℕ} (idle : side.state = .IDLE) (high : side.prev = true)
    (late : HALF_BIT + CYCLES_PER_BIT * 10 ≤ offset) : Decodes side (.sending byte offset) []

section Printing

variable {terminal : UartTerminal} {line : Bool}

theorem idle_high (idle : terminal.tx_state = .IDLE) (high : line = true) :
    (terminal.process_tx line).1.txSide = { terminal.txSide with prev := true } ∧
      (terminal.process_tx line).2 = [] := by
  simp [process_tx, receiveTx, idle, high, txSide]

theorem idle_falls (idle : terminal.tx_state = .IDLE) (before : terminal.tx_prev = true)
    (low : line = false) :
    (terminal.process_tx line).1.txSide = ⟨.START, HALF_BIT, 0, 0#8, false⟩ ∧
      (terminal.process_tx line).2 = [] := by
  simp [process_tx, receiveTx, idle, before, low, txSide]

/-- The counter runs within a bit. -/
theorem counts (busy : terminal.tx_state = .START ∨ terminal.tx_state = .DATA)
    (more : ¬ CYCLES_PER_BIT ≤ terminal.tx_counter + 1) :
    (terminal.process_tx line).1.txSide =
      { terminal.txSide with counter := terminal.tx_counter + 1, prev := line } ∧
      (terminal.process_tx line).2 = [] := by
  cases busy with
  | inl state => simp [process_tx, receiveTx, state, more, txSide]
  | inr state => simp [process_tx, receiveTx, state, more, txSide]

/-- The counter runs within the stop bits. -/
theorem stop_counts (state : terminal.tx_state = .STOP)
    (more : ¬ CYCLES_PER_BIT * 2 ≤ terminal.tx_counter + 1) :
    (terminal.process_tx line).1.txSide =
      { terminal.txSide with counter := terminal.tx_counter + 1, prev := line } ∧
      (terminal.process_tx line).2 = [] := by
  simp [process_tx, receiveTx, state, more, txSide]

theorem start_ends (state : terminal.tx_state = .START)
    (full : CYCLES_PER_BIT ≤ terminal.tx_counter + 1)
    (low : line = false) :
    (terminal.process_tx line).1.txSide =
      { terminal.txSide with state := .DATA, counter := 0, prev := false } ∧
      (terminal.process_tx line).2 = [] := by
  simp [process_tx, receiveTx, state, full, low, txSide]

theorem bit_ends (state : terminal.tx_state = .DATA)
    (full : CYCLES_PER_BIT ≤ terminal.tx_counter + 1) :
    (terminal.process_tx line).1.txSide =
        ⟨if 8 ≤ terminal.tx_bit_idx + 1 then .STOP else .DATA, 0, terminal.tx_bit_idx + 1,
          terminal.tx_data ||| (BitVec.ofBool line).zeroExtend 8 <<< terminal.tx_bit_idx, line⟩ ∧
      (terminal.process_tx line).2 = [] := by
  simp [process_tx, receiveTx, state, full, txSide]

theorem stop_ends (state : terminal.tx_state = .STOP)
    (full : CYCLES_PER_BIT * 2 ≤ terminal.tx_counter + 1) :
    (terminal.process_tx line).1.txSide =
        { terminal.txSide with state := .IDLE, counter := terminal.tx_counter + 1, prev := line } ∧
      (terminal.process_tx line).2 = [terminal.tx_data] := by
  simp [process_tx, receiveTx, state, full, txSide]

/-- A sampled bit goes above those before it. -/
theorem sampled_bits {data byte : Byte} {k : ℕ} (unfinished : k < 8)
    (bits : ∀ i < 8, data.getLsbD i = (decide (i < k) && byte.getLsbD i)) :
    ∀ i < 8, (data ||| (BitVec.ofBool (byte.getLsbD k)).zeroExtend 8 <<< k).getLsbD i =
      (decide (i < k + 1) && byte.getLsbD i) := by
  intro i inside
  rw [BitVec.getLsbD_or, bits i inside, BitVec.getLsbD_shiftLeft, BitVec.getLsbD_setWidth,
    BitVec.getLsbD_ofBool, decide_eq_true inside, decide_eq_true (show i - k < 8 by omega)]
  by_cases before : i < k
  · simp [before, Nat.lt_succ_of_lt before]
  · by_cases here : i = k
    · simp [here]
    · have above : ¬ i < k + 1 := by omega
      have shifted : i - k ≠ 0 := by omega
      simp [before, above, shifted]

/-- With the level `line` the terminal goes on to the phase; what is printed has been decoded. -/
def Prints (terminal : UartTerminal) (line : Bool) (unprinted : List Byte) (next : TxPhase) :
    Prop :=
  ∃ unprinted', Decodes (terminal.process_tx line).1.txSide next unprinted' ∧
    unprinted = (terminal.process_tx line).2 ++ unprinted'

variable {byte : Byte} {offset : ℕ}

theorem start_prints (state : terminal.tx_state = .START) (first : terminal.tx_bit_idx = 0)
    (empty : terminal.tx_data = 0#8) (count : terminal.tx_counter = HALF_BIT + offset)
    (early : terminal.tx_counter < CYCLES_PER_BIT) :
    terminal.Prints (SerialLine.level CYCLES_PER_BIT byte (offset + 1)) [byte]
      (.sending byte (offset + 1)) := by
  simp only [CYCLES_PER_BIT, HALF_BIT] at count early
  by_cases full : 434 ≤ terminal.tx_counter + 1
  · have low : SerialLine.level CYCLES_PER_BIT byte (offset + 1) = false :=
      level_start (by simp only [CYCLES_PER_BIT]; omega)
    obtain ⟨side, silent⟩ := start_ends state full low
    rw [Prints, side, silent]
    refine ⟨[byte], .data rfl (by simp [txSide, first]) ?_
      (by simp only [CYCLES_PER_BIT]; omega) ?_, rfl⟩
    · simp only [txSide, first, CYCLES_PER_BIT, HALF_BIT]
      omega
    · intro i inside
      simp [txSide, first, empty]
  · obtain ⟨side, silent⟩ :=
      @counts terminal (SerialLine.level CYCLES_PER_BIT byte (offset + 1)) (.inl state) full
    rw [Prints, side, silent]
    exact ⟨[byte], .start state first empty (by simp only [CYCLES_PER_BIT, HALF_BIT]; omega)
      (by simp only [CYCLES_PER_BIT]; omega), rfl⟩

theorem data_prints (state : terminal.tx_state = .DATA) (unfinished : terminal.tx_bit_idx < 8)
    (count : offset = HALF_BIT + CYCLES_PER_BIT * terminal.tx_bit_idx + terminal.tx_counter)
    (bounded : terminal.tx_counter < CYCLES_PER_BIT)
    (sampled : ∀ i < 8, terminal.tx_data.getLsbD i =
      (decide (i < terminal.tx_bit_idx) && byte.getLsbD i)) :
    terminal.Prints (SerialLine.level CYCLES_PER_BIT byte (offset + 1)) [byte]
      (.sending byte (offset + 1)) := by
  simp only [CYCLES_PER_BIT, HALF_BIT] at count bounded
  by_cases full : 434 ≤ terminal.tx_counter + 1
  · have bit : SerialLine.level CYCLES_PER_BIT byte (offset + 1) =
        byte.getLsbD terminal.tx_bit_idx :=
      level_data unfinished (by simp only [CYCLES_PER_BIT]; omega)
        (by simp only [CYCLES_PER_BIT]; omega)
    obtain ⟨side, silent⟩ := @bit_ends terminal (byte.getLsbD terminal.tx_bit_idx) state full
    have collected := sampled_bits unfinished sampled
    rw [Prints, bit, side, silent]
    by_cases last : 8 ≤ terminal.tx_bit_idx + 1
    · have whole : terminal.tx_bit_idx = 7 := by omega
      rw [if_pos last]
      refine ⟨[byte], .stop rfl (BitVec.eq_of_getLsbD_eq fun i inside => ?_) ?_
        (by simp only [CYCLES_PER_BIT]; omega), rfl⟩
      · rw [collected i inside, decide_eq_true (by omega), Bool.true_and]
      · simp only [CYCLES_PER_BIT, HALF_BIT]
        omega
    · rw [if_neg last]
      refine ⟨[byte], .data rfl (Nat.lt_of_not_le last) ?_ (Nat.succ_pos 433) collected, rfl⟩
      simp only [CYCLES_PER_BIT, HALF_BIT]
      omega
  · obtain ⟨side, silent⟩ :=
      @counts terminal (SerialLine.level CYCLES_PER_BIT byte (offset + 1)) (.inr state) full
    rw [Prints, side, silent]
    exact ⟨[byte], .data state unfinished (by simp only [CYCLES_PER_BIT, HALF_BIT, txSide]; omega)
      (by simp only [CYCLES_PER_BIT]; omega) sampled, rfl⟩

theorem stop_prints (state : terminal.tx_state = .STOP) (whole : terminal.tx_data = byte)
    (count : offset = HALF_BIT + CYCLES_PER_BIT * 8 + terminal.tx_counter)
    (bounded : terminal.tx_counter < CYCLES_PER_BIT * 2) :
    terminal.Prints (SerialLine.level CYCLES_PER_BIT byte (offset + 1)) [byte]
      (.sending byte (offset + 1)) := by
  simp only [CYCLES_PER_BIT, HALF_BIT] at count bounded
  by_cases full : 434 * 2 ≤ terminal.tx_counter + 1
  · have high : SerialLine.level CYCLES_PER_BIT byte (offset + 1) = true :=
      level_stop (by decide) (by simp only [CYCLES_PER_BIT]; omega)
    obtain ⟨side, shown⟩ :=
      @stop_ends terminal (SerialLine.level CYCLES_PER_BIT byte (offset + 1)) state full
    rw [Prints, side, shown, whole]
    exact ⟨[], .done rfl high (by simp only [CYCLES_PER_BIT, HALF_BIT]; omega), rfl⟩
  · obtain ⟨side, silent⟩ :=
      @stop_counts terminal (SerialLine.level CYCLES_PER_BIT byte (offset + 1)) state full
    rw [Prints, side, silent]
    exact ⟨[byte], .stop state whole (by simp only [CYCLES_PER_BIT, HALF_BIT]; omega)
      (by simp only [CYCLES_PER_BIT]; omega), rfl⟩

end Printing

/-- One cycle of the terminal: the frame that begins on the line is still to be printed, and a byte
    that is printed has been decoded. -/
theorem decodes_next {config : UartConfig} {terminal : UartTerminal} {phase : TxPhase}
    {unprinted : List Byte}
    (rate : config.bitTime = CYCLES_PER_BIT)
    (decodes : Decodes terminal.txSide phase unprinted) (offer : UartIO) :
    terminal.Prints ((phase.next config offer).level config)
      (unprinted ++ (phase.next config offer).starting)
      (phase.next config offer) := by
  have level : ∀ byte offset, TxPhase.level config (.sending byte offset) =
      SerialLine.level CYCLES_PER_BIT byte offset := fun byte offset => by rw [TxPhase.level, rate]
  -- the frame goes on while the terminal reads it
  have goesOn : ∀ {byte offset}, offset + 1 < TX_FRAME_BITS * CYCLES_PER_BIT →
      TxPhase.next config offer (.sending byte offset) = .sending byte (offset + 1) := by
    intro byte offset more
    rw [TxPhase.next, rate, if_pos more]
  cases decodes with
  | @silence wait idle high =>
    have waits :=
      @idle_high terminal _ idle (rfl : TxPhase.level config (.idle config.bitCnt) = true)
    cases wait with
    | zero =>
      cases offered : offer.valid with
      | true =>
        have low : TxPhase.level config (.sending offer.bits 0) = false :=
          (level _ _).trans (level_start (by decide))
        obtain ⟨side, silent⟩ := idle_falls idle high low
        rw [TxPhase.next, if_pos offered, Prints, side, silent]
        exact ⟨[offer.bits], .start rfl rfl rfl rfl
          (by simp only [CYCLES_PER_BIT, HALF_BIT]; omega), rfl⟩
      | false =>
        rw [TxPhase.next, offered, if_neg Bool.false_ne_true, Prints, waits.1, waits.2]
        exact ⟨[], .silence idle rfl, rfl⟩
    | succ wait =>
      obtain ⟨side, silent⟩ :=
        @idle_high terminal _ idle (rfl : TxPhase.level config (.idle wait) = true)
      rw [TxPhase.next, Prints, side, silent]
      exact ⟨[], .silence idle rfl, rfl⟩
  | start state first empty count early =>
    rw [goesOn (by simp only [txSide, CYCLES_PER_BIT, HALF_BIT, TX_FRAME_BITS] at count early ⊢; omega), level]
    exact start_prints state first empty count early
  | data state unfinished count bounded sampled =>
    rw [goesOn (by simp only [txSide, CYCLES_PER_BIT, HALF_BIT, TX_FRAME_BITS] at unfinished count bounded ⊢; omega),
      level]
    exact data_prints state unfinished count bounded sampled
  | stop state whole count bounded =>
    rw [goesOn (by simp only [txSide, CYCLES_PER_BIT, HALF_BIT, TX_FRAME_BITS] at count bounded ⊢; omega), level]
    exact stop_prints state whole count bounded
  | @done byte offset idle high late =>
    simp only [CYCLES_PER_BIT, HALF_BIT] at late
    by_cases more : offset + 1 < TX_FRAME_BITS * config.bitTime
    · have stop : TxPhase.level config (.sending byte (offset + 1)) = true :=
        (level _ _).trans (level_stop (by decide) (by simp only [CYCLES_PER_BIT]; omega))
      obtain ⟨side, silent⟩ := idle_high idle stop
      rw [TxPhase.next, if_pos more, Prints, side, silent]
      exact ⟨[], .done idle rfl (by simp only [CYCLES_PER_BIT, HALF_BIT]; omega), rfl⟩
    · obtain ⟨side, silent⟩ :=
        @idle_high terminal _ idle (rfl : TxPhase.level config (.idle config.bitCnt) = true)
      rw [TxPhase.next, if_neg more, Prints, side, silent]
      exact ⟨[], .silence idle rfl, rfl⟩

/-! ## The receive line -/

/-- The variables of `get_rx_line`. -/
structure RxSide where
  state : TerminalState
  counter : ℕ
  bit_idx : ℕ
  shift : Byte
  line : Bool
deriving DecidableEq, Repr

def rxSide (terminal : UartTerminal) : RxSide :=
  ⟨terminal.rx_state, terminal.rx_counter, terminal.rx_bit_idx, terminal.rx_shift,
  terminal.rx_line_value⟩

/-- What is received does not depend on what is driven. -/
theorem process_tx_rxSide (terminal : UartTerminal) (line : Bool) :
    (terminal.process_tx line).1.rxSide = terminal.rxSide ∧
      (terminal.process_tx line).1.rx_fifo = terminal.rx_fifo := by
  rw [process_tx, receiveTx]
  cases terminal.tx_state with
  | IDLE => simp only; split_ifs <;> exact ⟨rfl, rfl⟩
  | START => simp only; split_ifs <;> exact ⟨rfl, rfl⟩
  | DATA => simp only; split_ifs <;> exact ⟨rfl, rfl⟩
  | STOP => simp only; split_ifs <;> exact ⟨rfl, rfl⟩

/-- The level that the terminal drives: the start bit is one cycle longer than the other bits, and
    so the stop bits are one cycle shorter. -/
def stretched : Sending → Bool
  | .silent => true
  | .frame byte offset => SerialLine.level CYCLES_PER_BIT byte (offset - 1)

/-- The bits of a frame of the terminal. -/
def FRAME_BITS : ℕ := 11

/-- The terminal drives the line. -/
inductive Drives (side : RxSide) : Sending → Prop where
  | silence (idle : side.state = .IDLE) (high : side.line = true) : Drives side .silent
  | start {byte : Byte} (state : side.state = .START) (first : side.bit_idx = 0)
      (holds : side.shift = byte)
    (bounded : side.counter < CYCLES_PER_BIT) (low : side.line = false) :
    Drives side (.frame byte side.counter)
  | data {byte : Byte} {offset : ℕ} (state : side.state = .DATA) (unfinished : side.bit_idx < 8)
    (holds : side.shift = byte)
    (count : offset = CYCLES_PER_BIT * (side.bit_idx + 1) + side.counter)
    (bounded : side.counter < CYCLES_PER_BIT) (level : side.line = stretched (.frame byte offset)) :
    Drives side (.frame byte offset)
  | stop {byte : Byte} {offset : ℕ} (state : side.state = .STOP)
      (count : offset = CYCLES_PER_BIT * 9 + side.counter)
    (bounded : side.counter < CYCLES_PER_BIT * 2)
    (level : side.line = stretched (.frame byte offset)) :
    Drives side (.frame byte offset)

theorem Drives.level {side : RxSide} {sending : Sending} (drives : Drives side sending) :
    side.line = stretched sending := by
  cases drives with
  | silence idle high => exact high
  | start state first holds bounded low => rw [low, stretched, level_start (by omega)]
  | data state unfinished holds count bounded level => exact level
  | stop state count bounded level => exact level

section Driving

variable {terminal : UartTerminal}

theorem drives_silence (idle : terminal.rx_state = .IDLE) (empty : terminal.rx_fifo = []) :
    terminal.get_rx_line.rxSide = { terminal.rxSide with line := true } ∧
      terminal.get_rx_line.rx_fifo = [] := by
  simp [get_rx_line, idle, empty, rxSide]

theorem begins_frame {byte : Byte} {rest : List Byte} (idle : terminal.rx_state = .IDLE)
    (waiting : terminal.rx_fifo = byte :: rest) :
    terminal.get_rx_line.rxSide = ⟨.START, 0, 0, byte, false⟩ ∧
      terminal.get_rx_line.rx_fifo = rest := by
  simp [get_rx_line, idle, waiting, rxSide]

theorem drives_start (state : terminal.rx_state = .START) :
    terminal.get_rx_line.rxSide =
        (if CYCLES_PER_BIT ≤ terminal.rx_counter + 1 then
          { terminal.rxSide with state := .DATA, counter := 0, line := false }
        else { terminal.rxSide with counter := terminal.rx_counter + 1, line := false }) ∧
      terminal.get_rx_line.rx_fifo = terminal.rx_fifo := by
  by_cases full : CYCLES_PER_BIT ≤ terminal.rx_counter + 1
  · simp [get_rx_line, state, full, rxSide]
  · simp [get_rx_line, state, full, rxSide]

theorem drives_data (state : terminal.rx_state = .DATA) :
    terminal.get_rx_line.rxSide =
        (if CYCLES_PER_BIT ≤ terminal.rx_counter + 1 then
          ⟨if 8 ≤ terminal.rx_bit_idx + 1 then .STOP else .DATA, 0,
          terminal.rx_bit_idx + 1, terminal.rx_shift,
            terminal.rx_shift.getLsbD terminal.rx_bit_idx⟩
        else
          { terminal.rxSide with
            counter := terminal.rx_counter + 1, line :=
              terminal.rx_shift.getLsbD terminal.rx_bit_idx }) ∧
      terminal.get_rx_line.rx_fifo = terminal.rx_fifo := by
  by_cases full : CYCLES_PER_BIT ≤ terminal.rx_counter + 1
  · simp [get_rx_line, state, full, rxSide]
  · simp [get_rx_line, state, full, rxSide]

theorem drives_stop (state : terminal.rx_state = .STOP) :
    terminal.get_rx_line.rxSide =
        { terminal.rxSide with
          state := if CYCLES_PER_BIT * 2 ≤ terminal.rx_counter + 1 then .IDLE else .STOP
          counter := terminal.rx_counter + 1
          line := true } ∧
      terminal.get_rx_line.rx_fifo = terminal.rx_fifo := by
  by_cases full : CYCLES_PER_BIT * 2 ≤ terminal.rx_counter + 1
  · simp [get_rx_line, state, full, rxSide]
  · simp [get_rx_line, state, full, rxSide]

variable {byte : Byte} {offset : ℕ}

theorem start_frame (state : terminal.rx_state = .START) (first : terminal.rx_bit_idx = 0)
    (holds : terminal.rx_shift = byte) (bounded : terminal.rx_counter < CYCLES_PER_BIT) :
    Drives terminal.get_rx_line.rxSide (.frame byte (terminal.rx_counter + 1)) := by
  rw [(drives_start state).1]
  by_cases full : CYCLES_PER_BIT ≤ terminal.rx_counter + 1
  · have last : terminal.rx_counter + 1 = CYCLES_PER_BIT := by omega
    rw [if_pos full, last]
    exact .data rfl (by simp [rxSide, first]) holds (by simp [rxSide, first]) (Nat.succ_pos _) rfl
  · rw [if_neg full]
    exact .start state first holds (Nat.lt_of_not_le full) rfl

theorem data_frame (state : terminal.rx_state = .DATA) (unfinished : terminal.rx_bit_idx < 8)
    (holds : terminal.rx_shift = byte)
    (count : offset = CYCLES_PER_BIT * (terminal.rx_bit_idx + 1) + terminal.rx_counter)
    (bounded : terminal.rx_counter < CYCLES_PER_BIT) :
    Drives terminal.get_rx_line.rxSide (.frame byte (offset + 1)) := by
  have shown : terminal.rx_shift.getLsbD terminal.rx_bit_idx =
      stretched (.frame byte (offset + 1)) := by
    rw [stretched, holds]
    simp only [CYCLES_PER_BIT] at count bounded ⊢
    exact (level_data unfinished (by omega) (by omega)).symm
  rw [(drives_data state).1]
  by_cases full : CYCLES_PER_BIT ≤ terminal.rx_counter + 1
  · rw [if_pos full]
    by_cases last : 8 ≤ terminal.rx_bit_idx + 1
    · rw [if_pos last]
      refine .stop rfl ?_ (Nat.succ_pos _) shown
      have eighth : terminal.rx_bit_idx = 7 := by omega
      simp only [CYCLES_PER_BIT, eighth] at count bounded full ⊢
      omega
    · rw [if_neg last]
      refine .data rfl (Nat.lt_of_not_le last) holds ?_ (Nat.succ_pos _) shown
      simp only [CYCLES_PER_BIT] at count bounded full ⊢
      omega
  · rw [if_neg full]
    exact .data state unfinished holds (by simp only [rxSide]; omega) (Nat.lt_of_not_le full) shown

theorem stop_frame (state : terminal.rx_state = .STOP)
    (count : offset = CYCLES_PER_BIT * 9 + terminal.rx_counter)
    (more : ¬ CYCLES_PER_BIT * 2 ≤ terminal.rx_counter + 1) :
    Drives terminal.get_rx_line.rxSide (.frame byte (offset + 1)) := by
  have high : SerialLine.level CYCLES_PER_BIT byte offset = true :=
    level_stop (Nat.succ_pos _) (by omega)
  rw [(drives_stop state).1, if_neg more]
  refine .stop rfl ?_ (Nat.lt_of_not_le more) high.symm
  simp only
  omega

end Driving

/-- One cycle of the terminal: the line consists of frames, and begins one when a byte is
    waiting. -/
theorem drives_next {terminal : UartTerminal} {sending : Sending}
    (drives : Drives terminal.rxSide sending) :
    ∃ next, Drives terminal.get_rx_line.rxSide next ∧
      sending.Follows CYCLES_PER_BIT FRAME_BITS next ∧
      terminal.rx_fifo = next.starting ++ terminal.get_rx_line.rx_fifo ∧
      (sending = .silent → terminal.rx_fifo ≠ [] → next.starting ≠ []) := by
  cases drives with
  | silence idle high =>
    cases waiting : terminal.rx_fifo with
    | nil =>
      obtain ⟨side, fifo⟩ := drives_silence idle waiting
      rw [side, fifo]
      exact ⟨.silent, .silence idle rfl, .inl rfl, rfl, fun _ some => absurd rfl some⟩
    | cons byte rest =>
      obtain ⟨side, fifo⟩ := begins_frame idle waiting
      rw [side, fifo]
      exact ⟨.frame byte 0, .start rfl rfl rfl (Nat.succ_pos _) rfl, .inr ⟨byte, rfl⟩, rfl,
        fun _ _ => List.cons_ne_nil _ _⟩
  | @start byte state first holds bounded low =>
    refine ⟨_, start_frame state first holds bounded, Sending.follows_within ?_,
      (drives_start state).2.symm, fun silent => nomatch silent⟩
    simp only [CYCLES_PER_BIT, FRAME_BITS, rxSide] at bounded ⊢
    omega
  | @data byte offset state unfinished holds count bounded level =>
    refine ⟨_, data_frame state unfinished holds count bounded, Sending.follows_within ?_,
      (drives_data state).2.symm, fun silent => nomatch silent⟩
    simp only [CYCLES_PER_BIT, FRAME_BITS, rxSide] at unfinished count bounded ⊢
    omega
  | @stop byte offset state count bounded level =>
    simp only [rxSide] at count bounded
    -- the terminal waits for two stop bits before it takes the next byte
    by_cases full : CYCLES_PER_BIT * 2 ≤ terminal.rx_counter + 1
    · obtain ⟨side, fifo⟩ := drives_stop state
      rw [side, fifo, if_pos full]
      refine ⟨.silent, .silence rfl rfl, ?_, rfl, fun silent => nomatch silent⟩
      rw [Sending.Follows,
        if_neg (by simp only [CYCLES_PER_BIT, FRAME_BITS] at count full ⊢; omega)]
      exact .inl rfl
    · refine ⟨_, stop_frame state count full, Sending.follows_within ?_, (drives_stop state).2.symm,
        fun silent => nomatch silent⟩
      simp only [CYCLES_PER_BIT, FRAME_BITS] at count full ⊢
      omega

end UartTerminal

/-! ## The receiver on the terminal's line -/

namespace UartConfig

/-- The rate of the terminal. -/
structure SameRate (config : UartConfig) : Prop where
  bit : config.bitTime = UartTerminal.CYCLES_PER_BIT
  /-- A sample that is a cycle early is still inside its bit. -/
  early : UartTerminal.CYCLES_PER_BIT < config.startTime
  late : config.startTime ≤ 2 * UartTerminal.CYCLES_PER_BIT

theorem sameRate {config : UartConfig} (rate : config.bitClocks + 1 = UartTerminal.CYCLES_PER_BIT) :
    config.SameRate := by
  have counted : (config.frequency + config.baudRate / 2) / config.baudRate =
      UartTerminal.CYCLES_PER_BIT := by
    simp only [bitClocks, UartTerminal.CYCLES_PER_BIT] at rate ⊢
    omega
  have positive : 0 < config.baudRate := by
    refine Nat.pos_of_ne_zero fun zero => ?_
    rw [zero, Nat.div_zero] at counted
    cases counted
  -- the division bounds the frequency, and the frequency the start time
  have below := Nat.div_mul_le_self (config.frequency + config.baudRate / 2) config.baudRate
  have above := Nat.lt_div_mul_add positive (a := config.frequency + config.baudRate / 2)
  simp only [counted, UartTerminal.CYCLES_PER_BIT] at below above
  have low : 435 ≤ (3 * config.frequency / 2 + config.baudRate / 2) / config.baudRate :=
    (Nat.le_div_iff_mul_le positive).mpr (by omega)
  have high : (3 * config.frequency / 2 + config.baudRate / 2) / config.baudRate < 868 :=
    (Nat.div_lt_iff_lt_mul positive).mpr (by omega)
  have fits : config.startClocks < 2 ^ 16 := by
    rw [startClocks]
    omega
  have start : config.startTime =
      (3 * config.frequency / 2 + config.baudRate / 2) / config.baudRate := by
    rw [startTime, startCnt, Nat.mod_eq_of_lt fits, startClocks, Nat.sub_add_cancel (by omega)]
  refine ⟨?_, ?_, ?_⟩
  · rw [bitTime, bitCnt, Nat.mod_eq_of_lt
      (by simp only [UartTerminal.CYCLES_PER_BIT] at rate; omega), rate]
  · rw [start, UartTerminal.CYCLES_PER_BIT]
    omega
  · rw [start, UartTerminal.CYCLES_PER_BIT]
    omega

end UartConfig

namespace Rx

open UartTerminal (stretched CYCLES_PER_BIT FRAME_BITS)

/-- The receiver while the synchronised line of the terminal is in a phase; `unheard` is the byte of
    the frame that is still to be delivered. -/
inductive Takes (config : UartConfig) (core : Core) : Sending → List Byte → Prop where
  | silence (waiting : Waiting core) : Takes config core .silent []
  | start {byte : Byte} (waiting : Waiting core) : Takes config core (.frame byte 0) [byte]
  | receiving {byte : Byte} {offset k : ℕ}
    (within : Receiving config (fun offset => stretched (.frame byte offset)) offset k core) :
    Takes config core (.frame byte offset) [byte]
  | received {byte : Byte}
      (complete : Received config (fun offset => stretched (.frame byte offset)) core) :
    Takes config core (.frame byte (config.lastSample + 1)) [byte]
  | done {byte : Byte} {offset : ℕ} (sampled : config.lastSample + 1 < offset)
    (counting : CountingOut config offset core) : Takes config core (.frame byte offset) []

/-- Each bit of the terminal is sampled in its cell. -/
theorem stretched_byte {config : UartConfig} {byte : Byte} {core : Core} (rate : config.SameRate)
    (received : Received config (fun offset => stretched (.frame byte offset)) core) :
    core.shiftReg = byte := by
  refine received_data received fun q data => ?_
  have early := rate.early
  have late := rate.late
  rw [stretched, rate.bit]
  simp only [CYCLES_PER_BIT] at early late ⊢
  exact level_data data (by omega) (by omega)

theorem takes_between {config : UartConfig} {core : Core} {next : Sending} (waiting : Waiting core)
    (between : next.Between) : Takes config core next next.starting := by
  cases between with
  | inl silent =>
    rw [silent]
    exact .silence waiting
  | inr begins =>
    obtain ⟨byte, begins⟩ := begins
    rw [begins]
    exact .start waiting

/-- A byte of which something is still to be heard is not given away before the frame is nearly
    over. -/
theorem Takes.within {config : UartConfig} {core : Core} {sending : Sending} {unheard : List Byte}
    (rate : config.SameRate) (takes : Takes config core sending unheard) (some : unheard ≠ []) :
    ∃ byte offset, sending = .frame byte offset ∧ offset + 1 < FRAME_BITS * CYCLES_PER_BIT := by
  have late := rate.late
  cases takes with
  | silence waiting => exact absurd rfl some
  | @start byte waiting => exact ⟨byte, 0, rfl, by decide⟩
  | @receiving byte offset k within =>
    have inside := receiving_early within
    refine ⟨byte, offset, rfl, ?_⟩
    simp only [UartConfig.lastSample, rate.bit, CYCLES_PER_BIT, FRAME_BITS] at inside late ⊢
    omega
  | @received byte complete =>
    refine ⟨byte, _, rfl, ?_⟩
    simp only [UartConfig.lastSample, rate.bit, CYCLES_PER_BIT, FRAME_BITS] at late ⊢
    omega
  | done sampled counting => exact absurd rfl some

/-- What is given away was still to be heard. -/
theorem Takes.given {config : UartConfig} {core : Core} {sending : Sending}
    (takes : Takes config core sending []) : Loopback.given core = [] := by
  have free : core.valReg = false := by
    cases takes with
    | silence waiting => exact waiting.2.2
    | done sampled counting => exact counting.2.2
  rw [Loopback.given, free, if_neg Bool.false_ne_true]

theorem takes_next {config : UartConfig} {rx : Rx} {sending next : Sending} {unheard : List Byte}
    (rate : config.SameRate) (takes : Takes config rx.core sending unheard)
    (seen : rx.rxReg = stretched sending)
    (rxd : Bool) (follows : sending.Follows CYCLES_PER_BIT FRAME_BITS next) :
    ∃ unheard', Takes config (rx.step config rxd true).core next unheard' ∧
      unheard ++ next.starting = Loopback.given rx.core ++ unheard' := by
  have early := rate.early
  have late := rate.late
  cases takes with
  | silence waiting =>
    have waits := @waiting_step config rx rxd waiting seen
    rw [Loopback.given, waiting.2.2]
    exact ⟨next.starting, takes_between waits follows, rfl⟩
  | @start byte waiting =>
    obtain ⟨expired, idle, free⟩ := waiting
    rw [Sending.Follows, if_pos (by decide)] at follows
    rw [follows, Loopback.given, free]
    exact ⟨[byte], .receiving (receiving_start expired idle seen free), rfl⟩
  | @receiving byte offset k within =>
    have inside := receiving_early within
    rw [Sending.Follows, if_pos ?_] at follows
    · rw [follows, Loopback.given, within.free]
      cases @receiving_next config _ offset k rx rxd true within seen with
      | inl more =>
        obtain ⟨k', goesOn⟩ := more
        exact ⟨[byte], .receiving goesOn, rfl⟩
      | inr complete =>
        obtain ⟨now, received⟩ := complete
        rw [now]
        exact ⟨[byte], .received received, rfl⟩
    · simp only [UartConfig.lastSample, rate.bit, CYCLES_PER_BIT, FRAME_BITS] at inside late ⊢
      omega
  | @received byte complete =>
    rw [Sending.Follows, if_pos ?_] at follows
    · rw [follows, Loopback.given, complete.held, stretched_byte rate complete]
      exact ⟨[], .done (Nat.lt_succ_self _) (received_step complete), rfl⟩
    · simp only [UartConfig.lastSample, rate.bit, CYCLES_PER_BIT, FRAME_BITS] at late ⊢
      omega
  | @done byte offset sampled counting =>
    -- the counter runs out within the stop bits, where the line is high
    have counts := @countingOut_step config rx rxd offset counting fun expired => by
      have count := counting.1
      simp only [core, UartConfig.lastSample, rate.bit, CYCLES_PER_BIT] at count early
      refine seen.trans (level_stop (by decide) ?_)
      simp only [CYCLES_PER_BIT]
      omega
    rw [Loopback.given, counting.2.2]
    rw [Sending.Follows] at follows
    split_ifs at follows with more
    · rw [follows]
      exact ⟨[], .done (by omega) counts, rfl⟩
    · refine ⟨next.starting, takes_between ⟨?_, counts.2⟩ follows, rfl⟩
      rw [counts.1, UartConfig.lastSample, rate.bit]
      simp only [CYCLES_PER_BIT, FRAME_BITS] at more late ⊢
      omega

end Rx

/-! ## The run -/

namespace TerminalLink

open UartTerminal (stretched CYCLES_PER_BIT FRAME_BITS)

/-- Every byte that the transmitter has taken is printed, or its frame is on the line. -/
def Prints (config : UartConfig) (link : TerminalLink) (sent printed : List Byte) : Prop :=
  ∃ phase unprinted, TxPhase.Refines config link.tx phase ∧
    UartTerminal.Decodes link.terminal.txSide phase unprinted ∧
    sent = printed ++ unprinted

/-- The receiver follows the terminal at a distance of two cycles. -/
structure Receives (config : UartConfig) (link : TerminalLink) (now synced seen : Sending)
    (unheard : List Byte) :
    Prop where
  drives : UartTerminal.Drives link.terminal.rxSide now
  earlier : synced.Follows CYCLES_PER_BIT FRAME_BITS now
  earliest : seen.Follows CYCLES_PER_BIT FRAME_BITS synced
  rxSync : link.rx.rxSync = stretched synced
  rxReg : link.rx.rxReg = stretched seen
  takes : Rx.Takes config link.rx.core seen unheard

/-- What has been typed in and is not delivered. -/
def pending (link : TerminalLink) (now synced : Sending) (unheard : List Byte) : List Byte :=
  unheard ++ synced.starting ++ now.starting ++ link.terminal.rx_fifo

section OneCycle

variable {config : UartConfig} {link : TerminalLink}
    {now synced seen : Sending} {unheard : List Byte}

theorem prints_step {sent printed : List Byte} (rate : config.SameRate)
    (prints : Prints config link sent printed)
    (io : Inputs) :
    Prints config (link.step config io) (sent ++ TxPhase.taken link.tx io.channel)
      (printed ++ (link.terminal.process_tx (link.tx.step config io.channel).txd).2) := by
  obtain ⟨phase, unprinted, refines, decodes, rfl⟩ := prints
  have refines' := TxPhase.refines_next refines io.channel
  obtain ⟨unprinted', decodes', moved⟩ := UartTerminal.decodes_next rate.bit decodes io.channel
  rw [← refines'.txd] at decodes' moved
  refine ⟨phase.next config io.channel, unprinted', refines', ?_, ?_⟩
  · rw [step, UartTerminal.get_rx_line_txSide]
    exact decodes'
  · rw [← TxPhase.starting_next refines, List.append_assoc, moved, List.append_assoc]

/-- The terminal takes its turn with what is typed in. -/
theorem drives_step (receives : Receives config link now synced seen unheard) (io : Inputs) :
    ∃ next, UartTerminal.Drives (link.step config io).terminal.rxSide next ∧
      now.Follows CYCLES_PER_BIT FRAME_BITS next ∧
      link.terminal.rx_fifo ++ io.typed = next.starting ++ (link.step config io).terminal.rx_fifo ∧
      (now = .silent → link.terminal.rx_fifo ++ io.typed ≠ [] → next.starting ≠ []) := by
  obtain ⟨side, fifo⟩ := link.terminal.process_tx_rxSide (link.tx.step config io.channel).txd
  have polled :
      ((link.terminal.process_tx
        (link.tx.step config io.channel).txd).1.poll_input io.typed).rx_fifo =
      link.terminal.rx_fifo ++ io.typed := by rw [UartTerminal.poll_input, fifo]
  rw [← polled]
  refine UartTerminal.drives_next ?_
  have drives := receives.drives
  rw [← side] at drives
  exact drives

theorem receives_step (rate : config.SameRate)
    (receives : Receives config link now synced seen unheard)
    (io : Inputs) {next : Sending}
    (drives : UartTerminal.Drives (link.step config io).terminal.rxSide next)
    (follows : now.Follows CYCLES_PER_BIT FRAME_BITS next) :
    ∃ unheard', Receives config (link.step config io) next now synced unheard' ∧
      unheard ++ synced.starting = Loopback.given link.rx.core ++ unheard' := by
  obtain ⟨driven, earlier, earliest, rxSync, rxReg, takes⟩ := receives
  obtain ⟨unheard', takes', moved⟩ :=
    Rx.takes_next rate takes rxReg link.terminal.rx_line_value earliest
  exact ⟨unheard', ⟨drives, follows, earlier, driven.level, rxSync, takes'⟩, moved⟩

/-- The byte that is delivered next has so many cycles to go at most. -/
inductive Due (link : TerminalLink) (now synced seen : Sending) (unheard : List Byte) :
    ℕ → Prop where
  | heard (some : unheard ≠ []) : Due link now synced seen unheard
      (seen.left CYCLES_PER_BIT FRAME_BITS)
  | synced (begins : synced.starting ≠ []) : Due link now synced seen unheard
      (FRAME_BITS * CYCLES_PER_BIT + 2)
  | driven (begins : now.starting ≠ []) : Due link now synced seen unheard
      (FRAME_BITS * CYCLES_PER_BIT + 3)
  | queued (waits : link.terminal.rx_fifo ≠ []) :
    Due link now synced seen unheard
      (FRAME_BITS * CYCLES_PER_BIT + 4 + now.left CYCLES_PER_BIT FRAME_BITS)

theorem due_of_pending (some : pending link now synced unheard ≠ []) :
    ∃ rank, Due link now synced seen unheard rank := by
  by_cases heard : unheard = []
  · by_cases begins : synced.starting = []
    · by_cases driven : now.starting = []
      · refine ⟨_, .queued fun empty => some ?_⟩
        rw [pending, heard, begins, driven, empty]
        rfl
      · exact ⟨_, .driven driven⟩
    · exact ⟨_, .synced begins⟩
  · exact ⟨_, .heard heard⟩

theorem starting_left {sending : Sending} (begins : sending.starting ≠ []) :
    sending.left CYCLES_PER_BIT FRAME_BITS = FRAME_BITS * CYCLES_PER_BIT + 1 := by
  cases sending with
  | silent => exact absurd rfl begins
  | frame byte offset =>
    cases offset with
    | zero => rfl
    | succ offset => exact absurd rfl begins

/-- One cycle: a byte is delivered, or the next one is due earlier. -/
theorem due_next (rate : config.SameRate)
    (receives : Receives config link now synced seen unheard) {rank : ℕ}
    (due : Due link now synced seen unheard rank) (io : Inputs)
    (quiet : Loopback.given link.rx.core = []) :
    ∃ next unheard', Receives config (link.step config io) next now synced unheard' ∧
      ∃ rank' < rank, Due (link.step config io) next now synced unheard' rank' := by
  obtain ⟨next, drives, follows, fifo, begins⟩ := drives_step receives io
  obtain ⟨unheard', receives', moved⟩ := receives_step rate receives io drives follows
  rw [quiet, List.nil_append] at moved
  refine ⟨next, unheard', receives', ?_⟩
  cases due with
  | heard some =>
    obtain ⟨byte, offset, rfl, within⟩ := receives.takes.within rate some
    have earliest := receives.earliest
    rw [Sending.Follows, if_pos within] at earliest
    refine ⟨_, ?_, .heard (by rw [← moved]; exact List.append_ne_nil_of_left_ne_nil some _)⟩
    exact Sending.left_lt receives.earliest Sending.noConfusion (by rw [earliest]; rfl)
  | synced starts =>
    refine ⟨_, ?_, .heard (by rw [← moved]; exact List.append_ne_nil_of_right_ne_nil _ starts)⟩
    rw [starting_left starts]
    exact Nat.lt_succ_self _
  | driven starts => exact ⟨_, Nat.lt_succ_self _, .synced starts⟩
  | queued waits =>
    by_cases starts : next.starting = []
    · have still : (link.step config io).terminal.rx_fifo ≠ [] := by
        rw [starts, List.nil_append] at fifo
        rw [← fifo]
        exact List.append_ne_nil_of_left_ne_nil waits _
      refine ⟨_, Nat.add_lt_add_left ?_ _, .queued still⟩
      refine Sending.left_lt follows (fun silent => ?_) starts
      exact begins silent (List.append_ne_nil_of_left_ne_nil waits _) starts
    · exact ⟨_, by omega, .driven starts⟩

end OneCycle

section Run

variable {config : UartConfig} {inputs : ℕ → Inputs}

theorem prints_always (rate : config.SameRate) (n : ℕ) :
    Prints config (stateAt config inputs n) (sent config inputs n) (printed config inputs n) := by
  induction n with
  | zero => exact ⟨.idle 0, [], TxPhase.refines_reset config, .silence rfl rfl, rfl⟩
  | succ n inductionHypothesis => exact prints_step rate inductionHypothesis (inputs n)

theorem eventually_ready (rate : config.SameRate) (n : ℕ) :
    ∃ m ≥ n, (stateAt config inputs m).tx.ready = true := by
  obtain ⟨phase, _, refines, _⟩ := @prints_always config inputs rate n
  exact @TxPhase.eventually_ready config (fun n => (stateAt config inputs n).tx)
    (fun n => (inputs n).channel)
    (fun _ => rfl) n phase refines

theorem ready_printed (rate : config.SameRate) {n : ℕ}
    (ready : (stateAt config inputs n).tx.ready = true) :
    sent config inputs n = printed config inputs n := by
  -- when the transmitter looks for a byte, the frame before has been printed
  obtain ⟨phase, unprinted, refines, decodes, all⟩ := @prints_always config inputs rate n
  rw [refines.ready.mp ready] at decodes
  cases decodes
  rw [all, List.append_nil]

theorem receives_always (rate : config.SameRate) (n : ℕ) :
    ∃ now synced seen unheard, Receives config (stateAt config inputs n) now synced seen unheard ∧
      typed config inputs n = delivered config inputs n ++ pending
        (stateAt config inputs n) now synced unheard := by
  induction n with
  | zero =>
    exact ⟨.silent, .silent, .silent, [],
      ⟨.silence rfl rfl, .inl rfl, .inl rfl, rfl, rfl, .silence ⟨rfl, rfl, rfl⟩⟩, rfl⟩
  | succ n inductionHypothesis =>
    obtain ⟨now, synced, seen, unheard, receives, all⟩ := inductionHypothesis
    obtain ⟨next, drives, follows, fifo, _⟩ := drives_step receives (inputs n)
    obtain ⟨unheard', receives', moved⟩ := receives_step rate receives (inputs n) drives follows
    refine ⟨next, now, synced, unheard', receives', ?_⟩
    calc typed config inputs (n + 1)
      _ = delivered config inputs n ++ (unheard ++ synced.starting) ++ now.starting ++
          ((stateAt config inputs n).terminal.rx_fifo ++ (inputs n).typed) := by
        rw [typed, Clocked.logAt_succ, ← typed, all, pending]
        simp only [List.append_assoc]
      _ = delivered config inputs (n + 1) ++ pending
          (stateAt config inputs (n + 1)) next now unheard' := by
        rw [moved, fifo, delivered, delivered, Clocked.logAt_succ, pending]
        simp only [List.append_assoc]
        rfl

theorem delivers_isPrefix (rate : config.SameRate) (n : ℕ) :
    delivered config inputs n <+: typed config inputs n := by
  obtain ⟨_, _, _, _, _, all⟩ := @receives_always config inputs rate n
  rw [all]
  exact List.prefix_append _ _

theorem delivers_more (rate : config.SameRate) {n : ℕ}
    (behind : delivered config inputs n ≠ typed config inputs n) :
    ∃ m ≥ n, (delivered config inputs n).length < (delivered config inputs m).length := by
  -- the next byte is due in a number of cycles that is lowered until it is given away
  obtain ⟨now, synced, seen, unheard, receives, all⟩ := @receives_always config inputs rate n
  have some : pending (stateAt config inputs n) now synced unheard ≠ [] := by
    intro none
    rw [none, List.append_nil] at all
    exact behind all.symm
  obtain ⟨rank, due⟩ := @due_of_pending _ now synced seen unheard some
  obtain ⟨m, later, given⟩ := @Clocked.runs_out
    (fun n rank =>
      ∃ now synced seen unheard, Receives config (stateAt config inputs n) now synced seen unheard ∧
        Due (stateAt config inputs n) now synced seen unheard rank)
    (fun m => Loopback.given (stateAt config inputs m).rx.core ≠ [])
    (fun m rank due => by
      obtain ⟨now, synced, seen, unheard, receives, due⟩ := due
      by_cases quiet : Loopback.given (stateAt config inputs m).rx.core = []
      · obtain ⟨next, unheard', receives', rank', less, due'⟩ :=
          due_next rate receives due (inputs m) quiet
        exact .inr ⟨rank', less, next, now, synced, unheard', receives', due'⟩
      · exact .inl quiet) n rank ⟨now, synced, seen, unheard, receives, due⟩
  refine ⟨m + 1, by omega, ?_⟩
  have kept : (delivered config inputs n).length ≤ (delivered config inputs m).length :=
    (Clocked.logAt_isPrefix _ _ _ _ later).length_le
  have longer := List.length_pos_iff.mpr given
  rw [delivered, delivered, Clocked.logAt_succ, List.length_append]
  exact Nat.lt_of_le_of_lt kept (Nat.lt_add_of_pos_right longer)

/-- The terminal and the UART agree on the wire format. -/
theorem agrees (config : UartConfig) (rate : config.bitClocks + 1 = CYCLES_PER_BIT)
    (inputs : ℕ → Inputs) :
    Agrees config inputs := by
  have same := UartConfig.sameRate rate
  refine ⟨fun n => ?_, fun n => ?_, eventually_ready same, delivers_isPrefix same, ?_⟩
  · obtain ⟨_, unprinted, _, _, all⟩ := @prints_always config inputs same n
    rw [all]
    exact List.prefix_append _ _
  · obtain ⟨m, later, ready⟩ := @eventually_ready config inputs same n
    refine ⟨m, later, ?_⟩
    rw [← ready_printed same ready]
    exact Clocked.logAt_isPrefix _ _ _ _ later
  · exact Clocked.catches_all (fun later => Clocked.logAt_isPrefix _ _ _ _ later)
      (delivers_isPrefix same)
      fun n behind => delivers_more same behind

/-- 115200 baud at 50 MHz, with `'A'` both offered and typed in. -/
theorem agrees_at_115200 :
    Agrees ⟨50000000, 115200⟩ (fun n => ⟨⟨true, 0x41#8⟩, if n = 0 then [0x41#8] else []⟩) :=
  agrees ⟨50000000, 115200⟩ (by decide) _

end Run

end TerminalLink

end MyCpu
