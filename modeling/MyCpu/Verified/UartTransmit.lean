import MyCpu.Lib.Clocked
import MyCpu.Verified.Transmitter

/-! # Polled transmission loses nothing

Software polls `STATUS` until bit 0 is set and then writes `TX_DATA`.  The polled
bit says that the buffer is empty.  The slave does one access at a time, and only
a write to `TX_DATA` fills the buffer, so it is still empty when the write arrives,
however long that takes. -/

namespace MyCpu

open SerialLine UartConstants

/-! ## Buffer -/

namespace Buffer

/-- The bytes in the buffer. -/
def contents (buffer : Buffer) : List Byte := if buffer.full then [buffer.dataReg] else []

variable {buffer : Buffer} {channel : UartIO} {outReady : Bool}

/-- A byte goes in at an empty buffer, or out at a full one. -/
theorem contents_step (accepts : channel.valid = true → buffer.full = false) :
    buffer.contents ++ (if channel.valid then [channel.bits] else []) =
      (if outReady && buffer.out.valid then [buffer.out.bits] else []) ++
        (buffer.step channel outReady).contents := by
  cases full : buffer.full with
  | false => cases offered : channel.valid <;> simp [contents, step, out, full, offered]
  | true =>
    have silent : channel.valid = false := by
      by_contra offered
      exact Bool.noConfusion (full.symm.trans (accepts (Bool.of_not_eq_false offered)))
    cases outReady <;> simp [contents, step, out, full, silent]

theorem full_step (empty : buffer.full = false) (silent : channel.valid = false) :
    (buffer.step channel outReady).full = false := by
  simp [step, empty, silent]

end Buffer

namespace Uart

variable (config : UartConfig) (inputs : ℕ → Inputs)

/-! ## Runs -/

/-- The UART after `n` cycles. -/
def stateAt (n : ℕ) : Uart := Clocked.stateAt (step config) reset inputs n

/-- The samples on `txd` in the first `n` cycles. -/
def txdLog (n : ℕ) : List Bool :=
  Clocked.logAt (step config) (fun uart _ => [uart.txd]) reset inputs n

/-- `TX_DATA` is written in this cycle. -/
def writesTxData (uart : Uart) : Bool := uart.slave.write && uart.addr = REG_TX_DATA

/-- The low bytes of the words written to `TX_DATA` in the first `n` cycles. -/
def written (n : ℕ) : List Byte :=
  Clocked.logAt (step config)
    (fun uart _ => if uart.writesTxData then [uart.slave.writeData.setWidth 8]
      else []) reset inputs n

/-- A read of `STATUS` returns with bit 0 set in this cycle. -/
def readyReturned (uart : Uart) (io : Inputs) : Bool :=
  uart.slave.RVALID && io.channels.RREADY && uart.addr = REG_STATUS && uart.slave.readData.getLsbD 0

/-- Every write to `TX_DATA` comes after a read of `STATUS` that returned ready, without another
    write to `TX_DATA` in between. -/
def Polls : Prop :=
  ∀ n, (stateAt config inputs n).writesTxData = true →
    ∃ m < n, (stateAt config inputs m).readyReturned (inputs m) = true ∧
      ∀ k, m < k → k < n → (stateAt config inputs k).writesTxData = false

/-- Each byte written is framed on `txd` once, in order. -/
structure TransmitsAll : Prop where
  /-- With the rest of the frame in progress, the line carries the first bytes written, and nothing
      else. -/
  framed : ∀ n, ∃ tail sent, Framed config.bitTime TX_FRAME_BITS
    (txdLog config inputs n ++ tail) sent ∧
    sent <+: written config inputs n
  /-- All bytes written so far are carried by the line after some time. -/
  completes : ∀ n,
    ∃ m ≥ n, ∃ sent, Framed config.bitTime TX_FRAME_BITS (txdLog config inputs m) sent ∧
    written config inputs n <+: sent ∧ sent <+: written config inputs m

end Uart

/-! ## One access at a time -/

namespace AXI4LiteSlave

/-- The strobes and the response of a slave belong to one access. -/
structure Ordered {w : ℕ} (slave : AXI4LiteSlave w) : Prop where
  read : slave.read = true → slave.state = .readData
  write : slave.write = true → slave.state = .writeResp
  response : slave.RVALID = true → slave.state = .readData

variable {w : ℕ} {slave : AXI4LiteSlave w} {io : AXI4LiteMasterChannels w} {device : AXI4LiteDevice}

theorem Ordered.step (ordered : Ordered slave) (answers : device.readValid = slave.read) :
    Ordered (slave.step io device) := by
  obtain ⟨read, write, response⟩ := ordered
  cases state : slave.state <;> rw [state] at read write response <;>
    simp only [reduceCtorEq, imp_false, Bool.not_eq_true] at read write response <;>
    cases reading : slave.read <;> rw [reading] at answers <;> constructor <;>
    simp only [AXI4LiteSlave.step, captureRead, state] <;> split_ifs <;> simp_all

/-- A response is the word captured when the read was seen, and stays until it is taken. -/
theorem response_step (answers : device.readValid = slave.read) (ordered : Ordered slave)
    (responds : (slave.step io device).RVALID = true) :
    slave.state = .readData ∧ (slave.step io device).addr = slave.addr ∧
      (slave.read = true ∧ (slave.step io device).readData = device.readData ∨
        slave.RVALID = true ∧ (slave.step io device).readData = slave.readData) := by
  obtain ⟨read, write, response⟩ := ordered
  cases state : slave.state <;> rw [state] at read write response <;>
    simp only [reduceCtorEq, imp_false, Bool.not_eq_true] at read write response <;>
    cases reading : slave.read <;> rw [reading] at answers <;>
    simp only [AXI4LiteSlave.step, captureRead,
      state] at responds ⊢ <;> split_ifs at responds ⊢ <;> simp_all

end AXI4LiteSlave

namespace Uart

variable {config : UartConfig} {inputs : ℕ → Inputs}

/-- A `STATUS` word on its way to the master is still true. -/
structure Serves (uart : Uart) : Prop where
  ordered : uart.slave.Ordered
  current : uart.slave.RVALID = true → uart.addr = REG_STATUS →
    uart.slave.readData.getLsbD 0 = true →
    uart.tx.buf.full = false

theorem empty_step {uart : Uart} (empty : uart.tx.buf.full = false)
    (unwritten : uart.writesTxData = false)
    (io : Inputs) : (uart.step config io).tx.buf.full = false := by
  -- the buffer stays empty until `TX_DATA` is written
  refine Buffer.full_step empty ?_
  rw [writesTxData] at unwritten
  rw [txChannel, unwritten, Bool.false_and, if_neg Bool.false_ne_true]

theorem unwritten_reading {uart : Uart} (serves : Serves uart)
    (reading : uart.slave.state = .readData) :
    uart.writesTxData = false := by
  by_contra writes
  rw [Bool.not_eq_false, writesTxData, Bool.and_eq_true] at writes
  exact absurd (reading.symm.trans (serves.ordered.write writes.1)) (by decide)

theorem serves_step (uart : Uart) (io : Inputs) (serves : Serves uart) :
    Serves (uart.step config io) := by
  refine ⟨serves.ordered.step rfl, fun responds status ready => ?_⟩
  obtain ⟨reading, same, captured | waiting⟩ :=
    AXI4LiteSlave.response_step rfl serves.ordered responds
  · -- the word was captured in this cycle
    obtain ⟨_, word⟩ := captured
    have addressed : uart.addr = REG_STATUS := (congrArg (· &&& 0xff#8) same).symm.trans status
    have bit : (uart.readData config).getLsbD 0 = true := by
      have captured : (uart.step config io).slave.readData = uart.readData config := word
      rw [← captured]
      exact ready
    refine empty_step ?_ (unwritten_reading serves reading) io
    rw [readData, if_pos addressed, BitVec.getLsbD_append, if_pos Nat.zero_lt_one,
      BitVec.getLsbD_ofBool] at bit
    simpa [BufferedTx.ready, Buffer.inReady] using bit
  · obtain ⟨valid, word⟩ := waiting
    have addressed : uart.addr = REG_STATUS := (congrArg (· &&& 0xff#8) same).symm.trans status
    have unchanged : (uart.step config io).slave.readData = uart.slave.readData := word
    rw [unchanged] at ready
    exact empty_step (serves.current valid addressed ready) (unwritten_reading serves reading) io

theorem serves_reachable (n : ℕ) : Serves (stateAt config inputs n) :=
  Clocked.invariant_always ⟨⟨by decide, by decide, by decide⟩, by decide⟩ serves_step n

theorem polled_empty {m n : ℕ} (before : m < n)
    (returned : (stateAt config inputs m).readyReturned (inputs m) = true)
    (unwritten : ∀ k, m < k → k < n → (stateAt config inputs k).writesTxData = false) :
    (stateAt config inputs n).tx.buf.full = false := by
  induction n with
  | zero => exact absurd before (Nat.not_lt_zero m)
  | succ n inductionHypothesis =>
    have serves : Serves (stateAt config inputs n) := serves_reachable n
    by_cases now : m = n
    · subst now
      simp only [readyReturned, Bool.and_eq_true, decide_eq_true_eq] at returned
      obtain ⟨⟨⟨valid, _⟩, status⟩, ready⟩ := returned
      exact empty_step (serves.current valid status ready)
        (unwritten_reading serves (serves.ordered.response valid)) _
    · have empty := inductionHypothesis (by omega) fun k after bound => unwritten k after (by omega)
      exact empty_step empty (unwritten n (by omega) (Nat.lt_succ_self n)) _

theorem write_accepted (polls : Polls config inputs) (n : ℕ)
    (writes : (stateAt config inputs n).writesTxData = true) :
    (stateAt config inputs n).tx.buf.full = false := by
  -- a polled write finds the buffer empty
  obtain ⟨m, before, returned, unwritten⟩ := polls n writes
  exact polled_empty before returned unwritten

/-! ## From the buffer to the line -/

/-- The bytes that the transmitter has taken from the buffer in the first `n` cycles. -/
def started (config : UartConfig) (inputs : ℕ → Inputs) (n : ℕ) : List Byte :=
  Clocked.logAt (step config)
    (fun uart _ => TxPhase.taken uart.tx.tx uart.tx.buf.out) reset inputs n

theorem written_succ (n : ℕ) :
    written config inputs (n + 1) = written config inputs n ++
      if (stateAt config inputs n).writesTxData then
        [(stateAt config inputs n).slave.writeData.setWidth 8] else [] :=
  rfl

theorem started_succ (n : ℕ) :
    started config inputs (n + 1) = started config inputs n ++
      TxPhase.taken (stateAt config inputs n).tx.tx (stateAt config inputs n).tx.buf.out := rfl

theorem txdLog_succ (n : ℕ) :
    txdLog config inputs (n + 1) =
      txdLog config inputs n ++ [(stateAt config inputs n).tx.tx.txd] := rfl

theorem contents_next {uart : Uart}
    (accepts : uart.writesTxData = true → uart.tx.buf.full = false) (io : Inputs) :
    uart.tx.buf.contents ++ (if uart.writesTxData then [uart.slave.writeData.setWidth 8] else []) =
      TxPhase.taken uart.tx.tx uart.tx.buf.out ++ (uart.step config io).tx.buf.contents := by
  have channel : uart.txChannel =
      if uart.writesTxData then ⟨true, uart.slave.writeData.setWidth 8⟩ else ⟨false, 0#8⟩ := by
    rw [txChannel, ← writesTxData]
    cases writes : uart.writesTxData with
    | false => rfl
    | true => simp [BufferedTx.ready, Buffer.inReady, accepts writes]
  have valid : uart.txChannel.valid = uart.writesTxData := by
    rw [channel]
    cases uart.writesTxData <;> rfl
  have moved := @Buffer.contents_step uart.tx.buf uart.txChannel uart.tx.tx.ready
    fun offered => accepts (valid.symm.trans offered)
  refine Eq.trans ?_ moved
  rw [channel]
  cases uart.writesTxData <;> rfl

/-- Every byte written is taken by the transmitter or in the buffer. -/
theorem written_eq (polls : Polls config inputs) (n : ℕ) :
    written config inputs n = started config inputs n ++
      (stateAt config inputs n).tx.buf.contents := by
  induction n with
  | zero => rfl
  | succ n inductionHypothesis =>
    rw [written_succ, inductionHypothesis, started_succ, List.append_assoc, List.append_assoc,
      contents_next (write_accepted polls n) (inputs n)]
    rfl

theorem line_carries (n : ℕ) :
    ∃ phase : TxPhase, phase.Refines config (stateAt config inputs n).tx.tx ∧
      phase.Carries config (txdLog config inputs n) (started config inputs n) := by
  -- the line carries the bytes that the transmitter has taken
  induction n with
  | zero => exact ⟨.idle 0, TxPhase.refines_reset config, .nil⟩
  | succ n inductionHypothesis =>
    obtain ⟨phase, refines, carries⟩ := inductionHypothesis
    refine ⟨_, TxPhase.refines_next refines (stateAt config inputs n).tx.buf.out, ?_⟩
    rw [txdLog_succ, started_succ]
    exact TxPhase.carries_next refines carries _

/-! ## Every byte gets its turn -/

theorem eventually_ready (n : ℕ) : ∃ m ≥ n, (stateAt config inputs m).tx.tx.ready = true := by
  obtain ⟨phase, refines, -⟩ := @line_carries config inputs n
  exact @TxPhase.eventually_ready config (fun n => (stateAt config inputs n).tx.tx)
    (fun n => (stateAt config inputs n).tx.buf.out) (fun _ => rfl) n phase refines

theorem ready_framed {n : ℕ} (ready : (stateAt config inputs n).tx.tx.ready = true) :
    Framed config.bitTime TX_FRAME_BITS (txdLog config inputs n) (started config inputs n) := by
  -- a ready transmitter has finished the frame of every byte it has taken
  obtain ⟨phase, refines, carries⟩ := @line_carries config inputs n
  rw [refines.ready.mp ready] at carries
  exact carries

theorem started_isPrefix {n m : ℕ} (earlier : n ≤ m) :
    started config inputs n <+: started config inputs m :=
  Clocked.logAt_isPrefix _ _ _ _ earlier

theorem ready_takes {n : ℕ} (ready : (stateAt config inputs n).tx.tx.ready = true) :
    started config inputs (n + 1) =
      started config inputs n ++ (stateAt config inputs n).tx.buf.contents := by
  rw [started_succ, TxPhase.taken, ready, Bool.true_and]
  rfl

/-- Polled transmission is lossless. -/
theorem transmits_all (config : UartConfig) (inputs : ℕ → Inputs) (polls : Polls config inputs) :
    TransmitsAll config inputs where
  framed := by
    intro n
    obtain ⟨phase, _, carries⟩ := @line_carries config inputs n
    obtain ⟨tail, framed⟩ := carries.completed
    exact ⟨tail, started config inputs n,
      framed, by rw [written_eq polls]; exact List.prefix_append _ _⟩
  completes := by
    intro n
    -- the transmitter looks for a byte, takes the one in the buffer, and looks again
    obtain ⟨k, first, readyFirst⟩ := @eventually_ready config inputs n
    obtain ⟨m, second, readySecond⟩ := @eventually_ready config inputs (k + 1)
    refine ⟨m, by omega, started config inputs m, ready_framed readySecond, ?_, ?_⟩
    · have upTo : written config inputs n <+: written config inputs k :=
        Clocked.logAt_isPrefix _ _ _ _ first
      rw [written_eq polls k, ← ready_takes readyFirst] at upTo
      exact upTo.trans (started_isPrefix second)
    · rw [written_eq polls m]
      exact List.prefix_append _ _

/-! ### Polled bytes -/

/-- `STATUS` is read six times; behind each read that returns ready a byte is written to
    `TX_DATA`. -/
def polledWrites (n : ℕ) : Inputs where
  channels :=
    { ARVALID := n < 60 && n % 10 < 2
      ARADDR := REG_STATUS
      RREADY := true
      AWVALID := n / 10 ∈ [0, 1, 5] && (n % 10 = 4 || n % 10 = 5)
      AWADDR := REG_TX_DATA
      WVALID := n % 10 = 6
      WDATA := .ofNat 32 (0x41 + n / 10)
      WSTRB := 1#4
      BREADY := true }
  rxd := true

/-- Three clock cycles per bit. -/
def fastest : UartConfig := ⟨3, 1⟩

/-- After sixty cycles the slave has nothing to do any more. -/
theorem polledWrites_quiet (n : ℕ) (later : 60 ≤ n) :
    (stateAt fastest polledWrites n).slave.state = .idle ∧
      (stateAt fastest polledWrites n).slave.write = false := by
  induction later with
  | refl => decide +kernel
  | @step n later inductionHypothesis =>
    obtain ⟨idle, silent⟩ := inductionHypothesis
    have bound : 60 ≤ n := later
    have quiet : (polledWrites n).channels.ARVALID = false ∧
        (polledWrites n).channels.AWVALID = false := by
      have reads : ¬ n < 60 := by omega
      have writes : n / 10 ∉ [0, 1, 5] := by
        simp only [List.mem_cons, List.not_mem_nil, or_false]
        omega
      simp [polledWrites, reads, writes]
    change ((stateAt fastest polledWrites n).slave.step _ _).state = _ ∧
      ((stateAt fastest polledWrites n).slave.step _ _).write = _
    simp [AXI4LiteSlave.step, idle, quiet]

theorem polledWrites_polls : Polls fastest polledWrites := by
  intro n writes
  have early : ∀ k < 60, (stateAt fastest polledWrites k).writesTxData =
      decide (k = 7 ∨ k = 17 ∨ k = 57) := by
    decide +kernel
  by_cases before : n < 60
  · -- four cycles before each of the three writes a read returns
    have write : n = 7 ∨ n = 17 ∨ n = 57 := by
      rw [early n before] at writes
      exact of_decide_eq_true writes
    have polled : (stateAt fastest polledWrites (n - 4)).readyReturned
        (polledWrites (n - 4)) = true := by
      obtain rfl | rfl | rfl := write <;> decide +kernel
    exact ⟨n - 4, by omega, polled, fun k after bound => by
      rw [early k (by omega)]
      exact decide_eq_false (by omega)⟩
  · have silent := (polledWrites_quiet n (by omega)).2
    rw [writesTxData, silent] at writes
    exact Bool.noConfusion writes

/-- Between the second byte and the third one the reads return 0: the second byte waits in the
    buffer. -/
theorem polledWrites_transmitted :
    TransmitsAll fastest polledWrites ∧ written fastest polledWrites 60 = [0x41#8, 0x42#8, 0x46#8] ∧
      ∀ n ∈ [23, 33, 43], (stateAt fastest polledWrites n).slave.RVALID = true ∧
        (stateAt fastest polledWrites n).slave.readData = 0#32 :=
  ⟨transmits_all fastest polledWrites polledWrites_polls, by decide +kernel, by decide +kernel⟩

end Uart

end MyCpu
