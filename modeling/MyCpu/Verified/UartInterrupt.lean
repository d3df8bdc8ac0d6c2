import MyCpu.Verified.UartReceive

/-! # The interrupt of the UART says that a byte waits

As long as software leaves `INTERRUPT` alone, the flag is up exactly while the queue has a byte.
The queue loses a byte only to a read of `RX_DATA`: the slave shows each read it has taken for one
cycle, in which the oldest byte leaves the queue and becomes the answer. -/

namespace MyCpu

open UartConstants

/-! ## Reads through the slave -/

namespace AXI4LiteSlave

variable {w : ℕ} {slave : AXI4LiteSlave w} {io : AXI4LiteMasterChannels w} {device : AXI4LiteDevice}

/-- The address of a read is taken in this cycle. -/
def takesRead (slave : AXI4LiteSlave w) (io : AXI4LiteMasterChannels w) : Bool :=
  io.ARVALID && slave.ARREADY

/-- The data of a read is taken in this cycle. -/
def dataTaken (slave : AXI4LiteSlave w) (io : AXI4LiteMasterChannels w) : Bool :=
  slave.RVALID && io.RREADY

/-- A read is seen before it is answered, and its address is taken before it is seen. -/
structure Answering (slave : AXI4LiteSlave w) : Prop where
  ordered : slave.Ordered
  address : slave.ARREADY = true → slave.state = .readAddr
  unanswered : slave.read = true → slave.RVALID = false

theorem answering_reset (w : ℕ) : (reset w).Answering :=
  ⟨⟨by simp [reset], by simp [reset], by simp [reset]⟩, by simp [reset], by simp [reset]⟩

theorem Answering.step (answering : Answering slave) (answers : device.readValid = slave.read) :
    Answering (slave.step io device) := by
  obtain ⟨ordered, address, unanswered⟩ := answering
  refine ⟨ordered.step answers, ?_, ?_⟩
  · cases state : slave.state <;> rw [state] at address <;>
      simp only [reduceCtorEq, imp_false, Bool.not_eq_true] at address <;>
      simp only [AXI4LiteSlave.step, captureRead, state] <;> split_ifs <;> simp_all
  · have response := ordered.response
    cases state : slave.state <;> rw [state] at response <;>
      simp only [reduceCtorEq, imp_false, Bool.not_eq_true] at response <;>
      simp only [AXI4LiteSlave.step, captureRead, state] <;> split_ifs <;> simp_all

/-- A read is seen in the cycle after its address is taken, and in no other. -/
theorem Answering.read_step (answering : Answering slave)
    (answers : device.readValid = slave.read) :
    (slave.step io device).read = slave.takesRead io ∧
      (slave.takesRead io = true → (slave.step io device).addr = io.ARADDR) := by
  obtain ⟨⟨read, -, -⟩, address, unanswered⟩ := answering
  rw [takesRead]
  cases state : slave.state <;> rw [state] at read address <;>
    simp only [reduceCtorEq, imp_false, Bool.not_eq_true] at read address <;>
    simp only [AXI4LiteSlave.step, captureRead, state] <;> split_ifs <;> simp_all

/-- The device's word is the answer from the next cycle on. -/
theorem Answering.answer_step (answering : Answering slave)
    (answers : device.readValid = slave.read)
    (reads : slave.read = true) :
    (slave.step io device).RVALID = true ∧ (slave.step io device).readData = device.readData := by
  have reading := answering.ordered.read reads
  have unanswered := answering.unanswered reads
  rw [reads] at answers
  simp [AXI4LiteSlave.step, captureRead, reading, unanswered, answers]

/-- The answer stays until it is taken. -/
theorem Answering.waits_step (answering : Answering slave) (answers : device.readValid = slave.read)
    (responds : slave.RVALID = true) (untaken : slave.dataTaken io = false) :
    (slave.step io device).RVALID = true ∧ (slave.step io device).readData = slave.readData := by
  have reading := answering.ordered.response responds
  have seen : slave.read = false := Bool.eq_false_iff.mpr fun reads =>
    Bool.noConfusion ((answering.unanswered reads).symm.trans responds)
  rw [dataTaken, responds, Bool.true_and] at untaken
  rw [seen] at answers
  simp [AXI4LiteSlave.step, captureRead, reading, responds, untaken, answers]

/-- No write is under way. -/
structure OnlyReads (slave : AXI4LiteSlave w) : Prop where
  write : slave.write = false
  state : slave.state = .idle ∨ slave.state = .readAddr ∨ slave.state = .readData

theorem OnlyReads.step (onlyReads : OnlyReads slave) (unoffered : io.AWVALID = false) :
    OnlyReads (slave.step io device) := by
  obtain ⟨unwritten, idle | address | data⟩ := onlyReads
  · constructor <;> simp only [AXI4LiteSlave.step, idle, unoffered] <;> split_ifs <;> simp_all
  · constructor <;> simp only [AXI4LiteSlave.step, address] <;> split_ifs <;> simp_all
  · constructor <;> simp only [AXI4LiteSlave.step, captureRead, data] <;> split_ifs <;> simp_all

end AXI4LiteSlave

namespace Uart

/-! ## One cycle -/

/-- The address of a read of `RX_DATA` is taken in this cycle. -/
def readsRxData (uart : Uart) (io : Inputs) : Bool :=
  uart.slave.takesRead io.channels && io.channels.ARADDR = REG_RX_DATA

/-- `INTERRUPT` is written in this cycle. -/
def writesInterrupt (uart : Uart) : Bool := uart.slave.write && uart.addr = REG_INTERRUPT

/-- The byte that leaves the queue in this cycle. -/
def leaving (uart : Uart) : List Byte :=
  if uart.rxFifo.deq.valid && uart.deqReady then [uart.rxFifo.deq.bits] else []

/-- The byte that the receiver puts into the queue in this cycle. -/
def entering (uart : Uart) : List Byte :=
  if uart.rxChannel.valid && uart.enqReady then [uart.rxChannel.bits] else []

section Cycle

variable {config : UartConfig} {uart : Uart} {io : Inputs}

theorem addr_eq (uart : Uart) : uart.addr = uart.slave.addr := BitVec.and_allOnes

theorem deqReady_step (answering : uart.slave.Answering) :
    (uart.step config io).deqReady = uart.readsRxData io := by
  obtain ⟨read, address⟩ :=
    @AXI4LiteSlave.Answering.read_step _ uart.slave io.channels (uart.device config) answering rfl
  rw [deqReady, addr_eq, readsRxData]
  cases taken : uart.slave.takesRead io.channels with
  | true =>
    have seen : (uart.step config io).slave.read = true := read.trans taken
    have same : (uart.step config io).slave.addr = io.channels.ARADDR := address taken
    rw [seen, same]
  | false =>
    have unseen : (uart.step config io).slave.read = false := read.trans taken
    rw [unseen, Bool.false_and, Bool.false_and]

theorem deq_valid_iff (queue : Queue) : queue.deq.valid = true ↔ queue.count ≠ 0 := by
  rw [Queue.deq, Bool.not_eq_true', ← Bool.not_eq_true, not_iff_not]
  exact queue.count_spec.2.2.1

theorem contents_head (queue : Queue) (nonempty : queue.deq.valid = true) :
    queue.contents.head? = some queue.deq.bits := by
  obtain ⟨length, count⟩ := Nat.exists_eq_succ_of_ne_zero ((deq_valid_iff queue).mp nonempty)
  rw [Queue.contents, count, Queue.segment_succ]
  rfl

theorem contents_empty (queue : Queue) (empty : queue.deq.valid = false) : queue.contents = [] := by
  have none : queue.count = 0 := by
    by_contra some
    exact Bool.noConfusion (empty.symm.trans ((deq_valid_iff queue).mpr some))
  rw [Queue.contents, none]
  rfl

/-- What leaves the queue is its oldest byte, if `RX_DATA` is seen. -/
theorem leaving_eq (uart : Uart) :
    uart.leaving = if uart.deqReady then uart.rxFifo.contents.head?.toList else [] := by
  rw [leaving]
  cases seen : uart.deqReady with
  | true =>
    cases valid : uart.rxFifo.deq.valid with
    | true =>
      rw [contents_head _ valid]
      rfl
    | false =>
      rw [contents_empty _ valid]
      rfl
  | false =>
    rw [Bool.and_false]
    rfl

/-- The flag and the queue change together. -/
theorem interrupt_step (agrees : uart.interrupt = uart.rxFifo.deq.valid)
    (unwritten : uart.writesInterrupt = false) :
    (uart.step config io).interrupt = (uart.step config io).rxFifo.deq.valid := by
  have counted : (uart.step config io).rxFifo.count +
      (uart.rxFifo.deq.valid && uart.deqReady).toNat =
      uart.rxFifo.count + (uart.rxChannel.valid && uart.enqReady).toNat :=
    uart.rxFifo.count_step uart.rxChannel uart.deqReady
  have before := deq_valid_iff uart.rxFifo
  have after := deq_valid_iff (uart.step config io).rxFifo
  have next : (uart.step config io).interrupt = uart.nextInterrupt := rfl
  rw [writesInterrupt] at unwritten
  rw [next, nextInterrupt, if_neg (Bool.eq_false_iff.mp unwritten), Bool.eq_iff_iff, after]
  cases enters : uart.rxChannel.valid && uart.enqReady with
  | true =>
    -- a byte comes in, and at most one leaves
    have leaves := Bool.toNat_le (uart.rxFifo.deq.valid && uart.deqReady)
    rw [enters, Bool.toNat_true] at counted
    have nonempty : (uart.step config io).rxFifo.count ≠ 0 := by
      cases leaving : uart.rxFifo.deq.valid && uart.deqReady with
      | true =>
        rw [leaving, Bool.toNat_true] at counted
        have some := before.mp (Bool.and_eq_true _ _ ▸ leaving).1
        omega
      | false =>
        rw [leaving, Bool.toNat_false] at counted
        omega
    simp [nonempty]
  | false =>
    rw [enters, Bool.toNat_false] at counted
    cases leaving : uart.rxFifo.deq.valid && uart.deqReady with
    | true =>
      rw [leaving, Bool.toNat_true] at counted
      rw [Bool.and_eq_true, deqReady] at leaving
      rw [leaving.2, leaving.1, agrees, leaving.1]
      by_cases last : uart.rxFifo.count = 1
      · simp [last]
        omega
      · simp [last]
        omega
    | false =>
      rw [leaving, Bool.toNat_false, Nat.add_zero, Nat.add_zero] at counted
      have unread : (uart.slave.read && decide (uart.addr = REG_RX_DATA) &&
          uart.rxFifo.deq.valid) = false := by
        rw [Bool.and_comm]
        exact leaving
      rw [unread, agrees, counted]
      simpa using before

end Cycle

/-! ## The run -/

/-- The flag says whether a byte waits, and a read of `RX_DATA` takes the oldest byte and returns
    it. -/
structure InterruptAgrees (config : UartConfig) (inputs : ℕ → Inputs) : Prop where
  flag : ∀ n, (stateAt config inputs n).interrupt = true ↔
    (stateAt config inputs n).rxFifo.contents ≠ []
  queue : ∀ n, (stateAt config inputs n).leaving ++
    (stateAt config inputs (n + 1)).rxFifo.contents =
    (stateAt config inputs n).rxFifo.contents ++ (stateAt config inputs n).entering
  first : (stateAt config inputs 0).leaving = []
  read : ∀ n, (stateAt config inputs (n + 1)).leaving =
    if (stateAt config inputs n).readsRxData (inputs n) then
      (stateAt config inputs (n + 1)).rxFifo.contents.head?.toList
    else []
  returned : ∀ n byte, (stateAt config inputs n).readsRxData (inputs n) = true →
    (stateAt config inputs (n + 1)).leaving = [byte] → ∀ m ≥ n + 2,
    (∀ k, n + 2 ≤ k → k < m → (stateAt config inputs k).slave.dataTaken
      (inputs k).channels = false) →
    (stateAt config inputs m).slave.channels.RVALID = true ∧
      (stateAt config inputs m).slave.channels.RDATA = byte.zeroExtend 32

section Run

variable {config : UartConfig} {inputs : ℕ → Inputs}

theorem answering_always (n : ℕ) : (stateAt config inputs n).slave.Answering := by
  induction n with
  | zero => exact AXI4LiteSlave.answering_reset 8
  | succ n inductionHypothesis => exact inductionHypothesis.step rfl

theorem interrupt_always (unwritten : ∀ n, (stateAt config inputs n).writesInterrupt = false)
    (n : ℕ) :
    (stateAt config inputs n).interrupt = (stateAt config inputs n).rxFifo.deq.valid := by
  induction n with
  | zero => rfl
  | succ n inductionHypothesis => exact interrupt_step inductionHypothesis (unwritten n)

theorem returned_always {n : ℕ} {byte : Byte}
    (reads : (stateAt config inputs n).readsRxData (inputs n) = true)
    (leaves : (stateAt config inputs (n + 1)).leaving = [byte]) {m : ℕ} (later : n + 2 ≤ m)
    (untaken : ∀ k, n + 2 ≤ k → k < m →
      (stateAt config inputs k).slave.dataTaken (inputs k).channels = false) :
    (stateAt config inputs m).slave.RVALID = true ∧
      (stateAt config inputs m).slave.readData = byte.zeroExtend 32 := by
  have first : (stateAt config inputs (n + 2)).slave.RVALID = true ∧
      (stateAt config inputs (n + 2)).slave.readData = byte.zeroExtend 32 := by
    have seen : (stateAt config inputs (n + 1)).deqReady = true :=
      (deqReady_step (answering_always n)).trans reads
    rw [leaving, seen, Bool.and_true] at leaves
    have oldest : (stateAt config inputs (n + 1)).rxFifo.deq.bits = byte := by
      split_ifs at leaves
      exact (List.cons.inj leaves).1
    rw [deqReady, Bool.and_eq_true, decide_eq_true_eq] at seen
    have answer := @AXI4LiteSlave.Answering.answer_step _ _ (inputs (n + 1)).channels
      ((stateAt config inputs (n + 1)).device config) (answering_always (n + 1)) rfl seen.1
    have word : (stateAt config inputs (n + 1)).readData config = byte.zeroExtend 32 := by
      rw [readData, seen.2, oldest]
      rfl
    exact ⟨answer.1, answer.2.trans word⟩
  refine Clocked.kept_until later first fun k after before held => ?_
  obtain ⟨responds, word⟩ := held
  have waits := @AXI4LiteSlave.Answering.waits_step _ _ (inputs k).channels
    ((stateAt config inputs k).device config) (answering_always k) rfl responds
      (untaken k after before)
  exact ⟨waits.1, waits.2.trans word⟩

/-- In every run without a write to `INTERRUPT`. -/
theorem interrupt_agrees (config : UartConfig) (inputs : ℕ → Inputs)
    (unwritten : ∀ n, (stateAt config inputs n).writesInterrupt = false) :
    InterruptAgrees config inputs where
  flag n := by
    rw [interrupt_always unwritten n]
    cases valid : (stateAt config inputs n).rxFifo.deq.valid with
    | true =>
      have oldest := contents_head _ valid
      refine iff_of_true rfl fun none => ?_
      rw [none] at oldest
      cases oldest
    | false => simp [contents_empty _ valid]
  queue n := ((stateAt config inputs n).rxFifo.contents_step (stateAt config inputs n).rxChannel
    (stateAt config inputs n).deqReady).symm
  first := rfl
  read n := by
    rw [leaving_eq]
    congr 2
    exact deqReady_step (answering_always n)
  returned n byte reads leaves m later untaken := returned_always reads leaves later untaken

theorem fullQueue_unwritten (n : ℕ) : (stateAt fastest fullQueue n).writesInterrupt = false := by
  have onlyReads : (stateAt fastest fullQueue n).slave.OnlyReads := by
    induction n with
    | zero => exact ⟨rfl, .inl rfl⟩
    | succ n inductionHypothesis => exact inductionHypothesis.step rfl
  rw [writesInterrupt, onlyReads.write, Bool.false_and]

/-- The flag stays up behind a read that leaves bytes, and goes down behind the read that takes the
    last one. -/
theorem interrupt_agrees_fullQueue :
    (∀ n, (stateAt fastest fullQueue n).writesInterrupt = false) ∧
      InterruptAgrees fastest fullQueue ∧
      (stateAt fastest fullQueue 192).leaving = [0x41#8] ∧
      (stateAt fastest fullQueue 193).interrupt = true ∧
      (stateAt fastest fullQueue 208).leaving = [0x45#8] ∧
      (stateAt fastest fullQueue 209).interrupt = false :=
  ⟨fullQueue_unwritten,
  interrupt_agrees fastest fullQueue fullQueue_unwritten, by decide +kernel, by decide +kernel,
    by decide +kernel, by decide +kernel⟩

end Run

end Uart

end MyCpu
