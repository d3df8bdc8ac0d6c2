import MyCpu.Bus.Axi4Lite
import MyCpu.Lib.Clocked
import Mathlib.Data.Bool.Basic
import Mathlib.Order.Basic

/-! # The bus master keeps the protocol

`AXI4LiteMaster` under any requests and against any slave that answers only what it has accepted,
and keeps nothing waiting for ever.  Both conditions on the slave, and the invariant of the master,
are stated on the numbers of handshakes that the five channels have had: on each side of the link
they can differ by one at most. -/

namespace MyCpu

namespace AXI4LiteMaster

variable {w : ℕ}

/-! ## Handshakes -/

structure Inputs (w : ℕ) where
  bundle : AXI4LiteRequest w
  slave : AXI4LiteSlaveChannels
deriving DecidableEq, Repr

section Cycle

variable (master : AXI4LiteMaster w) (io : Inputs w)

def stepOn : AXI4LiteMaster w := master.step io.bundle io.slave

def arTaken : Bool := master.channels.ARVALID && io.slave.ARREADY
def rTaken : Bool := io.slave.RVALID && master.channels.RREADY
def awTaken : Bool := master.channels.AWVALID && io.slave.AWREADY
def wTaken : Bool := master.channels.WVALID && io.slave.WREADY
def bTaken : Bool := io.slave.BVALID && master.channels.BREADY

/-- A request that the master takes in `Idle`. -/
def acceptsRead : Bool := !master.busy && io.bundle.read && !io.bundle.write
def acceptsWrite : Bool := !master.busy && io.bundle.write

end Cycle

/-- The numbers of requests taken and of handshakes on the five channels. -/
structure Counts where
  requests : ℕ
  ar : ℕ
  r : ℕ
  aw : ℕ
  w : ℕ
  b : ℕ
deriving DecidableEq, Repr

def Counts.after (counts : Counts) (master : AXI4LiteMaster w) (io : Inputs w) : Counts where
  requests := counts.requests + (master.acceptsRead io || master.acceptsWrite io).toNat
  ar := counts.ar + (master.arTaken io).toNat
  r := counts.r + (master.rTaken io).toNat
  aw := counts.aw + (master.awTaken io).toNat
  w := counts.w + (master.wTaken io).toNat
  b := counts.b + (master.bTaken io).toNat

/-! ## The invariant -/

/-- The slave answers an address that it has taken, in this cycle at the latest. -/
structure Answers (master : AXI4LiteMaster w) (counts : Counts) (io : Inputs w) : Prop where
  read : io.slave.RVALID = true → counts.r < (counts.after master io).ar
  write : io.slave.BVALID = true →
    counts.b < (counts.after master io).aw ∧ counts.b < (counts.after master io).w

/-- The flags belong to the state, and each channel is behind the response, or ahead of it, by what
    they say. -/
structure InStep (master : AXI4LiteMaster w) (counts : Counts) : Prop where
  used : master.state ≠ .readAddr ∧ master.state ≠ .writeAddr
  reading : master.RREADY = decide (master.state = .readData)
  writing : master.WVALID = decide (master.state = .writeData)
  answering : master.BREADY = decide (master.state = .writeResp)
  readAddress : master.ARVALID = true → master.state = .readData
  writeAddress : master.AWVALID = true → master.state = .writeData ∨ master.state = .writeResp
  readPulse : master.readValid = true → master.state = .idle
  writePulse : master.writeValid = true → master.state = .idle
  outstanding : counts.requests = counts.r + counts.b + master.busy.toNat
  ar : counts.ar + master.ARVALID.toNat = counts.r + (decide (master.state = .readData)).toNat
  aw : counts.aw + master.AWVALID.toNat =
    counts.b + (decide (master.state = .writeData) || decide (master.state = .writeResp)).toNat
  w : counts.w = counts.b + (decide (master.state = .writeResp)).toNat

theorem inStep_reset (w : ℕ) : (reset w).InStep ⟨0, 0, 0, 0, 0, 0⟩ := by
  constructor <;> simp [reset, busy]

section Step

variable {master : AXI4LiteMaster w} {counts : Counts} {io : Inputs w}

theorem InStep.noReadAddress (inStep : master.InStep counts) (other : master.state ≠ .readData) :
    master.ARVALID = false := Bool.eq_false_iff.mpr fun high => other (inStep.readAddress high)

theorem InStep.noWriteAddress (inStep : master.InStep counts) (other : master.state ≠ .writeData)
    (other' : master.state ≠ .writeResp) : master.AWVALID = false :=
  Bool.eq_false_iff.mpr fun high => (inStep.writeAddress high).elim other other'

theorem InStep.noPulse (inStep : master.InStep counts) (busy : master.state ≠ .idle) :
    master.readValid = false ∧ master.writeValid = false :=
  ⟨Bool.eq_false_iff.mpr fun high => busy (inStep.readPulse high),
    Bool.eq_false_iff.mpr fun high => busy (inStep.writePulse high)⟩

theorem InStep.idle_step (inStep : master.InStep counts) (idle : master.state = .idle) :
    (master.stepOn io).InStep (counts.after master io) := by
  have arvalid := inStep.noReadAddress (by simp [idle])
  have awvalid := inStep.noWriteAddress (by simp [idle]) (by simp [idle])
  obtain ⟨-, rready, wvalid, bready, -, -, -, -, requests, ar, aw, wCount⟩ := inStep
  simp [idle, arvalid, awvalid, busy] at rready wvalid bready requests ar aw wCount
  simp only [Counts.after, acceptsRead, acceptsWrite, arTaken, rTaken, awTaken, wTaken,
    bTaken, channels, busy, arvalid, awvalid, wvalid, bready, rready, stepOn, step, idle]
  cases read : io.bundle.read <;> cases write : io.bundle.write
  all_goals constructor <;> simp [requests, ar, aw, wCount, busy]

theorem InStep.readData_step (inStep : master.InStep counts) (answers : master.Answers counts io)
    (reading : master.state = .readData) : (master.stepOn io).InStep (counts.after master io) := by
  have awvalid := inStep.noWriteAddress (by simp [reading]) (by simp [reading])
  obtain ⟨noRead, noWrite⟩ := inStep.noPulse (by simp [reading])
  obtain ⟨-, rready, wvalid, bready, -, -, -, -, requests, ar, aw, wCount⟩ := inStep
  have ordered := answers.read
  simp [reading, awvalid, busy] at rready wvalid bready requests ar aw wCount
  simp only [Counts.after, acceptsRead, acceptsWrite, arTaken, rTaken, awTaken, wTaken,
    bTaken, channels, busy, awvalid, wvalid, bready, rready, stepOn, step, reading] at ordered ⊢
  cases rvalid : io.slave.RVALID <;> cases arvalid :
    master.ARVALID <;> cases arready : io.slave.ARREADY
  all_goals
    simp [rvalid, arvalid, arready] at ar ordered ⊢
    try omega
  all_goals
    constructor
    all_goals
      simp [noRead, noWrite, requests, aw, wCount, busy]
      try omega

theorem InStep.writeData_step (inStep : master.InStep counts)
    (sending : master.state = .writeData) :
    (master.stepOn io).InStep (counts.after master io) := by
  have arvalid := inStep.noReadAddress (by simp [sending])
  obtain ⟨noRead, noWrite⟩ := inStep.noPulse (by simp [sending])
  obtain ⟨-, rready, wvalid, bready, -, -, -, -, requests, ar, aw, wCount⟩ := inStep
  simp [sending, arvalid, busy] at rready wvalid bready requests ar aw wCount
  simp only [Counts.after, acceptsRead, acceptsWrite, arTaken, rTaken, awTaken, wTaken,
    bTaken, channels, busy, arvalid, wvalid, bready, rready, stepOn, step, sending]
  cases wready : io.slave.WREADY <;> cases awvalid :
    master.AWVALID <;> cases awready : io.slave.AWREADY
  all_goals
    simp [awvalid] at aw ⊢
    constructor
    all_goals
      simp [noRead, noWrite, requests, ar, wCount, busy]
      try omega

theorem InStep.writeResp_step (inStep : master.InStep counts) (answers : master.Answers counts io)
    (answering : master.state = .writeResp) :
    (master.stepOn io).InStep (counts.after master io) := by
  have arvalid := inStep.noReadAddress (by simp [answering])
  obtain ⟨noRead, noWrite⟩ := inStep.noPulse (by simp [answering])
  obtain ⟨-, rready, wvalid, bready, -, -, -, -, requests, ar, aw, wCount⟩ := inStep
  have ordered := answers.write
  simp [answering, arvalid, busy] at rready wvalid bready requests ar aw wCount
  simp only [Counts.after, acceptsRead, acceptsWrite, arTaken, rTaken, awTaken, wTaken,
    bTaken, channels, busy, arvalid, wvalid, bready, rready, stepOn, step, answering] at ordered ⊢
  cases bvalid : io.slave.BVALID <;> cases awvalid :
    master.AWVALID <;> cases awready : io.slave.AWREADY
  all_goals
    simp [bvalid, awvalid, awready] at aw ordered ⊢
    try omega
  all_goals
    constructor
    all_goals
      simp [noRead, noWrite, requests, ar, wCount, busy]
      try omega

theorem inStep_stepOn (inStep : master.InStep counts) (answers : master.Answers counts io) :
    (master.stepOn io).InStep (counts.after master io) := by
  cases state : master.state with
  | readAddr => exact absurd state inStep.used.1
  | writeAddr => exact absurd state inStep.used.2
  | idle => exact inStep.idle_step state
  | readData => exact inStep.readData_step answers state
  | writeData => exact inStep.writeData_step state
  | writeResp => exact inStep.writeResp_step answers state

/-! ## One cycle -/

/-- A raised address or data channel waits for its ready. -/
structure Held (master : AXI4LiteMaster w) (io : Inputs w) : Prop where
  ar : master.channels.ARVALID = true → io.slave.ARREADY = false →
    (master.stepOn io).channels.ARVALID = true ∧ (master.stepOn io).channels.ARADDR =
      master.channels.ARADDR
  aw : master.channels.AWVALID = true → io.slave.AWREADY = false →
    (master.stepOn io).channels.AWVALID = true ∧ (master.stepOn io).channels.AWADDR =
      master.channels.AWADDR
  w : master.channels.WVALID = true → io.slave.WREADY = false →
    (master.stepOn io).channels.WVALID = true ∧ (master.stepOn io).channels.WDATA =
      master.channels.WDATA ∧
      (master.stepOn io).channels.WSTRB = master.channels.WSTRB

theorem InStep.held (inStep : master.InStep counts) : master.Held io := by
  refine ⟨fun valid waits => ?_, fun valid waits => ?_, fun valid waits => ?_⟩
  · have high : master.ARVALID = true := valid
    simp only [stepOn, step, channels, inStep.readAddress valid]
    split_ifs <;> simp [high, waits]
  · have high : master.AWVALID = true := valid
    cases inStep.writeAddress valid with
    | inl sending =>
      simp only [stepOn, step, channels, sending]
      split_ifs <;> simp [high, waits]
    | inr answering =>
      simp only [stepOn, step, channels, answering]
      split_ifs <;> simp [high, waits]
  · have high : master.WVALID = true := valid
    have sending : master.state = .writeData := of_decide_eq_true (inStep.writing ▸ high)
    simp [stepOn, step, channels, sending, high, waits]

/-- The bundle reports a response in the cycle after it, and no other. -/
structure Pulses (master : AXI4LiteMaster w) (io : Inputs w) : Prop where
  read : (master.stepOn io).readValid = master.rTaken io
  data : master.rTaken io = true → (master.stepOn io).readData = io.slave.RDATA
  write : (master.stepOn io).writeValid = master.bTaken io

theorem InStep.pulses (inStep : master.InStep counts) : master.Pulses io := by
  have noPulse := inStep.noPulse
  have rready := inStep.reading
  have bready := inStep.answering
  cases state : master.state
  case readAddr => exact absurd state inStep.used.1
  case writeAddr => exact absurd state inStep.used.2
  all_goals
    simp [state] at rready bready noPulse
    constructor
    all_goals
      simp only [stepOn, step, state, rTaken, bTaken, channels, rready, bready]
      split_ifs <;> simp_all

end Step

/-! ## Transactions -/

section Transactions

variable (inputs : ℕ → Inputs w)

/-- The master after `n` clock edges. -/
def stateAt (n : ℕ) : AXI4LiteMaster w := Clocked.stateAt stepOn (reset w) inputs n

def countsAt (n : ℕ) : Counts :=
  Clocked.observedAt stepOn Counts.after (reset w) ⟨0, 0, 0, 0, 0, 0⟩ inputs n

/-- The slave answers only what it has taken, and every channel after a finite delay. -/
structure Compliant : Prop where
  answers : ∀ n, (stateAt inputs n).Answers (countsAt inputs n) (inputs n)
  ar : ∀ n, (stateAt inputs n).channels.ARVALID = true → ∃ m ≥ n, (inputs m).slave.ARREADY = true
  r : ∀ n, (countsAt inputs n).r < (countsAt inputs n).ar → ∃ m ≥ n, (inputs m).slave.RVALID = true
  aw : ∀ n, (stateAt inputs n).channels.AWVALID = true → ∃ m ≥ n, (inputs m).slave.AWREADY = true
  w : ∀ n, (stateAt inputs n).channels.WVALID = true → ∃ m ≥ n, (inputs m).slave.WREADY = true
  b : ∀ n, (countsAt inputs n).b < (countsAt inputs n).aw → (countsAt inputs n).b <
    (countsAt inputs n).w →
    ∃ m ≥ n, (inputs m).slave.BVALID = true

/-- The read taken in cycle `n` gets its data in cycle `m`, with one handshake on each read
    channel. -/
structure ReadTransaction (n m : ℕ) : Prop where
  later : n < m
  busy : ∀ k, n < k → k ≤ m → (stateAt inputs k).busy = true
  address : ∀ k, n < k → k ≤ m → (stateAt inputs k).channels.ARADDR = (inputs n).bundle.address
  answered : (stateAt inputs m).rTaken (inputs m) = true
  counts : countsAt inputs (m + 1) =
    { countsAt inputs n with
      requests := (countsAt inputs n).requests + 1
      ar := (countsAt inputs n).ar + 1
      r := (countsAt inputs n).r + 1 }

/-- The write taken in cycle `n` gets its response in cycle `m`, with one handshake on each write
    channel. -/
structure WriteTransaction (n m : ℕ) : Prop where
  later : n < m
  busy : ∀ k, n < k → k ≤ m → (stateAt inputs k).busy = true
  address : ∀ k, n < k → k ≤ m → (stateAt inputs k).channels.AWADDR = (inputs n).bundle.address
  data : ∀ k, n < k → k ≤ m → (stateAt inputs k).channels.WDATA = (inputs n).bundle.writeData
  strobe : ∀ k, n < k → k ≤ m → (stateAt inputs k).channels.WSTRB = (inputs n).bundle.writeStrobe
  answered : (stateAt inputs m).bTaken (inputs m) = true
  counts : countsAt inputs (m + 1) =
    { countsAt inputs n with
      requests := (countsAt inputs n).requests + 1
      aw := (countsAt inputs n).aw + 1
      w := (countsAt inputs n).w + 1
      b := (countsAt inputs n).b + 1 }

variable {inputs}

theorem stateAt_succ (n : ℕ) : stateAt inputs (n + 1) = (stateAt inputs n).stepOn (inputs n) := rfl

theorem countsAt_succ (n : ℕ) : countsAt inputs (n + 1) =
    (countsAt inputs n).after (stateAt inputs n) (inputs n) := rfl

theorem inStep_always (compliant : Compliant inputs) (n : ℕ) :
    (stateAt inputs n).InStep (countsAt inputs n) := by
  induction n with
  | zero => exact inStep_reset w
  | succ n inductionHypothesis => exact inStep_stepOn inductionHypothesis (compliant.answers n)

/-! ### Reads -/

/-- What the master keeps until the data comes. -/
structure Reading (master : AXI4LiteMaster w) (address : BitVec w) : Prop where
  state : master.state = .readData
  addr : master.addr = address

theorem reading_accepted {n : ℕ} (accepts : (stateAt inputs n).acceptsRead (inputs n) = true) :
    (stateAt inputs (n + 1)).Reading (inputs n).bundle.address := by
  simp only [acceptsRead, busy, Bool.and_eq_true, Bool.not_eq_true',
    decide_eq_false_iff_not, not_not] at accepts
  obtain ⟨⟨idle, read⟩, write⟩ := accepts
  constructor <;> simp [stateAt_succ, stepOn, step, idle, read, write]

theorem Reading.kept {master : AXI4LiteMaster w} {io : Inputs w} {address : BitVec w}
    (reading : master.Reading address) (waits : master.rTaken io = false) :
    (master.stepOn io).Reading address ∧
      (master.stepOn io).ARVALID = (master.ARVALID && !io.slave.ARREADY) := by
  have unanswered : (io.slave.RVALID && master.RREADY) = false := waits
  refine ⟨⟨?_, ?_⟩, ?_⟩
  all_goals simp only [stepOn, step, reading.state, unanswered, Bool.false_eq_true, if_false]
  exact reading.addr

theorem reading_window {n m : ℕ} {address : BitVec w}
    (reading : (stateAt inputs n).Reading address) (later : n ≤ m)
    (waits : ∀ k, n ≤ k → k < m → (stateAt inputs k).rTaken (inputs k) = false) :
    (stateAt inputs m).Reading address := by
  refine Clocked.kept_until later reading fun k after before reading => ?_
  exact (reading.kept (waits k after before)).1

theorem reading_answered (compliant : Compliant inputs) {n : ℕ} {address : BitVec w}
    (reading : (stateAt inputs n).Reading address) :
    ∃ m ≥ n, (stateAt inputs m).rTaken (inputs m) = true := by
  by_contra never
  have waits : ∀ k ≥ n, (stateAt inputs k).rTaken (inputs k) = false :=
    fun k later => Bool.eq_false_iff.mpr fun taken => never ⟨k, later, taken⟩
  have stays : ∀ k ≥ n, (stateAt inputs k).Reading address :=
    fun k later => reading_window reading later fun l after _ => waits l after
  obtain ⟨k, later, taken⟩ : ∃ k ≥ n, (stateAt inputs k).ARVALID = false := by
    by_contra high
    obtain ⟨a, later, ready⟩ :=
      compliant.ar n (by_contra fun low => high ⟨n, le_rfl, Bool.eq_false_iff.mpr low⟩)
    have lowered := ((stays a later).kept (waits a later)).2
    rw [ready, Bool.not_true, Bool.and_false] at lowered
    exact high ⟨a + 1, Nat.le_succ_of_le later, lowered⟩
  have open' := (inStep_always compliant k).ar
  rw [taken, (stays k later).state] at open'
  obtain ⟨m, after, valid⟩ := compliant.r k (Nat.lt_of_succ_le open'.symm.le)
  have rready := (inStep_always compliant m).reading
  rw [(stays m (later.trans after)).state] at rready
  refine never ⟨m, later.trans after, ?_⟩
  rw [rTaken, channels, valid, rready]
  rfl

theorem idle_counts (compliant : Compliant inputs) {n : ℕ}
    (idle : (stateAt inputs n).busy = false) :
    (countsAt inputs n).ar = (countsAt inputs n).r ∧ (countsAt inputs n).aw =
      (countsAt inputs n).b ∧
      (countsAt inputs n).w = (countsAt inputs n).b ∧
      (countsAt inputs n).requests = (countsAt inputs n).r + (countsAt inputs n).b := by
  have inStep := inStep_always compliant n
  have state : (stateAt inputs n).state = .idle := by simpa [busy] using idle
  have arvalid := inStep.noReadAddress (by simp [state])
  have awvalid := inStep.noWriteAddress (by simp [state]) (by simp [state])
  have ar := inStep.ar
  have aw := inStep.aw
  have wCount := inStep.w
  have requests := inStep.outstanding
  simp [state, arvalid, awvalid, idle] at ar aw wCount requests
  exact ⟨ar, aw, wCount, requests⟩

/-- Nothing is answered between a request and its response. -/
theorem countsAt_window {n m : ℕ} (later : n ≤ m)
    (quiet : ∀ k, n ≤ k → k < m → (stateAt inputs k).rTaken (inputs k) = false ∧
      (stateAt inputs k).bTaken (inputs k) = false) :
    (countsAt inputs m).r = (countsAt inputs n).r ∧
      (countsAt inputs m).b = (countsAt inputs n).b := by
  refine Clocked.kept_until later ⟨rfl, rfl⟩ fun k after before same => ?_
  obtain ⟨reads, writes⟩ := same
  obtain ⟨noRead, noWrite⟩ := quiet k after before
  simp only [countsAt_succ, Counts.after, noRead, noWrite, Bool.toNat_false, Nat.add_zero,
    reads, writes, and_self]

theorem idle_untaken (compliant : Compliant inputs) {n : ℕ}
    (idle : (stateAt inputs n).busy = false) :
    (stateAt inputs n).rTaken (inputs n) = false ∧
      (stateAt inputs n).bTaken (inputs n) = false := by
  have rready := (inStep_always compliant n).reading
  have bready := (inStep_always compliant n).answering
  have state : (stateAt inputs n).state = .idle := by simpa [busy] using idle
  simp [state] at rready bready
  simp [rTaken, bTaken, channels, rready, bready]

/-- From an idle cycle to the next one there is one handshake on each channel for each response. -/
theorem counts_transaction (compliant : Compliant inputs) {n m : ℕ} (later : n < m)
    (idle : (stateAt inputs n).busy = false)
    (quiet : ∀ k, n < k → k < m → (stateAt inputs k).rTaken (inputs k) = false ∧
      (stateAt inputs k).bTaken (inputs k) = false)
    (finished : (stateAt inputs (m + 1)).busy = false) :
    countsAt inputs (m + 1) =
      { requests := (countsAt inputs n).requests + ((stateAt inputs m).rTaken (inputs m)).toNat +
          ((stateAt inputs m).bTaken (inputs m)).toNat
        ar := (countsAt inputs n).ar + ((stateAt inputs m).rTaken (inputs m)).toNat
        r := (countsAt inputs n).r + ((stateAt inputs m).rTaken (inputs m)).toNat
        aw := (countsAt inputs n).aw + ((stateAt inputs m).bTaken (inputs m)).toNat
        w := (countsAt inputs n).w + ((stateAt inputs m).bTaken (inputs m)).toNat
        b := (countsAt inputs n).b + ((stateAt inputs m).bTaken (inputs m)).toNat } := by
  have quiet' : ∀ k, n ≤ k → k < m → (stateAt inputs k).rTaken (inputs k) = false ∧
      (stateAt inputs k).bTaken (inputs k) = false := by
    intro k after before
    obtain first | next := Nat.eq_or_lt_of_le after
    · exact first ▸ idle_untaken compliant idle
    · exact quiet k next before
  obtain ⟨reads, writes⟩ := countsAt_window later.le quiet'
  have reads' : (countsAt inputs (m + 1)).r =
      (countsAt inputs n).r + ((stateAt inputs m).rTaken (inputs m)).toNat := by
    rw [countsAt_succ, Counts.after, reads]
  have writes' : (countsAt inputs (m + 1)).b =
      (countsAt inputs n).b + ((stateAt inputs m).bTaken (inputs m)).toNat := by
    rw [countsAt_succ, Counts.after, writes]
  -- both ends are idle, so the other channels have had as many handshakes as responses
  obtain ⟨ar, aw, wCount, requests⟩ := idle_counts compliant idle
  obtain ⟨ar', aw', wCount', requests'⟩ := idle_counts compliant finished
  rw [Counts.mk.injEq]
  omega

theorem Reading.untaken (compliant : Compliant inputs) {n : ℕ} {address : BitVec w}
    (reading : (stateAt inputs n).Reading address) :
    (stateAt inputs n).bTaken (inputs n) = false := by
  have bready := (inStep_always compliant n).answering
  simp [reading.state] at bready
  simp [bTaken, channels, bready]

/-- A read that is taken runs to its data. -/
theorem readTransaction (compliant : Compliant inputs) {n : ℕ}
    (accepts : (stateAt inputs n).acceptsRead (inputs n) = true) :
    ∃ m, ReadTransaction inputs n m := by
  have idle : (stateAt inputs n).busy = false := by
    simp only [acceptsRead, Bool.and_eq_true, Bool.not_eq_true'] at accepts
    exact accepts.1.1
  have reading := reading_accepted accepts
  obtain ⟨m, later, answered, waits⟩ := Clocked.first_from (reading_answered compliant reading)
  have window : ∀ k, n < k → k ≤ m → (stateAt inputs k).Reading (inputs n).bundle.address :=
    fun k after before => reading_window reading after fun l after' before' =>
      Bool.eq_false_iff.mpr (waits l after' (before'.trans_le before))
  have quiet : ∀ k, n < k → k < m → (stateAt inputs k).rTaken (inputs k) = false ∧
      (stateAt inputs k).bTaken (inputs k) = false := fun k after before =>
    ⟨Bool.eq_false_iff.mpr (waits k after before), (window k after before.le).untaken compliant⟩
  have finished : (stateAt inputs (m + 1)).busy = false := by
    have taken : ((inputs m).slave.RVALID && (stateAt inputs m).RREADY) = true := answered
    simp [stateAt_succ, stepOn, step, (window m later le_rfl).state, taken, busy]
  refine ⟨m, later, fun k after before => ?_,
    fun k after before => (window k after before).addr, answered, ?_⟩
  · simp [busy, (window k after before).state]
  · rw [counts_transaction compliant later idle quiet finished, answered,
      (window m later le_rfl).untaken compliant]
    rfl

/-! ### Writes -/

/-- What the master keeps until the response comes. -/
structure Writing (master : AXI4LiteMaster w) (request : AXI4LiteRequest w) : Prop where
  state : master.state = .writeData ∨ master.state = .writeResp
  addr : master.addr = request.address
  data : master.writeData = request.writeData
  strobe : master.writeStrobe = request.writeStrobe

theorem writing_accepted {n : ℕ} (accepts : (stateAt inputs n).acceptsWrite (inputs n) = true) :
    (stateAt inputs (n + 1)).Writing (inputs n).bundle := by
  simp only [acceptsWrite, busy, Bool.and_eq_true, Bool.not_eq_true',
    decide_eq_false_iff_not, not_not] at accepts
  obtain ⟨idle, write⟩ := accepts
  constructor <;> simp [stateAt_succ, stepOn, step, idle, write]

theorem Writing.kept {master : AXI4LiteMaster w} {io : Inputs w} {request : AXI4LiteRequest w}
    (writing : master.Writing request) (waits : master.bTaken io = false) :
    (master.stepOn io).Writing request ∧ (master.stepOn io).AWVALID =
      (master.AWVALID && !io.slave.AWREADY) ∧
      (master.state = .writeResp ∨ master.wTaken io = true →
      (master.stepOn io).state = .writeResp) := by
  obtain ⟨state, addr, data, strobe⟩ := writing
  have unanswered : (io.slave.BVALID && master.BREADY) = false := waits
  cases state with
  | inl sending =>
    by_cases taken : (master.WVALID && io.slave.WREADY) = true
    · refine ⟨⟨?_, ?_, ?_, ?_⟩, ?_, ?_⟩ <;> simp [stepOn, step, sending, taken, addr, data, strobe]
    · refine ⟨⟨?_, ?_, ?_, ?_⟩, ?_, ?_⟩ <;>
        simp [stepOn, step, sending, taken, addr, data, strobe, wTaken, channels]
  | inr answering =>
    refine ⟨⟨?_, ?_, ?_, ?_⟩, ?_, ?_⟩ <;> simp [stepOn, step, answering,
      unanswered, addr, data, strobe]

theorem writing_window {n m : ℕ} {request : AXI4LiteRequest w}
    (writing : (stateAt inputs n).Writing request)
    (later : n ≤ m) (waits : ∀ k, n ≤ k → k < m → (stateAt inputs k).bTaken (inputs k) = false) :
    (stateAt inputs m).Writing request := by
  refine Clocked.kept_until later writing fun k after before writing => ?_
  exact (writing.kept (waits k after before)).1

theorem writing_answered (compliant : Compliant inputs) {n : ℕ} {request : AXI4LiteRequest w}
    (writing : (stateAt inputs n).Writing request) :
    ∃ m ≥ n, (stateAt inputs m).bTaken (inputs m) = true := by
  by_contra never
  have waits : ∀ k ≥ n, (stateAt inputs k).bTaken (inputs k) = false :=
    fun k later => Bool.eq_false_iff.mpr fun taken => never ⟨k, later, taken⟩
  have stays : ∀ k ≥ n, (stateAt inputs k).Writing request :=
    fun k later => writing_window writing later fun l after _ => waits l after
  -- the data beat is taken
  obtain ⟨k, later, answering⟩ : ∃ k ≥ n, (stateAt inputs k).state = .writeResp := by
    by_contra sending
    have wvalid : ∀ k ≥ n, (stateAt inputs k).WVALID = true := fun k later =>
      (inStep_always compliant k).writing.trans
        (decide_eq_true ((stays k later).state.resolve_right
          fun answering => sending ⟨k, later, answering⟩))
    obtain ⟨a, later, ready⟩ := compliant.w n (wvalid n le_rfl)
    have taken : (stateAt inputs a).wTaken (inputs a) = true := by
      rw [wTaken, channels, wvalid a later, ready]
      rfl
    exact sending ⟨a + 1, Nat.le_succ_of_le later,
      ((stays a later).kept (waits a later)).2.2 (.inr taken)⟩
  have answers : ∀ l ≥ k, (stateAt inputs l).state = .writeResp := by
    intro l after
    induction l, after using Nat.le_induction with
    | base => exact answering
    | succ l after inductionHypothesis =>
      have since := later.trans after
      exact ((stays l since).kept (waits l since)).2.2 (.inl inductionHypothesis)
  -- the address is taken
  obtain ⟨l, after, taken⟩ : ∃ l ≥ k, (stateAt inputs l).AWVALID = false := by
    by_contra high
    obtain ⟨a, after, ready⟩ :=
      compliant.aw k (by_contra fun low => high ⟨k, le_rfl, Bool.eq_false_iff.mpr low⟩)
    have lowered := ((stays a (later.trans after)).kept (waits a (later.trans after))).2.1
    rw [ready, Bool.not_true, Bool.and_false] at lowered
    exact high ⟨a + 1, Nat.le_succ_of_le after, lowered⟩
  have openAddress := (inStep_always compliant l).aw
  have openData := (inStep_always compliant l).w
  simp [taken, answers l after] at openAddress openData
  obtain ⟨m, after', valid⟩ := compliant.b l (by omega) (by omega)
  have bready := (inStep_always compliant m).answering
  rw [answers m (after.trans after')] at bready
  refine never ⟨m, (later.trans after).trans after', ?_⟩
  rw [bTaken, channels, valid, bready]
  rfl

theorem Writing.untaken (compliant : Compliant inputs) {n : ℕ} {request : AXI4LiteRequest w}
    (writing : (stateAt inputs n).Writing request) :
    (stateAt inputs n).rTaken (inputs n) = false := by
  have rready := (inStep_always compliant n).reading
  cases writing.state with
  | inl sending => simp [rTaken, channels, rready, sending]
  | inr answering => simp [rTaken, channels, rready, answering]

/-- A write that is taken runs to its response. -/
theorem writeTransaction (compliant : Compliant inputs) {n : ℕ}
    (accepts : (stateAt inputs n).acceptsWrite (inputs n) = true) :
    ∃ m, WriteTransaction inputs n m := by
  have idle : (stateAt inputs n).busy = false := by
    simp only [acceptsWrite, Bool.and_eq_true, Bool.not_eq_true'] at accepts
    exact accepts.1
  have writing := writing_accepted accepts
  obtain ⟨m, later, answered, waits⟩ := Clocked.first_from (writing_answered compliant writing)
  have window : ∀ k, n < k → k ≤ m → (stateAt inputs k).Writing (inputs n).bundle :=
    fun k after before => writing_window writing after fun l after' before' =>
      Bool.eq_false_iff.mpr (waits l after' (before'.trans_le before))
  have quiet : ∀ k, n < k → k < m → (stateAt inputs k).rTaken (inputs k) = false ∧
      (stateAt inputs k).bTaken (inputs k) = false := fun k after before =>
    ⟨(window k after before.le).untaken compliant, Bool.eq_false_iff.mpr (waits k after before)⟩
  have finished : (stateAt inputs (m + 1)).busy = false := by
    have taken : ((inputs m).slave.BVALID && (stateAt inputs m).BREADY) = true := answered
    have bready := (inStep_always compliant m).answering
    rw [Bool.and_eq_true, bready, decide_eq_true_eq] at taken
    simp [stateAt_succ, stepOn, step, taken.1, taken.2, bready, busy]
  refine ⟨m, later, fun k after before => ?_, fun k after before => (window k after before).addr,
    fun k after before => (window k after before).data,
    fun k after before => (window k after before).strobe, answered, ?_⟩
  · cases (window k after before).state with
    | inl sending => simp [busy, sending]
    | inr answering => simp [busy, answering]
  · rw [counts_transaction compliant later idle quiet finished, answered,
      (window m later le_rfl).untaken compliant]
    rfl

/-! ### The protocol -/

/-- At most one request waits for its response, on the read or on the write channels. -/
structure Outstanding (master : AXI4LiteMaster w) (counts : Counts) : Prop where
  requests : counts.requests = counts.r + counts.b + master.busy.toNat
  read : counts.r ≤ counts.ar ∧ counts.ar ≤ counts.r + 1
  write : counts.b ≤ counts.aw ∧ counts.aw ≤ counts.b + 1 ∧ counts.b ≤ counts.w ∧
    counts.w ≤ counts.b + 1
  either : counts.ar = counts.r ∨ counts.aw = counts.b ∧ counts.w = counts.b

theorem outstanding_always (compliant : Compliant inputs) (n : ℕ) :
    (stateAt inputs n).Outstanding (countsAt inputs n) := by
  have inStep := inStep_always compliant n
  have ar := inStep.ar
  have aw := inStep.aw
  have wCount := inStep.w
  have addressed := Bool.toNat_le (stateAt inputs n).ARVALID
  have addressed' := Bool.toNat_le (stateAt inputs n).AWVALID
  cases state : (stateAt inputs n).state with
  | readAddr => exact absurd state inStep.used.1
  | writeAddr => exact absurd state inStep.used.2
  | idle =>
    have arvalid := inStep.noReadAddress (by simp [state])
    have awvalid := inStep.noWriteAddress (by simp [state]) (by simp [state])
    simp [state, arvalid, awvalid] at ar aw wCount
    exact ⟨inStep.outstanding, by omega, by omega, by omega⟩
  | readData =>
    have awvalid := inStep.noWriteAddress (by simp [state]) (by simp [state])
    simp [state, awvalid] at ar aw wCount
    exact ⟨inStep.outstanding, by omega, by omega, by omega⟩
  | writeData | writeResp =>
    have arvalid := inStep.noReadAddress (by simp [state])
    simp [state, arvalid] at ar aw wCount
    exact ⟨inStep.outstanding, by omega, by omega, by omega⟩

/-- Against any compliant slave, every channel holds what it has raised, each request has one
    handshake on each of its channels before the next one is taken, and each response is reported
    for one cycle. -/
theorem keeps_protocol (w : ℕ) (inputs : ℕ → Inputs w) (compliant : Compliant inputs) :
    (∀ n, (stateAt inputs n).Held (inputs n)) ∧
      (∀ n, (stateAt inputs n).acceptsRead (inputs n) = true → ∃ m, ReadTransaction inputs n m) ∧
      (∀ n, (stateAt inputs n).acceptsWrite (inputs n) = true → ∃ m, WriteTransaction inputs n m) ∧
      (∀ n, (stateAt inputs n).Outstanding (countsAt inputs n)) ∧
      ((stateAt inputs 0).readValid = false ∧ (stateAt inputs 0).writeValid = false) ∧
      ∀ n, (stateAt inputs n).Pulses (inputs n) :=
  ⟨fun n => (inStep_always compliant n).held, fun _ => readTransaction compliant,
  fun _ => writeTransaction compliant,
    outstanding_always compliant, ⟨rfl, rfl⟩, fun n => (inStep_always compliant n).pulses⟩

end Transactions

/-! ### A read and a write -/

def quietRequest : AXI4LiteRequest 8 := ⟨0#8, false, false, 0#32, 0#4⟩

def quietSlave : AXI4LiteSlaveChannels := ⟨false, false, 0#32, 0#2, false, false, false, 0#2⟩

/-- A read, then a write whose data is taken before its address. -/
def readThenWrite (n : ℕ) : Inputs 8 :=
  match n with
  | 0 => ⟨⟨0x10#8, true, false, 0#32, 0#4⟩, quietSlave⟩
  | 1 => ⟨quietRequest, { quietSlave with ARREADY := true }⟩
  | 2 => ⟨quietRequest, { quietSlave with RVALID := true, RDATA := 0x2a#32 }⟩
  | 3 => ⟨⟨0x14#8, false, true, 0x2b#32, 0xf#4⟩, quietSlave⟩
  | 4 => ⟨quietRequest, { quietSlave with WREADY := true }⟩
  | 5 => ⟨quietRequest, { quietSlave with AWREADY := true }⟩
  | 6 => ⟨quietRequest, { quietSlave with BVALID := true }⟩
  | _ => ⟨quietRequest, quietSlave⟩

theorem readThenWrite_quiet {n : ℕ} (late : 8 ≤ n) :
    readThenWrite n = ⟨quietRequest, quietSlave⟩ := by
  obtain ⟨k, rfl⟩ := Nat.exists_eq_add_of_le' late
  rfl

theorem readThenWrite_settled {n : ℕ} (late : 8 ≤ n) :
    stateAt readThenWrite n = stateAt readThenWrite 8 ∧ countsAt readThenWrite n =
      countsAt readThenWrite 8 := by
  induction n, late using Nat.le_induction with
  | base => exact ⟨rfl, rfl⟩
  | succ n late inductionHypothesis =>
    rw [stateAt_succ, countsAt_succ, inductionHypothesis.1, inductionHypothesis.2,
      readThenWrite_quiet late]
    exact ⟨by decide, by decide⟩

theorem readThenWrite_compliant : Compliant readThenWrite := by
  have settled := fun n (late : 8 ≤ n) => readThenWrite_settled late
  have quiet := fun n (late : 8 ≤ n) => readThenWrite_quiet late
  have early : ∀ {P : ℕ → Prop}, (∀ n < 8, P n) → (∀ n ≥ 8, P n) → ∀ n, P n :=
    fun before after n => (Nat.lt_or_ge n 8).elim (before n) (after n)
  refine ⟨fun n => ⟨?_, ?_⟩, ?_, ?_, ?_, ?_, ?_⟩
  · revert n
    exact early (by decide) fun n late => by simp [quiet n late, quietSlave]
  · revert n
    exact early (by decide) fun n late => by simp [quiet n late, quietSlave]
  -- each wait ends at a fixed cycle, and none begins after the last one
  · have waits : ∀ n < 8, (stateAt readThenWrite n).channels.ARVALID = true → n ≤ 1 := by decide
    have low : (stateAt readThenWrite 8).channels.ARVALID = false := by decide
    refine early (fun n before raised => ⟨1, waits n before raised, rfl⟩) fun n late raised => ?_
    exact absurd ((settled n late).1 ▸ raised) (by simp [low])
  · have waits : ∀ n < 8, (countsAt readThenWrite n).r < (countsAt readThenWrite n).ar → n ≤ 2 := by
      decide
    have low : ¬ (countsAt readThenWrite 8).r < (countsAt readThenWrite 8).ar := by decide
    refine early (fun n before taken => ⟨2, waits n before taken, rfl⟩) fun n late taken => ?_
    exact absurd ((settled n late).2 ▸ taken) low
  · have waits : ∀ n < 8, (stateAt readThenWrite n).channels.AWVALID = true → n ≤ 5 := by decide
    have low : (stateAt readThenWrite 8).channels.AWVALID = false := by decide
    refine early (fun n before raised => ⟨5, waits n before raised, rfl⟩) fun n late raised => ?_
    exact absurd ((settled n late).1 ▸ raised) (by simp [low])
  · have waits : ∀ n < 8, (stateAt readThenWrite n).channels.WVALID = true → n ≤ 4 := by decide
    have low : (stateAt readThenWrite 8).channels.WVALID = false := by decide
    refine early (fun n before raised => ⟨4, waits n before raised, rfl⟩) fun n late raised => ?_
    exact absurd ((settled n late).1 ▸ raised) (by simp [low])
  · have waits : ∀ n < 8, (countsAt readThenWrite n).b < (countsAt readThenWrite n).aw → n ≤ 6 := by
      decide
    have low : ¬ (countsAt readThenWrite 8).b < (countsAt readThenWrite 8).aw := by decide
    refine early (fun n before taken _ => ⟨6, waits n before taken, rfl⟩) fun n late taken => ?_
    exact absurd ((settled n late).2 ▸ taken) low

/-- Both requests run to their response. -/
theorem keeps_protocol_readThenWrite :
    Compliant readThenWrite ∧ (∃ m, ReadTransaction readThenWrite 0 m) ∧
      ∃ m, WriteTransaction readThenWrite 3 m := by
  obtain ⟨-, reads, writes, -⟩ := keeps_protocol 8 readThenWrite readThenWrite_compliant
  exact ⟨readThenWrite_compliant, reads 0 rfl, writes 3 rfl⟩

end AXI4LiteMaster

end MyCpu
