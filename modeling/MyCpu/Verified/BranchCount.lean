import MyCpu.Verified.EventCounters
import MyCpu.Verified.FetchStage
import MyCpu.Verified.StallFreeze

/-! # What the branch counters count

A branch or jump raises `mhpmcounter8` in the cycle in which it leaves ID.  The event is masked by a
memory stall and by `branch_hazard`, but not by the other hazards that hold ID: behind a store in
MEM with a load in EX, or behind a JAL or JALR in MEM or WB whose register the branch names, it is
raised in every cycle of the wait.  A misprediction flushes IF/ID in the cycle in which it is
counted, so it is counted once. -/

namespace MyCpu.PipelinedCPU

variable (cpu : PipelinedCPU) (io : Inputs)

/-- A branch or jump leaves ID. -/
def branchLeaves : Bool := isBranchOrJump cpu && !holdsId cpu io

/-- A branch or jump waits in ID in a cycle without memory stall or `branch_hazard`. -/
structure WaitsResolved : Prop where
  branch : isBranchOrJump cpu = true
  running : memStall cpu io = false
  ready : branchHazard cpu = false
  hazard : Control.storeLoadHazard (ctrl cpu) = true ∨ Control.jalJalrHazardMem (ctrl cpu) = true ∨
    Control.jalJalrHazardWb (ctrl cpu) = true
  kept : if2idFlush cpu io = false

/-- The events of the instruction in ID up to this cycle, and the branches and jumps that have left
    ID. -/
structure Stay where
  pulses : Counter → ℕ
  left : ℕ

namespace Stay

def start : Stay := ⟨fun _ => 0, 0⟩

variable (stay : Stay)

/-- The events of the instruction in ID, this cycle included. -/
def events (counter : Counter) : ℕ := stay.pulses counter + (counterEvent cpu io counter).toNat

def next : Stay where
  pulses := if holdsId cpu io then stay.events cpu io else fun _ => 0
  left := stay.left + (branchLeaves cpu io).toNat

end Stay

/-! ## One cycle -/

section Cycle

variable {cpu io}

theorem branchHazard_eq :
    branchHazard cpu = (Control.exHazardForBranch (ctrl cpu) ||
      Control.memHazardForBranch (ctrl cpu)) := by
  rw [branchHazard, Control.branchHazard]
  cases ex : Control.exHazardForBranch (ctrl cpu) with
  | true =>
    rw [Control.exHazardForBranch, Bool.and_eq_true] at ex
    simp [Control.hazard, ex.1, ex.2]
  | false =>
    cases mem : Control.memHazardForBranch (ctrl cpu) with
    | true => simp [Control.hazard, mem]
    | false => simp

/-- What holds a branch or jump with its operands ready. -/
theorem hazard_ready (branch : isBranchOrJump cpu = true) (ready : branchHazard cpu = false) :
    Control.hazard (ctrl cpu) = true ↔
      Control.storeLoadHazard (ctrl cpu) = true ∨ Control.jalJalrHazardMem (ctrl cpu) = true ∨
        Control.jalJalrHazardWb (ctrl cpu) = true := by
  have jump : (ctrl cpu).jumpInstructionId = true := branch
  rw [branchHazard_eq, Bool.or_eq_false_iff, Control.exHazardForBranch, jump,
    Bool.true_and] at ready
  simp [Control.hazard, Control.jalJalrHazardEx, ready.1, ready.2, or_assoc]

/-- A misprediction flushes IF/ID in the cycle in which it is counted. -/
theorem misprediction_leaves (counted : counterEvent cpu io .mhpmcounter3 = true) :
    holdsId cpu io = false := by
  rw [counterEvent, Bool.and_eq_true] at counted
  have flushed : if2idFlush cpu io = true := by
    rw [if2idFlush, needIfFlush, counted.1, Bool.or_true, Bool.true_and]
    exact counted.2
  rw [holdsId, flushed, Bool.not_true, Bool.and_false]

theorem prediction_resolved (counted : counterEvent cpu io .mhpmcounter9 = true) :
    counterEvent cpu io .mhpmcounter8 = true := by
  simp only [counterEvent, Bool.and_eq_true] at counted ⊢
  exact ⟨⟨counted.1.1.2, counted.1.2⟩, counted.2⟩

/-! ## A correction that waits for the end of a memory stall -/

/-- A recorded misprediction belongs to an instruction whose operands are ready. -/
def PendingReady (cpu : PipelinedCPU) : Prop :=
  cpu.btbMispredictPending = true → branchHazard cpu = false

theorem memHazardForBranch_congr {other : PipelinedCPU} (id : other.if2id = cpu.if2id)
    (mem : other.ex2mem = cpu.ex2mem) :
    Control.memHazardForBranch (ctrl other) = Control.memHazardForBranch (ctrl cpu) := by
  cases cpu
  cases other
  cases id
  cases mem
  rfl

theorem exHazardForBranch_congr {other : PipelinedCPU} (id : other.if2id = cpu.if2id)
    (ex : other.id2ex = cpu.id2ex) :
    Control.exHazardForBranch (ctrl other) = Control.exHazardForBranch (ctrl cpu) := by
  cases cpu
  cases other
  cases id
  cases ex
  rfl

/-- Hazards of a branch only go away while MEM stalls. -/
theorem branchHazard_stalled (stalled : memStall cpu io = true) (ready : branchHazard cpu = false) :
    branchHazard (step cpu io) = false := by
  rw [branchHazard_eq, Bool.or_eq_false_iff] at ready ⊢
  rw [memHazardForBranch_congr (if2id_stalled stalled) (ex2mem_stalled stalled)]
  refine ⟨?_, ready.2⟩
  cases flushed : id2exFlush cpu io with
  | true =>
    have bubble : (step cpu io).id2ex = ID2EX.bubble := by
      rw [step, stepWith, flushed, pipelineRegister_flush]
    simp [Control.exHazardForBranch, Control.names, ctrl, bubble, ID2EX.bubble]
  | false =>
    have held : (step cpu io).id2ex = cpu.id2ex := by
      rw [step, stepWith, flushed, stalled, pipelineRegister_stall]
    rw [exHazardForBranch_congr (if2id_stalled stalled) held]
    exact ready.1

theorem PendingReady.step (pending : PendingReady cpu) : PendingReady (step cpu io) := by
  intro recorded
  cases stalled : memStall cpu io with
  | false =>
    rw [btbMispredictPending_running stalled] at recorded
    exact Bool.noConfusion recorded
  | true =>
    refine branchHazard_stalled stalled ?_
    cases raw : btbMispredictRaw cpu io with
    | true =>
      rw [btbMispredictRaw, Bool.and_eq_true, Bool.not_eq_true'] at raw
      exact raw.2
    | false =>
      have before : (PipelinedCPU.step cpu io).btbMispredictPending = cpu.btbMispredictPending := by
        simp [PipelinedCPU.step, stepWith, nextBtbMispredictPending, raw, stalled]
      exact pending (before.symm.trans recorded)

/-- Only an instruction whose operands are ready is mispredicted. -/
theorem PendingReady.mispredicted (pending : PendingReady cpu)
    (wrong : mispredicted cpu io = true) :
    branchHazard cpu = false := by
  simp only [PipelinedCPU.mispredicted, btbMispredict, btbMispredictRaw,
    rasWrongTarget, ibtbWrongTarget, pendingCorrectionDue, Bool.or_eq_true, Bool.and_eq_true,
    Bool.not_eq_true'] at wrong
  obtain ((raw | due) | ras) | ibtb := wrong
  · exact raw.2
  · exact pending due.1
  · exact ras.2
  · exact ibtb.2

/-- A branch or jump is counted in the cycle in which it leaves ID. -/
theorem PendingReady.resolved (pending : PendingReady cpu) (leaves : branchLeaves cpu io = true) :
    counterEvent cpu io .mhpmcounter8 = true := by
  rw [branchLeaves, Bool.and_eq_true, Bool.not_eq_true'] at leaves
  have running := running_leaves leaves.2
  have ready : branchHazard cpu = false := by
    cases hazard : Control.hazard (ctrl cpu) with
    | false => exact branchHazard_free hazard
    | true =>
      -- under a hazard only a misprediction ends the stay
      have left := leaves.2
      rw [holdsId, if2idStall, Control.ifStall, hazard, Bool.true_or, Bool.true_and,
        Bool.not_eq_false', if2idFlush, needIfFlush_hazard cpu io hazard, Bool.and_eq_true] at left
      exact pending.mispredicted left.1
  rw [counterEvent, leaves.1, ready, running]
  rfl

/-- In the other cycles of its stay it is counted exactly when nothing masks the event. -/
theorem PendingReady.resolved_iff (pending : PendingReady cpu) :
    counterEvent cpu io .mhpmcounter8 = branchLeaves cpu io ↔ ¬ WaitsResolved cpu io := by
  cases leaves : branchLeaves cpu io with
  | true =>
    refine iff_of_true (pending.resolved leaves) fun waits => ?_
    rw [branchLeaves, Bool.and_eq_true, Bool.not_eq_true'] at leaves
    have hazard := (hazard_ready waits.branch waits.ready).mpr waits.hazard
    rw [holdsId, if2idStall, Control.ifStall, hazard, waits.kept, Bool.true_or] at leaves
    exact absurd leaves.2 (by decide)
  | false =>
    rw [← Bool.not_eq_true, not_iff_not, counterEvent, Bool.and_eq_true,
      Bool.and_eq_true, Bool.not_eq_true', Bool.not_eq_true']
    constructor
    · rintro ⟨⟨branch, ready⟩, running⟩
      rw [branchLeaves, branch, Bool.true_and, Bool.not_eq_false', holdsId, if2idStall,
        running, Bool.or_false, Bool.and_eq_true, Bool.not_eq_true'] at leaves
      exact ⟨branch, running, ready, (hazard_ready branch ready).mp leaves.1, leaves.2⟩
    · exact fun waits => ⟨⟨waits.branch, waits.ready⟩, waits.running⟩

end Cycle

/-! ## The run -/

section Run

variable (contents : PowerUp) (inputs : ℕ → Inputs)

/-- The stay of the instruction in ID before the events of cycle `n`. -/
def stayAt : ℕ → Stay :=
  Clocked.observedAt step (fun stay cpu io => stay.next cpu io) (powerUp contents) .start inputs

/-- The events of the instruction in ID up to and including cycle `n`. -/
def eventsAt (n : ℕ) : Counter → ℕ :=
  (stayAt contents inputs n).events (stateAt contents inputs n) (inputs n)

/-- Every branch and jump that leaves ID has been counted once, and every instruction that leaves ID
    has been counted at most once as mispredicted and at most once as predicted, so the counters
    hold the numbers of branches. -/
structure CountsOnce : Prop where
  resolved : ∀ n, branchLeaves (stateAt contents inputs n) (inputs n) = true →
    eventsAt contents inputs n .mhpmcounter8 = 1
  mispredicted : ∀ n, holdsId (stateAt contents inputs n) (inputs n) = false →
    eventsAt contents inputs n .mhpmcounter3 ≤ 1
  predicted : ∀ n, holdsId (stateAt contents inputs n) (inputs n) = false →
    eventsAt contents inputs n .mhpmcounter9 ≤ 1
  total : ∀ n, (stateAt contents inputs n).csrRegs.counters .mhpmcounter8 =
    BitVec.ofNat 64 (stayAt contents inputs n).left
  fewer : ∀ n, (stayAt contents inputs n).left < 2 ^ 64 →
    (stateAt contents inputs n).csrRegs.counters .mhpmcounter9 ≤
      (stateAt contents inputs n).csrRegs.counters .mhpmcounter8

variable {contents inputs}

theorem pendingReady_always (n : ℕ) : PendingReady (stateAt contents inputs n) :=
  Clocked.invariant_always (fun recorded => Bool.noConfusion recorded)
    (fun _ _ => PendingReady.step) n

/-- An event that is never raised while ID is held has not been raised before in the stay. -/
theorem pulses_zero {counter : Counter}
    (once : ∀ n, counterEvent (stateAt contents inputs n) (inputs n) counter = true →
      holdsId (stateAt contents inputs n) (inputs n) = false) (n : ℕ) :
    (stayAt contents inputs n).pulses counter = 0 := by
  induction n with
  | zero => rfl
  | succ n inductionHypothesis =>
    have next : stayAt contents inputs (n + 1) =
        (stayAt contents inputs n).next (stateAt contents inputs n) (inputs n) := rfl
    rw [next, Stay.next]
    cases held : holdsId (stateAt contents inputs n) (inputs n) with
    | false => rfl
    | true =>
      have silent : counterEvent (stateAt contents inputs n) (inputs n) counter = false := by
        by_contra raised
        rw [once n (Bool.of_not_eq_false raised)] at held
        exact Bool.noConfusion held
      simp only [if_true, Stay.events, inductionHypothesis, silent, Bool.toNat_false]

theorem eventsAt_eq {counter : Counter}
    (once : ∀ n, counterEvent (stateAt contents inputs n) (inputs n) counter = true →
      holdsId (stateAt contents inputs n) (inputs n) = false) (n : ℕ) :
    eventsAt contents inputs n counter =
      (counterEvent (stateAt contents inputs n) (inputs n) counter).toNat := by
  rw [eventsAt, Stay.events, pulses_zero once, Nat.zero_add]

theorem counter_next {counter : Counter}
    (free : ∀ n, CountsFreely (stateAt contents inputs n) (inputs n) counter) (n : ℕ) :
    (stateAt contents inputs (n + 1)).csrRegs.counters counter =
      (stateAt contents inputs n).csrRegs.counters counter +
        BitVec.ofNat 64 (counterEvent (stateAt contents inputs n) (inputs n) counter).toNat := by
  rw [stateAt_succ, (free n).step]

/-- The total is right exactly when no branch is counted while it waits. -/
theorem total_iff (free : ∀ n, CountsFreely (stateAt contents inputs n) (inputs n) .mhpmcounter8) :
    (∀ n, (stateAt contents inputs n).csrRegs.counters .mhpmcounter8 =
        BitVec.ofNat 64 (stayAt contents inputs n).left) ↔
      ∀ n, ¬ WaitsResolved (stateAt contents inputs n) (inputs n) := by
  have follows := WrappingCounter.follows_iff
    (fun n => (stateAt contents inputs n).csrRegs.counters .mhpmcounter8)
    (fun n => (counterEvent (stateAt contents inputs n) (inputs n) .mhpmcounter8).toNat)
    (fun n => (stayAt contents inputs n).left)
    (fun n => (branchLeaves (stateAt contents inputs n) (inputs n)).toNat)
    (counter_reset .mhpmcounter8) (counter_next free) (fun _ => rfl) (fun n => toNat_small _)
    (fun n => toNat_small _)
  refine follows.trans (forall_congr' fun n => ?_)
  rw [← (pendingReady_always n).resolved_iff]
  exact ⟨toNat_inj, congrArg _⟩

theorem left_eq (unwaited : ∀ n, ¬ WaitsResolved (stateAt contents inputs n) (inputs n)) (n : ℕ) :
    (stayAt contents inputs n).left =
      ∑ k ∈ Finset.range n, (counterEvent (stateAt contents inputs k)
        (inputs k) .mhpmcounter8).toNat := by
  induction n with
  | zero => rfl
  | succ n inductionHypothesis =>
    have next : (stayAt contents inputs (n + 1)).left = (stayAt contents inputs n).left +
        (branchLeaves (stateAt contents inputs n) (inputs n)).toNat := rfl
    rw [next, inductionHypothesis, Finset.sum_range_succ,
      (pendingReady_always n).resolved_iff.mpr (unwaited n)]

/-- The branch counters are right in a run exactly when no branch or jump whose operands are ready
    waits in ID. -/
theorem countsOnce_iff (contents : PowerUp) (inputs : ℕ → Inputs)
    (freeResolved : ∀ n, CountsFreely (stateAt contents inputs n) (inputs n) .mhpmcounter8)
    (freePredicted : ∀ n, CountsFreely (stateAt contents inputs n) (inputs n) .mhpmcounter9) :
    CountsOnce contents inputs ↔ ∀ n, ¬ WaitsResolved (stateAt contents inputs n) (inputs n) := by
  constructor
  · exact fun counts => (total_iff freeResolved).mp counts.total
  · intro unwaited
    -- the event of a resolved branch is raised in the cycle in which it leaves ID, and in no other
    have resolvedLeaves :
        ∀ n, counterEvent (stateAt contents inputs n) (inputs n) .mhpmcounter8 = true →
        holdsId (stateAt contents inputs n) (inputs n) = false := by
      intro n raised
      rw [(pendingReady_always n).resolved_iff.mpr (unwaited n), branchLeaves, Bool.and_eq_true,
        Bool.not_eq_true'] at raised
      exact raised.2
    refine ⟨?_, ?_, ?_, (total_iff freeResolved).mpr unwaited, ?_⟩
    · intro n leaves
      rw [eventsAt_eq resolvedLeaves, (pendingReady_always n).resolved leaves]
      rfl
    · intro n _
      rw [eventsAt_eq fun n => misprediction_leaves]
      exact Bool.toNat_le _
    · intro n _
      rw [eventsAt_eq fun n predicted => resolvedLeaves n (prediction_resolved predicted)]
      exact Bool.toNat_le _
    · intro n unwrapped
      rw [left_eq unwaited] at unwrapped
      have fewer : ∀ n, (counterEvent (stateAt contents inputs n) (inputs n) .mhpmcounter9).toNat ≤
          (counterEvent (stateAt contents inputs n) (inputs n) .mhpmcounter8).toNat :=
        fun n => Bool.toNat_le_toNat prediction_resolved
      exact WrappingCounter.register_le
        (fun n => (stateAt contents inputs n).csrRegs.counters .mhpmcounter9) _
        (fun n => (stateAt contents inputs n).csrRegs.counters .mhpmcounter8) _
          (counter_reset .mhpmcounter9)
        (counter_reset .mhpmcounter8) (counter_next freePredicted)
        (counter_next freeResolved) fewer unwrapped

end Run

/-! ## Two runs -/

/-- `sw x0, 0(x0)`, `lw x2, 0(x0)` and `beq x0, x0, 8`. -/
def storeLoadBranchInputs : ℕ → Inputs := .script [0x00002023#32, 0x00002103#32, 0x00000463#32]

/-- The branch waits behind the load until the store has left MEM, and is counted in both cycles. -/
theorem storeLoadBranch_countedAgain : ¬ CountsOnce .zero storeLoadBranchInputs := by
  have none : NoCsr [0x00002023#32, 0x00002103#32, 0x00000463#32] := by decide
  rw [countsOnce_iff .zero storeLoadBranchInputs
    (countsFreely_always (script_noCsr none) .mhpmcounter8)
    (countsFreely_always (script_noCsr none) .mhpmcounter9)]
  have waits : WaitsResolved (stateAt .zero storeLoadBranchInputs 4) (storeLoadBranchInputs 4) :=
    ⟨by decide +kernel, by decide +kernel, by decide +kernel, Or.inl (by decide +kernel), by decide +kernel⟩
  exact fun unwaited => unwaited 4 waits

/-- `jal x1, 8`, the word behind it, and `beq x1, x0, 8` at the target. -/
def linkTestInputs : ℕ → Inputs := .script [0x008000EF#32, InstructionsNop.nop, 0x00008463#32]

/-- The branch waits for the link register while `jal` is in MEM and in WB: it has been counted
    three times when it leaves ID. -/
theorem linkTest_countedThrice :
    (∀ n, CountsFreely (stateAt .zero linkTestInputs n) (linkTestInputs n) .mhpmcounter8) ∧
      (∀ n, CountsFreely (stateAt .zero linkTestInputs n) (linkTestInputs n) .mhpmcounter9) ∧
      ¬ CountsOnce .zero linkTestInputs := by
  have none : NoCsr [0x008000EF#32, InstructionsNop.nop, 0x00008463#32] := by decide
  refine ⟨countsFreely_always (script_noCsr none) _, countsFreely_always
    (script_noCsr none) _, fun counts => ?_⟩
  have leaves : branchLeaves (stateAt .zero linkTestInputs 5) (linkTestInputs 5) = true := by
    decide +kernel
  have thrice : eventsAt .zero linkTestInputs 5 .mhpmcounter8 = 3 := by decide +kernel
  exact absurd (thrice.symm.trans (counts.resolved 5 leaves)) (by decide)

end MyCpu.PipelinedCPU
