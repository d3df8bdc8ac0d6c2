import MyCpu.Verified.Bypass
import MyCpu.Verified.EventCounters

/-! # What `minstret` counts

The instructions that IF/ID accepts are numbered in order, and the number of an instruction moves
through the boundaries with it; an inserted `nop` has none.  An instruction that is clocked into EX
a second time has left WB once when both copies have.

The core counts the cycles in which a register write leaves WB.  It never counts a store:
`bus.write` is low when the write response of the bus arrives.  It does count inserted `nop`s and
second copies. -/

namespace MyCpu.PipelinedCPU

variable (cpu : PipelinedCPU) (io : Inputs)

/-- A register write leaves WB. -/
def leavesWb : Bool := cpu.mem2wb.regsWriteEnable && !memStall cpu io

/-- The bus completes the write of the store in MEM. -/
def completesStore : Bool := MemoryAccess.writeCompletes cpu.mem io.bus

/-- The number of the next instruction, the numbers in the stages, and the numbers of the
    register-writing instructions that have left WB and of the stores that have completed. -/
structure Numbering where
  fetched : ℕ
  id : Option ℕ
  ex : Option ℕ
  mem : Option ℕ
  wb : Option ℕ
  writers : Finset ℕ
  stores : Finset ℕ

namespace Numbering

def start : Numbering := ⟨0, none, none, none, none, ∅, ∅⟩

variable (numbers : Numbering)

/-- The numbers follow the clocked update of the boundaries. -/
def next : Numbering where
  fetched := if acceptsFetch cpu io then numbers.fetched + 1 else numbers.fetched
  id := pipelineRegister none (if2idStall cpu io) (if2idFlush cpu io)
    (if io.instructionValid then some numbers.fetched else none) numbers.id
  ex := pipelineRegister none (memStall cpu io) (id2exFlush cpu io) numbers.id numbers.ex
  mem := pipelineRegister none (memStall cpu io) false numbers.ex numbers.mem
  wb := pipelineRegister none (memStall cpu io) false numbers.mem numbers.wb
  writers := if leavesWb cpu io then numbers.writers ∪ numbers.wb.toFinset else numbers.writers
  stores := if completesStore cpu io then numbers.stores ∪ numbers.mem.toFinset else numbers.stores

/-- The number of register-writing instructions that have left WB and of stores that have
    completed. -/
def retired : ℕ := numbers.writers.card + numbers.stores.card

/-- A register-writing instruction leaves WB that has not left it before. -/
def newWriter : Bool := leavesWb cpu io && numbers.wb.any fun number => number ∉ numbers.writers

/-- A store completes that has not completed before. -/
def newStore : Bool :=
  completesStore cpu io && numbers.mem.any fun number => number ∉ numbers.stores

/-- What leaves WB with its register write is an inserted `nop` or a second copy of an
    instruction. -/
def strayWriter : Bool := leavesWb cpu io && numbers.wb.all fun number => number ∈ numbers.writers

end Numbering

/-! ## One cycle -/

section Cycle

variable {cpu io} {numbers : Numbering}

/-- A store that has completed is never seen by the counter. -/
theorem instructionRetired_eq : instructionRetired cpu io = leavesWb cpu io := by
  rw [instructionRetired, leavesWb]
  cases starts : (bus cpu).write with
  | false => rw [storeCompleted, starts, Bool.false_and, Bool.or_false]
  | true =>
    -- `bus.write` is high only while the store waits for the grant of the bus
    have waits : memStall cpu io = true := by
      simp only [bus, MemoryAccess.busOutputs, MemoryAccess.startsWrite, Bool.and_eq_true,
        decide_eq_true_eq] at starts
      rw [memStall, MemoryAccess.ctrlStallFlag, starts.1.1]
      simp only [starts.2, Bool.or_true]
    rw [waits, Bool.not_true, Bool.and_false, Bool.and_false]

theorem card_union_toFinset (seen : Finset ℕ) (number : Option ℕ) :
    (seen ∪ number.toFinset).card = seen.card + (number.any fun number => number ∉ seen).toNat := by
  cases number with
  | none => simp
  | some number =>
    by_cases old : number ∈ seen
    · simp [old]
    · simp [old]

theorem leavesWb_toNat : (leavesWb cpu io).toNat =
    (numbers.newWriter cpu io).toNat + (numbers.strayWriter cpu io).toNat := by
  rw [Numbering.newWriter, Numbering.strayWriter]
  cases leavesWb cpu io with
  | false => rfl
  | true =>
    cases numbers.wb with
    | none => rfl
    | some number => by_cases old : number ∈ numbers.writers <;> simp [old]

theorem retired_next : (numbers.next cpu io).retired =
    numbers.retired + ((numbers.newWriter cpu io).toNat + (numbers.newStore cpu io).toNat) := by
  have writers : (numbers.next cpu io).writers.card =
      numbers.writers.card + (numbers.newWriter cpu io).toNat := by
    rw [Numbering.next, Numbering.newWriter]
    cases leavesWb cpu io with
    | false => rfl
    | true => exact card_union_toFinset _ _
  have stores : (numbers.next cpu io).stores.card =
      numbers.stores.card + (numbers.newStore cpu io).toNat := by
    rw [Numbering.next, Numbering.newStore]
    cases completesStore cpu io with
    | false => rfl
    | true => exact card_union_toFinset _ _
  rw [Numbering.retired, Numbering.retired, writers, stores]
  omega

end Cycle

/-! ## What the numbers leave out -/

/-- A stage without a number holds an inserted `nop` or a bubble: it is no store and writes at most
    `x0`. -/
structure Numbered (numbers : Numbering) : Prop where
  id : numbers.id = none → cpu.if2id.instruction = InstructionsNop.nop
  ex : numbers.ex = none → cpu.id2ex.memoryWriteEnable = false ∧ cpu.id2ex.regsWriteAddress = 0#5
  mem : numbers.mem = none → cpu.ex2mem.memoryWriteEnable = false ∧
    cpu.ex2mem.regsWriteAddress = 0#5
  wb : numbers.wb = none → cpu.mem2wb.regsWriteAddress = 0#5

section Numbered

variable {cpu io} {numbers : Numbering}

theorem if2idInput_numbered
    (unnumbered : (if io.instructionValid then some numbers.fetched else none) = none) :
    (if2idInput cpu.instFetch.predict cpu io).instruction = InstructionsNop.nop := by
  rw [if2idInput, InstructionFetch.idInstruction, fetchInputs]
  cases valid : io.instructionValid with
  | true =>
    rw [valid] at unnumbered
    cases unnumbered
  | false => rfl

theorem id2exInput_nop (nop : cpu.if2id.instruction = InstructionsNop.nop) :
    (id2exInput cpu io).memoryWriteEnable = false ∧ (id2exInput cpu io).regsWriteAddress = 0#5 := by
  have store : InstructionDecode.exMemoryWriteEnable InstructionsNop.nop = false := by decide
  have target : InstructionDecode.exRegWriteAddress InstructionsNop.nop = 0#5 := by decide
  rw [id2exInput, nop]
  exact ⟨store, target⟩

theorem mem2wbInput_regsWriteAddress (running : memStall cpu io = false) :
    (mem2wbInput cpu io).regsWriteAddress = cpu.ex2mem.regsWriteAddress := by
  rw [memStall, MemoryAccess.ctrlStallFlag] at running
  rw [mem2wbInput, MemoryAccess.wbRegsWriteAddress, MemoryAccess.inActiveRead]
  cases state : cpu.mem.memAccessState with
  | read =>
    rw [state] at running
    simp only [running, Bool.and_false, Bool.false_eq_true, if_false]
  | write | idle => rfl

theorem Numbered.step (numbered : Numbered cpu numbers) :
    Numbered (step cpu io) (numbers.next cpu io) where
  id := pipelineRegister_related (fun (boundary : IF2ID) number =>
      number = none → boundary.instruction = InstructionsNop.nop)
    (fun _ => rfl) (fun _ => if2idInput_numbered) numbered.id (if2idFlush cpu io)
  ex := pipelineRegister_related (fun (boundary : ID2EX) number =>
      number = none → boundary.memoryWriteEnable = false ∧ boundary.regsWriteAddress = 0#5)
    (fun _ => ⟨rfl, rfl⟩) (fun _ unnumbered => id2exInput_nop (numbered.id unnumbered)) numbered.ex
      (id2exFlush cpu io)
  mem := by
    have reset : (none : Option ℕ) = none →
        EX2MEM.reset.memoryWriteEnable = false ∧
        EX2MEM.reset.regsWriteAddress = 0#5 := fun _ => ⟨rfl, rfl⟩
    exact pipelineRegister_related (fun (boundary : EX2MEM) number =>
      number = none → boundary.memoryWriteEnable = false ∧ boundary.regsWriteAddress = 0#5) reset
        (fun _ => numbered.ex) numbered.mem false
  wb := by
    have reset : (none : Option ℕ) = none → MEM2WB.reset.regsWriteAddress = 0#5 := fun _ => rfl
    refine pipelineRegister_related (fun (boundary : MEM2WB) number =>
      number = none → boundary.regsWriteAddress = 0#5) reset
        (fun running unnumbered => ?_) numbered.wb false
    rw [mem2wbInput_regsWriteAddress running]
    exact (numbered.mem unnumbered).2

end Numbered

/-! ## The run -/

section Run

variable (contents : PowerUp) (inputs : ℕ → Inputs)

/-- The numbers after `n` clock edges. -/
def numbersAt : ℕ → Numbering :=
  Clocked.observedAt step (fun numbers cpu io => numbers.next cpu io)
    (powerUp contents) .start inputs

theorem numbered_always (n : ℕ) :
    Numbered (stateAt contents inputs n) (numbersAt contents inputs n) := by
  induction n with
  | zero => exact ⟨fun _ => rfl, fun _ => ⟨rfl, rfl⟩, fun _ => ⟨rfl, rfl⟩, fun _ => rfl⟩
  | succ n inductionHypothesis => exact inductionHypothesis.step

/-- Every store that completes has a number. -/
theorem completesStore_numbered {n : ℕ}
    (completes : completesStore (stateAt contents inputs n) (inputs n) = true) :
    (numbersAt contents inputs n).mem ≠ none := by
  intro unnumbered
  rw [completesStore, MemoryAccess.writeCompletes, Bool.and_eq_true, decide_eq_true_eq] at completes
  have store := (bypassed_always contents inputs n).writing completes.1
  rw [((numbered_always contents inputs n).mem unnumbered).1] at store
  exact Bool.noConfusion store

/-- So a store completes only where the numbers of the completed stores are noted. -/
theorem stores_empty_iff : (∀ n, (numbersAt contents inputs n).stores = ∅) ↔
    ∀ n, completesStore (stateAt contents inputs n) (inputs n) = false := by
  have next : ∀ n, (numbersAt contents inputs (n + 1)).stores =
      if completesStore (stateAt contents inputs n) (inputs n) then
        (numbersAt contents inputs n).stores ∪ (numbersAt contents inputs n).mem.toFinset
      else (numbersAt contents inputs n).stores := fun n => rfl
  constructor
  · intro empty n
    rw [← Bool.not_eq_true]
    intro completes
    have noted := next n
    rw [if_pos completes, empty, empty, Finset.empty_union] at noted
    cases number : (numbersAt contents inputs n).mem with
    | none => exact completesStore_numbered contents inputs completes number
    | some number' =>
      rw [number, Option.toFinset_some] at noted
      exact Finset.singleton_ne_empty number' noted.symm
  · intro never n
    induction n with
    | zero => rfl
    | succ n inductionHypothesis => rw [next, never, if_neg Bool.false_ne_true, inductionHypothesis]

variable {contents inputs}

theorem minstret_next (free : ∀ n, CountsFreely (stateAt contents inputs n) (inputs n) .minstret)
    (n : ℕ) :
    (stateAt contents inputs (n + 1)).csrRegs.counters .minstret =
      (stateAt contents inputs n).csrRegs.counters .minstret +
        BitVec.ofNat 64 (leavesWb (stateAt contents inputs n) (inputs n)).toNat := by
  rw [stateAt_succ, (free n).step, counterEvent, instructionRetired_eq]

/-- The counter holds the number of cycles in which a register write has left WB, whatever the
    stores do. -/
theorem minstret_departures
    (free : ∀ n, CountsFreely (stateAt contents inputs n) (inputs n) .minstret) (n : ℕ) :
    (stateAt contents inputs n).csrRegs.counters .minstret =
      BitVec.ofNat 64 (∑ k ∈ Finset.range n,
      (leavesWb (stateAt contents inputs k) (inputs k)).toNat) := by
  have total :=
    WrappingCounter.register_eq (fun n => (stateAt contents inputs n).csrRegs.counters .minstret)
      (fun n => (leavesWb (stateAt contents inputs n) (inputs n)).toNat)
      (counter_reset .minstret) (minstret_next free)
  exact total n

theorem toNat_add_small (event event' : Bool) : event.toNat + event'.toNat < 2 ^ 64 :=
  (Nat.add_le_add (Bool.toNat_le event) (Bool.toNat_le event')).trans_lt (by decide)

/-- The register writes that leave WB in a cycle, of whatever origin, and the stores that complete
    in it. -/
def finishing (contents : PowerUp) (inputs : ℕ → Inputs) (n : ℕ) : ℕ :=
  (leavesWb (stateAt contents inputs n) (inputs n)).toNat +
    (completesStore (stateAt contents inputs n) (inputs n)).toNat

/-- When inserted `nop`s and second copies are counted as well, what is missing are the stores. -/
theorem finishing_iff (free : ∀ n, CountsFreely (stateAt contents inputs n) (inputs n) .minstret) :
    (∀ n, (stateAt contents inputs n).csrRegs.counters .minstret =
        BitVec.ofNat 64 (∑ k ∈ Finset.range n, finishing contents inputs k)) ↔
      ∀ n, (numbersAt contents inputs n).stores = ∅ := by
  have follows :=
    WrappingCounter.follows_iff (fun n => (stateAt contents inputs n).csrRegs.counters .minstret)
      (fun n => (leavesWb (stateAt contents inputs n) (inputs n)).toNat)
      (fun n => ∑ k ∈ Finset.range n, finishing contents inputs k) (finishing contents inputs)
      (counter_reset .minstret) (minstret_next free) (fun n => Finset.sum_range_succ _ n)
      (fun n => toNat_small _)
      (fun n => toNat_add_small _ _)
  refine (follows.trans (forall_congr' fun n => ?_)).trans (stores_empty_iff contents inputs).symm
  rw [finishing, Nat.left_eq_add, Bool.toNat_eq_zero]

/-- The counter holds the number of register-writing instructions that have left WB and of stores
    that have completed exactly when a store completes in just those cycles in which an inserted
    `nop` or a second copy leaves WB. -/
theorem minstret_counts_iff (contents : PowerUp) (inputs : ℕ → Inputs)
    (free : ∀ n, CountsFreely (stateAt contents inputs n) (inputs n) .minstret) :
    (∀ n, (stateAt contents inputs n).csrRegs.counters .minstret =
        BitVec.ofNat 64 (numbersAt contents inputs n).retired) ↔
      ∀ n, (numbersAt contents inputs n).newStore (stateAt contents inputs n) (inputs n) =
        (numbersAt contents inputs n).strayWriter (stateAt contents inputs n) (inputs n) := by
  have counted : ∀ n, (numbersAt contents inputs (n + 1)).retired =
      (numbersAt contents inputs n).retired +
      (((numbersAt contents inputs n).newWriter (stateAt contents inputs n) (inputs n)).toNat +
        ((numbersAt contents inputs n).newStore (stateAt contents inputs n) (inputs n)).toNat) :=
    fun n => retired_next
  have follows :=
    WrappingCounter.follows_iff (fun n => (stateAt contents inputs n).csrRegs.counters .minstret)
      (fun n => (leavesWb (stateAt contents inputs n) (inputs n)).toNat)
      (fun n => (numbersAt contents inputs n).retired) _ (counter_reset .minstret)
      (minstret_next free) counted
      (fun n => toNat_small _) (fun n => toNat_add_small _ _)
  refine follows.trans (forall_congr' fun n => ?_)
  rw [@leavesWb_toNat _ _ (numbersAt contents inputs n), Nat.add_left_cancel_iff, eq_comm]
  exact ⟨toNat_inj, congrArg _⟩

end Run

/-! ## Two runs -/

/-- A run that fetches `nop` only. -/
def nopInputs : ℕ → Inputs := .script []

/-- The `nop` that IF/ID holds at reset leaves WB in cycle 3 and is counted. -/
theorem resetNop_counted :
    ¬ ∀ n, (stateAt .zero nopInputs n).csrRegs.counters .minstret =
      BitVec.ofNat 64 (numbersAt .zero nopInputs n).retired := by
  have none : NoCsr [] := by decide
  rw [minstret_counts_iff .zero nopInputs (countsFreely_always (script_noCsr none) .minstret)]
  have stray : (numbersAt .zero nopInputs 3).strayWriter (stateAt .zero nopInputs 3)
      (nopInputs 3) = true := by
    decide +kernel
  have noStore : (numbersAt .zero nopInputs 3).newStore (stateAt .zero nopInputs 3)
      (nopInputs 3) = false := by
    decide +kernel
  intro same
  exact absurd (noStore.symm.trans ((same 3).trans stray)) Bool.false_ne_true

/-- `sw x0, 0(x0)` and `sw x0, 4(x0)`, with the responses of the bus in cycles 6 and 10. -/
def twoStoresInputs (n : ℕ) : Inputs :=
  { Inputs.script [0x00002023#32, 0x00002223#32] n with
    bus := ⟨0#32, false, n == 6 || n == 10, true⟩ }

/-- After both stores have completed, the counter is 1, and that for the `nop` of the reset. -/
theorem twoStores_uncounted :
    (∀ n, CountsFreely (stateAt .zero twoStoresInputs n) (twoStoresInputs n) .minstret) ∧
      ¬ ∀ n, (stateAt .zero twoStoresInputs n).csrRegs.counters .minstret =
        BitVec.ofNat 64 (numbersAt .zero twoStoresInputs n).retired := by
  constructor
  · have none : NoCsr [0x00002023#32, 0x00002223#32] := by decide
    have other : ∀ n, InstructionDecode.opcode (twoStoresInputs n).instruction ≠ Instructions.csr :=
      script_noCsr none
    exact countsFreely_always other .minstret
  · have counter : (stateAt .zero twoStoresInputs 11).csrRegs.counters .minstret = 1#64 := by
      decide +kernel
    have both : (numbersAt .zero twoStoresInputs 11).retired = 2 := by decide +kernel
    intro counts
    have late := counts 11
    rw [counter, both] at late
    exact absurd late (by decide)

end MyCpu.PipelinedCPU
