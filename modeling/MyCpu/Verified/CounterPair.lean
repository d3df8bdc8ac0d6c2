import MyCpu.Verified.PipelineRun

/-! # Reading a counter in two halves

A read of the low word of a counter latches the high word into a shadow, which a
read of the high word returns.  The latch looks at bits 31 to 20 of the word in ID
alone, so any word with the low address in these bits latches again.  The two reads
belong together exactly when the last latch before the second read found the high
word of the first. -/

namespace MyCpu

/-! ## Words of a counter -/

namespace CSR

variable (csr : CSR) {counter : Counter} {address : CsrAddr}

theorem counter_halves (value : BitVec 64) :
    value.extractLsb' 32 32 ++ value.extractLsb' 0 32 = value := by
  rw [BitVec.extractLsb'_append_extractLsb'_eq_extractLsb' (show 32 = 0 + 32 from rfl)]
  exact BitVec.extractLsb'_eq_self

theorem regLUT_low (low : counter.readsLow address = true) :
    csr.regLUT address = (csr.counters counter).extractLsb' 0 32 := by
  simp only [Counter.readsLow, Bool.or_eq_true, Bool.and_eq_true, decide_eq_true_eq] at low
  obtain (rfl | ⟨rfl, rfl⟩) | ⟨rfl, rfl⟩ := low
  · cases counter <;> rfl
  · rfl
  · rfl

theorem regLUT_high (high : counter.readsHigh address = true) :
    csr.regLUT address = csr.shadows counter := by
  simp only [Counter.readsHigh, Bool.or_eq_true, Bool.and_eq_true, decide_eq_true_eq] at high
  obtain (rfl | ⟨rfl, rfl⟩) | ⟨rfl, rfl⟩ := high
  · cases counter <;> rfl
  · rfl
  · rfl

end CSR

namespace PipelinedCPU

/-- Bits 31 to 20 of the word in ID, whatever the word is. -/
def csrAddressId (cpu : PipelinedCPU) : CsrAddr :=
  InstructionDecode.exCsrAddress cpu.if2id.instruction

/-- `CSRRS`, `CSRRC` and their immediate forms with a zero source. -/
def isCsrr (instruction : Word) : Bool :=
  InstructionDecode.opcode instruction = Instructions.csr &&
    (InstructionDecode.funct3 instruction = InstructionsTypeCSR.csrrs ||
      InstructionDecode.funct3 instruction = InstructionsTypeCSR.csrrc ||
      InstructionDecode.funct3 instruction = InstructionsTypeCSR.csrrsi ||
      InstructionDecode.funct3 instruction = InstructionsTypeCSR.csrrci) &&
    InstructionDecode.rs1 instruction = 0#5

/-- A CSR instruction leaves ID. -/
def issuesCsr (cpu : PipelinedCPU) (io : Inputs) : Bool :=
  InstructionDecode.opcode cpu.if2id.instruction = Instructions.csr && issuesId cpu io

/-- A `csrr` leaves ID. -/
def issuesCsrr (cpu : PipelinedCPU) (io : Inputs) : Bool :=
  isCsrr cpu.if2id.instruction && issuesId cpu io

section Run

variable (contents : PowerUp) (inputs : ℕ → Inputs) (counter : Counter) (first second : ℕ)

/-- The low word is read in cycle `first`, and later the high word in cycle `second`. -/
structure ReadsPair : Prop where
  before : first < second
  lowIssued : issuesCsrr (stateAt contents inputs first) (inputs first) = true
  low : counter.readsLow (csrAddressId (stateAt contents inputs first)) = true
  highIssued : issuesCsrr (stateAt contents inputs second) (inputs second) = true
  high : counter.readsHigh (csrAddressId (stateAt contents inputs second)) = true

/-- No CSR instruction on the counter leaves ID between the two reads. -/
def Unaccessed : Prop :=
  ∀ k, first < k → k < second → issuesCsr (stateAt contents inputs k) (inputs k) = true →
    counter.readsLow (csrAddressId (stateAt contents inputs k)) = false ∧
      counter.readsHigh (csrAddressId (stateAt contents inputs k)) = false

/-- The word that the `csrr` of a cycle returns, as it goes into EX. -/
def returned (n : ℕ) : Word := (stateAt contents inputs (n + 1)).id2ex.csrReadData

/-- The two words returned are the counter in the cycle of the first read. -/
def Atomic : Prop :=
  returned contents inputs second ++ returned contents inputs first =
    (stateAt contents inputs first).csrRegs.counters counter

/-- Bits 63 to 32 of the counter in a cycle. -/
def highWord (n : ℕ) : Word :=
  ((stateAt contents inputs n).csrRegs.counters counter).extractLsb' 32 32

/-- In the last cycle between the two reads that has the low address in bits 31 to 20 of the word in
    ID, the high word of the counter is that of the first read. -/
def LastLatchAgrees : Prop :=
  ∀ k, first < k → k < second → counter.readsLow (csrAddressId (stateAt contents inputs k)) = true →
    (∀ j, k < j → j < second → counter.readsLow
      (csrAddressId (stateAt contents inputs j)) = false) →
      highWord contents inputs counter k = highWord contents inputs counter first

end Run

variable {contents : PowerUp} {inputs : ℕ → Inputs} {counter : Counter} {first second : ℕ}

/-- A `csrr` returns what the table holds in the cycle in which it leaves ID. -/
theorem returned_issued {n : ℕ}
    (issued : issuesCsrr (stateAt contents inputs n) (inputs n) = true) :
    returned contents inputs n =
      (stateAt contents inputs n).csrRegs.regLUT (csrAddressId (stateAt contents inputs n)) := by
  rw [issuesCsrr, Bool.and_eq_true] at issued
  rw [returned, stateAt_succ, id2ex_issued _ _ issued.2]
  rfl

theorem shadow_next (n : ℕ) :
    (stateAt contents inputs (n + 1)).csrRegs.shadows counter =
      if counter.readsLow (csrAddressId (stateAt contents inputs n)) then
        highWord contents inputs counter n
      else (stateAt contents inputs n).csrRegs.shadows counter := rfl

/-- After a latch the shadow holds the high word of the last latch. -/
theorem shadow_latched (before : first < second)
    (low : counter.readsLow (csrAddressId (stateAt contents inputs first)) = true) :
    ∃ k, first ≤ k ∧ k < second ∧ counter.readsLow
      (csrAddressId (stateAt contents inputs k)) = true ∧
      (∀ j, k < j → j < second → counter.readsLow
        (csrAddressId (stateAt contents inputs j)) = false) ∧
      (stateAt contents inputs second).csrRegs.shadows counter =
        highWord contents inputs counter k := by
  induction second with
  | zero => exact absurd before (Nat.not_lt_zero first)
  | succ n inductionHypothesis =>
    rw [shadow_next]
    cases latches : counter.readsLow (csrAddressId (stateAt contents inputs n)) with
    | true =>
      exact ⟨n, Nat.le_of_lt_succ before, Nat.lt_succ_self n, latches,
        fun j after bound => by omega, if_pos rfl⟩
    | false =>
      -- the first latch is not in this cycle
      have earlier : first < n := by
        by_contra late
        obtain rfl : first = n := by omega
        rw [low] at latches
        cases latches
      obtain ⟨k, after, bound, latched, last, shadow⟩ := inductionHypothesis earlier
      refine ⟨k, after, by omega, latched, fun j later within => ?_, shadow⟩
      by_cases now : j = n
      · rw [now, latches]
      · exact last j later (by omega)

/-- Two words make up a counter exactly when they are its halves. -/
theorem halves_iff (value : BitVec 64) (high : Word) :
    high ++ value.extractLsb' 0 32 = value ↔ high = value.extractLsb' 32 32 := by
  constructor
  · intro same
    have upper := congrArg (BitVec.extractLsb' 32 32) same
    rwa [BitVec.extractLsb'_append_eq_left] at upper
  · intro same
    rw [same, CSR.counter_halves]

/-- The two reads belong together exactly when the last latch agrees with the first. -/
theorem atomic_iff (contents : PowerUp) (inputs : ℕ → Inputs) (counter : Counter) (first second : ℕ)
    (pair : ReadsPair contents inputs counter first second) :
    Atomic contents inputs counter first second ↔
      LastLatchAgrees contents inputs counter first second := by
  obtain ⟨k, after, bound, latched, last, shadow⟩ := shadow_latched pair.before pair.low
  rw [Atomic, returned_issued pair.lowIssued, returned_issued pair.highIssued,
    CSR.regLUT_low _ pair.low, CSR.regLUT_high _ pair.high, halves_iff, shadow, ← highWord]
  constructor
  · intro same j later within relatched lastToo
    -- there is only one last latch
    have unique : j = k := by
      by_contra other
      cases Nat.lt_or_gt_of_ne other with
      | inl less => exact Bool.noConfusion (latched.symm.trans (lastToo k less bound))
      | inr greater => exact Bool.noConfusion (relatched.symm.trans (last j greater within))
    rw [unique, same]
  · intro agrees
    by_cases again : first < k
    · exact agrees k again bound latched last
    · obtain rfl : first = k := by omega
      rfl

/-! ## Two runs -/

/-- `mcycle` is set to `2^32 - 2`, and read as `cycle` and `cycleh` with one instruction in between:
    `addi x1, x0, -2`, `csrrw x0, mcycle, x1`, two `nop`, `csrrs x2, cycle, x0`, `word`, `csrrs x4,
    cycleh, x0`. -/
def cycleRead (word : Word) : ℕ → Inputs :=
  .script [0xffe00093#32, 0xb0009073#32, 0x00000013#32, 0x00000013#32,
    0xc0002173#32, word, 0xc8002273#32]

theorem nopBetween_reads : ReadsPair .zero (cycleRead InstructionsNop.nop) .mcycle 5 7 where
  before := by decide
  lowIssued := by decide +kernel
  low := by decide +kernel
  highIssued := by decide +kernel
  high := by decide +kernel

/-- With a `nop` in between, the pair is `0x00000000`, `0xffffffff`. -/
theorem nopBetween_atomic :
    (Atomic .zero (cycleRead InstructionsNop.nop) .mcycle 5 7 ↔
      LastLatchAgrees .zero (cycleRead InstructionsNop.nop) .mcycle 5 7) ∧
      returned .zero (cycleRead InstructionsNop.nop) 5 = 0xffffffff#32 ∧
      returned .zero (cycleRead InstructionsNop.nop) 7 = 0x00000000#32 :=
  ⟨atomic_iff .zero
    (cycleRead InstructionsNop.nop) .mcycle 5 7 nopBetween_reads, by
      decide +kernel, by decide +kernel⟩

/-- With `addi x3, x0, -1024` in between, whose immediate is the address of `cycle`, the high word
    comes from after the carry. -/
theorem addiBetween_torn :
    ReadsPair .zero (cycleRead 0xc0000193#32) .mcycle 5 7 ∧
      Unaccessed .zero (cycleRead 0xc0000193#32) .mcycle 5 7 ∧
      ¬ Atomic .zero (cycleRead 0xc0000193#32) .mcycle 5 7 := by
  refine ⟨⟨by decide, by decide +kernel, by decide +kernel, by decide +kernel, by decide +kernel⟩,
    ?_, ?_⟩
  · intro k after before
    obtain rfl : k = 6 := by omega
    decide +kernel
  · have torn : returned .zero (cycleRead 0xc0000193#32) 7 ++ returned .zero
        (cycleRead 0xc0000193#32) 5 ≠
        (stateAt .zero (cycleRead 0xc0000193#32) 5).csrRegs.counters .mcycle := by decide +kernel
    exact torn

end PipelinedCPU

end MyCpu
