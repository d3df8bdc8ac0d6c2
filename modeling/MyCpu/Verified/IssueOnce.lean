import MyCpu.Verified.PipelineRun

/-! # Issue from ID to EX

`Control` holds ID with `if_stall` and keeps ID/EX from taking the held
instruction with `id_flush`; the two are computed separately.  An instruction that
is not a branch or jump is issued exactly once when, in every unstalled cycle that
holds it, the hazard that holds it also flushes ID/EX, and nothing flushes it out
of IF/ID at the same time.

The store-load hazard holds ID without flushing ID/EX, so a store that completes
in MEM in front of a load in EX issues the instruction of ID a second time. -/

namespace MyCpu.PipelinedCPU

variable (cpu : PipelinedCPU) (io : Inputs)

/-- The fetch logic discards the non-branch in ID: the BTB predicted it taken, or a correction
    recorded in a memory stall is due. -/
def discardsNonBranch : Prop := cpu.if2id.btbPredictedTaken = true ∨ cpu.btbMispredictPending = true

/-- The hazards that hold ID and flush ID/EX. -/
def dependencyHazard : Prop :=
  Control.isLoadUseHazard (ctrl cpu) = true ∨ Control.isJalJalrHazard (ctrl cpu) = true

/-- In an unstalled cycle the hazards on ID neither let it through while they hold it nor hold it
    while it is being discarded. -/
def HoldsPaired : Prop :=
  memStall cpu io = false →
    (Control.storeLoadHazard (ctrl cpu) = true → dependencyHazard cpu ∨ discardsNonBranch cpu) ∧
      (dependencyHazard cpu → ¬ discardsNonBranch cpu)

/-! ## One cycle of a non-branch in ID -/

section Cycle

variable {cpu io}

theorem hazard_nonBranch (nonBranch : isBranchOrJump cpu = false) :
    Control.hazard (ctrl cpu) = true ↔ Control.storeLoadHazard (ctrl cpu) = true ∨
      dependencyHazard cpu := by
  have jump : (ctrl cpu).jumpInstructionId = false := nonBranch
  simp only [Control.hazard, Control.memHazardForBranch, jump, Bool.false_or,
    Bool.false_and, Bool.or_false, dependencyHazard, Control.isLoadUseHazard,
    Control.isJalJalrHazard, Bool.or_eq_true, Bool.and_eq_true]
  tauto

theorem branchHazard_nonBranch (nonBranch : isBranchOrJump cpu = false) :
    branchHazard cpu = false := by
  have jump : (ctrl cpu).jumpInstructionId = false := nonBranch
  simp [branchHazard, Control.branchHazard, Control.exHazardForBranch,
    Control.memHazardForBranch, jump]

theorem opcode_nonBranch (nonBranch : isBranchOrJump cpu = false) : isJalr cpu = false := by
  simp only [isBranchOrJump, InstructionDecode.ctrlJumpInstruction,
    Bool.or_eq_false_iff] at nonBranch
  exact nonBranch.1.2

theorem mispredicted_nonBranch (nonBranch : isBranchOrJump cpu = false)
    (running : memStall cpu io = false) :
    mispredicted cpu io = true ↔ discardsNonBranch cpu := by
  have notJalr := opcode_nonBranch nonBranch
  have notReturn : isReturn cpu = false := by
    simp only [isReturn, InstructionFetch.isReturn, Bool.and_eq_false_iff]
    exact Or.inl (Or.inl notJalr)
  -- Without a JALR in ID only the BTB can be wrong.
  have onlyBtb : mispredicted cpu io = btbMispredict cpu io := by
    simp [mispredicted, rasWrongTarget, ibtbWrongTarget, isIndirectJalr, notJalr, notReturn]
  rw [onlyBtb, btbMispredict, btbMispredictRaw, branchHazard_nonBranch nonBranch,
    pendingCorrectionDue, running, discardsNonBranch]
  cases predicted : cpu.if2id.btbPredictedTaken with
  | true => simp [btbNonBranch, nonBranch, predicted]
  | false => simp [btbWrongDirection, btbNonBranch, btbWrongTarget, btbActuallyUsed, predicted]

theorem dependencyHazard_hazard (nonBranch : isBranchOrJump cpu = false)
    (dependent : dependencyHazard cpu) :
    Control.hazard (ctrl cpu) = true := (hazard_nonBranch nonBranch).mpr (Or.inr dependent)

theorem holdsId_running (nonBranch : isBranchOrJump cpu = false)
    (running : memStall cpu io = false) :
    holdsId cpu io = true ↔ Control.hazard (ctrl cpu) = true ∧ ¬ discardsNonBranch cpu := by
  have stalls : if2idStall cpu io = Control.hazard (ctrl cpu) := by
    simp [if2idStall, Control.ifStall, running]
  have flushes : if2idFlush cpu io = needIfFlush cpu io := by simp [if2idFlush, running]
  rw [holdsId, stalls, flushes, Bool.and_eq_true, Bool.not_eq_true', and_congr_right_iff]
  intro hazard
  rw [needIfFlush_hazard _ _ hazard, ← mispredicted_nonBranch nonBranch running, Bool.not_eq_true]

theorem issuesId_running (nonBranch : isBranchOrJump cpu = false)
    (running : memStall cpu io = false) :
    issuesId cpu io = true ↔ ¬ dependencyHazard cpu := by
  have flushes : id2exFlush cpu io = true ↔ dependencyHazard cpu := by
    simp only [id2exFlush, running, Control.idFlush, Bool.not_false, Bool.true_or,
      Bool.and_true, Bool.and_eq_true, Bool.or_eq_true]
    exact ⟨And.right, fun dependent => ⟨dependencyHazard_hazard nonBranch dependent, dependent⟩⟩
  rw [← flushes, issuesId, running, Bool.not_false, Bool.true_and,
    Bool.not_eq_true', Bool.not_eq_true]

theorem not_issuesId_held (nonBranch : isBranchOrJump cpu = false) (held : holdsId cpu io = true) :
    issuesId cpu io = false ↔ HoldsPaired cpu io := by
  -- a held instruction is kept out of ID/EX exactly when the hazards are paired
  cases stalled : memStall cpu io with
  | true =>
    have blocked : issuesId cpu io = false := by simp [issuesId, stalled]
    have vacuous : HoldsPaired cpu io :=
      fun running => absurd (stalled.symm.trans running) (by decide)
    exact iff_of_true blocked vacuous
  | false =>
    obtain ⟨hazard, kept⟩ := (holdsId_running nonBranch stalled).mp held
    rw [hazard_nonBranch nonBranch] at hazard
    rw [← Bool.not_eq_true, issuesId_running nonBranch stalled, not_not]
    -- A store-load hazard alone would let the held instruction through.
    constructor
    · exact fun dependent _ => ⟨fun _ => Or.inl dependent, fun _ => kept⟩
    · intro paired
      obtain storeLoad | dependent := hazard
      · exact ((paired stalled).1 storeLoad).resolve_right kept
      · exact dependent

theorem issuesId_released (nonBranch : isBranchOrJump cpu = false)
    (released : holdsId cpu io = false) :
    issuesId cpu io = true ↔ HoldsPaired cpu io := by
  -- an instruction that leaves ID is taken by ID/EX exactly when the hazards are paired
  have running := running_leaves released
  have discarded : Control.hazard (ctrl cpu) = true → discardsNonBranch cpu := by
    rw [← Bool.not_eq_true, holdsId_running nonBranch running] at released
    intro hazard
    by_contra kept
    exact released ⟨hazard, kept⟩
  rw [hazard_nonBranch nonBranch] at discarded
  rw [issuesId_running nonBranch running]
  -- A dependency that no longer holds ID means that ID is being discarded, and ID/EX flushed with
  -- it.
  constructor
  · exact fun independent _ =>
      ⟨fun storeLoad => Or.inr (discarded (Or.inl storeLoad)), fun h => absurd h independent⟩
  · exact fun paired dependent => (paired running).2 dependent (discarded (Or.inr dependent))

end Cycle

/-! ## A stay in ID -/

/-- A valid instruction that is not a branch or jump enters IF/ID at the edge of cycle `n`, is held
    there in every cycle before `m`, and leaves at the edge of cycle `m`. -/
structure StaysInId (contents : PowerUp) (inputs : ℕ → Inputs) (n m : ℕ) : Prop where
  accepted : acceptsFetch (stateAt contents inputs n) (inputs n) = true
  entered : n < m
  nonBranch : isBranchOrJump (stateAt contents inputs (n + 1)) = false
  held : ∀ k, n < k → k < m → holdsId (stateAt contents inputs k) (inputs k) = true
  leaves : holdsId (stateAt contents inputs m) (inputs m) = false

/-- ID/EX takes the instruction `id` at the edge of cycle `k`. -/
def ClockedIntoEx (contents : PowerUp) (inputs : ℕ → Inputs) (id : IF2ID) (k : ℕ) : Prop :=
  issuesId (stateAt contents inputs k) (inputs k) = true ∧
    (stateAt contents inputs (k + 1)).id2ex.instruction = id.instruction ∧
    (stateAt contents inputs (k + 1)).id2ex.instructionAddress = id.instructionAddress

namespace StaysInId

variable {contents : PowerUp} {inputs : ℕ → Inputs} {n m : ℕ}

theorem if2id_constant (stay : StaysInId contents inputs n m) {k : ℕ}
    (after : n < k) (within : k ≤ m) :
    (stateAt contents inputs k).if2id = (stateAt contents inputs (n + 1)).if2id := by
  refine Clocked.kept_until after rfl fun j later before same => ?_
  rw [stateAt_succ, if2id_held _ _ (stay.held j later (before.trans_le within)), same]

theorem nonBranch_at (stay : StaysInId contents inputs n m) {k : ℕ}
    (after : n < k) (within : k ≤ m) :
    isBranchOrJump (stateAt contents inputs k) = false := by
  have same := stay.if2id_constant after within
  rw [isBranchOrJump, same]
  exact stay.nonBranch

theorem issued_last (stay : StaysInId contents inputs n m)
    (paired : HoldsPaired (stateAt contents inputs m) (inputs m)) :
    ClockedIntoEx contents inputs (stateAt contents inputs (n + 1)).if2id m := by
  have issued :=
    (issuesId_released (stay.nonBranch_at stay.entered (Nat.le_refl m)) stay.leaves).mpr paired
  refine ⟨issued, ?_, ?_⟩
  · rw [stateAt_succ, id2ex_issued _ _ issued, ← stay.if2id_constant stay.entered (Nat.le_refl m)]
    rfl
  · rw [stateAt_succ, id2ex_issued _ _ issued, ← stay.if2id_constant stay.entered (Nat.le_refl m)]
    rfl

end StaysInId

/-- An instruction that stays in ID while the hazards are paired is clocked into ID/EX exactly
    once. -/
theorem issues_once {contents : PowerUp} {inputs : ℕ → Inputs} {n m : ℕ}
    (stay : StaysInId contents inputs n m)
    (paired : ∀ k, n < k → k ≤ m → HoldsPaired (stateAt contents inputs k) (inputs k)) :
    ∃! k, n < k ∧ k ≤ m ∧ ClockedIntoEx contents inputs
      (stateAt contents inputs (n + 1)).if2id k := by
  refine ⟨m, ⟨stay.entered, Nat.le_refl m, stay.issued_last
    (paired m stay.entered (Nat.le_refl m))⟩, ?_⟩
  rintro k ⟨after, within, issued, _⟩
  by_contra early
  have before : k < m := by omega
  have blocked :=
    (not_issuesId_held (stay.nonBranch_at after within) (stay.held k after before)).mpr
      (paired k after within)
  rw [issued] at blocked
  exact Bool.noConfusion blocked

/-! ## Two runs -/

/-- `lw x2, 0(x0)` and `addi x1, x2, 1`. -/
def loadUseInputs : ℕ → Inputs := .script [0x00002103#32, 0x00110093#32]

instance : Decidable (discardsNonBranch cpu) := inferInstanceAs (Decidable (_ ∨ _))

instance : Decidable (dependencyHazard cpu) := inferInstanceAs (Decidable (_ ∨ _))

instance : Decidable (HoldsPaired cpu io) := inferInstanceAs (Decidable (_ → _))

theorem loadUse_stays : StaysInId .zero loadUseInputs 1 4 where
  accepted := by decide +kernel
  entered := by decide
  nonBranch := by decide +kernel
  held := by
    have held : ∀ k < 4, 1 < k → holdsId (stateAt .zero loadUseInputs k)
        (loadUseInputs k) = true := by
      decide +kernel
    exact fun k after before => held k before after
  leaves := by decide +kernel

/-- The `addi` waits for the load in EX and is issued once. -/
theorem loadUse_issues_once :
    ∃! k, 1 < k ∧ k ≤ 4 ∧ ClockedIntoEx .zero loadUseInputs
      (stateAt .zero loadUseInputs 2).if2id k := by
  have paired : ∀ k < 5, HoldsPaired (stateAt .zero loadUseInputs k) (loadUseInputs k) := by
    decide +kernel
  exact issues_once loadUse_stays fun k _ within => paired k (Nat.lt_succ_of_le within)

/-- `sw x0, 0(x0)`, `lw x2, 0(x0)` and `addi x1, x1, 1`. -/
def storeLoadInputs : ℕ → Inputs := .script [0x00002023#32, 0x00002103#32, 0x00108093#32]

theorem storeLoad_stays : StaysInId .zero storeLoadInputs 2 6 where
  accepted := by decide +kernel
  entered := by decide
  nonBranch := by decide +kernel
  held := by
    have held : ∀ k < 6, 2 < k → holdsId (stateAt .zero storeLoadInputs k)
        (storeLoadInputs k) = true := by
      decide +kernel
    exact fun k after before => held k before after
  leaves := by decide +kernel

/-- The `addi` behind the store and the load is clocked into ID/EX in cycle 4 and again in cycle
    6. -/
theorem storeLoad_issues_twice :
    StaysInId .zero storeLoadInputs 2 6 ∧
      ¬ ∃! k, 2 < k ∧ k ≤ 6 ∧
        ClockedIntoEx .zero storeLoadInputs (stateAt .zero storeLoadInputs 3).if2id k := by
  refine ⟨storeLoad_stays, ?_⟩
  have first : ClockedIntoEx .zero storeLoadInputs (stateAt .zero storeLoadInputs 3).if2id 4 := by
    refine ⟨?_, ?_, ?_⟩ <;> decide +kernel
  have second : ClockedIntoEx .zero storeLoadInputs (stateAt .zero storeLoadInputs 3).if2id 6 := by
    refine ⟨?_, ?_, ?_⟩ <;> decide +kernel
  intro unique
  have same := unique.unique ⟨by decide, by decide, first⟩ ⟨by decide, by decide, second⟩
  exact absurd same (by decide)

end MyCpu.PipelinedCPU
