import MyCpu.Verified.FetchStage

/-! # A taken transfer redirects fetch once

A branch or jump that ID resolves as taken, without a predictor hit, sends fetch to
its target when it leaves ID.  The argument follows the fetch stage through two
phases.  While ID is vacant, the pc and everything that can still redirect it lie in
a set of addresses, at first the target alone.  While the target itself sits in ID,
what can redirect fetch is an outcome of the target, so the next address is one of
its successors. -/

namespace MyCpu.PipelinedCPU

variable (cpu : PipelinedCPU) (io : Inputs)

/-- A cycle without a valid fetch does not hit the BTB. -/
def InvalidFetchMisses : Prop :=
  io.instructionValid = false → cpu.instFetch.btb.predictedTaken cpu.instFetch.pc = false

/-- The pc and every latched redirect lie in `addresses`. -/
structure FetchesWithin (addresses : Set Word) : Prop where
  pc : cpu.instFetch.pc ∈ addresses
  pendingJump : cpu.instFetch.pendingJump = true → cpu.instFetch.pendingJumpAddr ∈ addresses
  prevJump : cpu.instFetch.prevJumpFlag = true → cpu.instFetch.prevJumpAddr ∈ addresses

/-! ## The fetch stage -/

section Fetch

variable {cpu io}

theorem fetchesWithin_stalled {addresses : Set Word} (within : FetchesWithin cpu addresses)
    (stalled : fetchStall cpu io = true)
    (resolved : actualTaken cpu io = true → actualTarget cpu io ∈ addresses) :
    FetchesWithin (step cpu io) addresses where
  pc := by
    rw [step, pc_held stalled]
    exact within.pc
  pendingJump := by
    intro pending
    simp only [step, stepWith, InstructionFetch.step, InstructionFetch.nextPendingJump,
      InstructionFetch.nextPendingJumpAddr, InstructionFetch.latchJump, fetchInputs, stalled,
      Bool.true_and] at pending ⊢
    -- The latch takes the jump of this cycle, else that of the previous one, else keeps what it
    -- holds.
    cases taken : actualTaken cpu io with
    | true => simpa [taken] using resolved taken
    | false =>
      cases previous : cpu.instFetch.prevJumpFlag with
      | true => simpa [taken, previous] using within.prevJump previous
      | false =>
        simp only [taken, previous, Bool.or_self, Bool.false_eq_true, if_false,
          Bool.not_true] at pending ⊢
        exact within.pendingJump pending
  prevJump := resolved

theorem fetchesWithin_running {addresses : Set Word} (within : FetchesWithin cpu addresses)
    (running : fetchStall cpu io = false)
    (resolved : actualTaken cpu io = true → actualTarget cpu io ∈ addresses)
    (corrected : btbMispredict cpu io = true → btbCorrectionAddr cpu io ∈ addresses)
    (following : io.instructionValid = true → Redirects cpu io) :
    FetchesWithin (step cpu io) addresses where
  pc := by
    rw [step, pc_running running]
    split_ifs with pending mispredict taken valid
    · exact within.pendingJump pending
    · exact corrected mispredict
    · exact resolved (Bool.and_eq_true_iff.mp taken).1
    · obtain latched | mispredicted | ⟨jumps, missed⟩ := following valid
      · exact absurd latched pending
      · exact absurd mispredicted mispredict
      · exact absurd (by rw [jumps, missed]; rfl) taken
    · exact within.pc
  pendingJump := by
    intro pending
    rw [pendingJump_running running] at pending
    exact Bool.noConfusion pending
  prevJump := resolved

end Fetch

/-! ## The two phases -/

/-- ID is vacant and fetch stays within `addresses`. -/
structure Vacant (addresses : Set Word) : Prop where
  id : idVacant cpu
  settled : cpu.btbMispredictPending = false
  fetches : FetchesWithin cpu addresses

section Phases

variable {cpu io} {addresses : Set Word}

theorem idVacant_captured (kept : if2idFlush cpu io = false) (running : fetchStall cpu io = false)
    (invalid : io.instructionValid = false) (misses : InvalidFetchMisses cpu io) :
    idVacant (step cpu io) := by
  have captured : (step cpu io).if2id = if2idInput cpu.instFetch.predict cpu io := by
    rw [fetchStall_eq] at running
    simp only [step, stepWith, running, kept, pipelineRegister_capture]
  have notReturn : InstructionFetch.speculativeRasPop (fetchInputs cpu io) = false := by
    simp [InstructionFetch.speculativeRasPop, fetchInputs, invalid]
  have notIndirect : InstructionFetch.isIndirectJalr (fetchInputs cpu io) = false := by
    simp [InstructionFetch.isIndirectJalr, fetchInputs, invalid]
  rw [idVacant, captured]
  refine ⟨?_, misses invalid, ?_, ?_⟩
  · simp [if2idInput, InstructionFetch.idInstruction, fetchInputs, invalid]
  · simp [if2idInput, InstructionFetch.rasPredictedValid, notReturn]
  · simp [if2idInput, InstructionFetch.ibtbPredictionHit, notIndirect]

theorem Vacant.step (vacant : Vacant cpu addresses) (noTrap : interruptAssert cpu io = false)
    (misses : InvalidFetchMisses cpu io) (waits : acceptsFetch cpu io = false) :
    Vacant (step cpu io) addresses := by
  -- a vacant ID stays vacant, and fetch stays where it is, until the next valid fetch
  have notTaken := idVacant_actualTaken vacant.id noTrap
  have noFlush : if2idFlush cpu io = false := by
    rw [if2idFlush, idVacant_needIfFlush vacant.id noTrap vacant.settled]
    exact Bool.false_and _
  have correct : btbMispredict cpu io = false := by
    simp [btbMispredict, idVacant_btbMispredictRaw vacant.id, pendingCorrectionDue, vacant.settled]
  have settled : (PipelinedCPU.step cpu io).btbMispredictPending = false := by
    simp [PipelinedCPU.step, stepWith, nextBtbMispredictPending,
      idVacant_btbMispredictRaw vacant.id, vacant.settled]
  have notResolved : actualTaken cpu io = true → actualTarget cpu io ∈
      addresses := by simp [notTaken]
  cases stalls : fetchStall cpu io with
  | true =>
    have held : (PipelinedCPU.step cpu io).if2id = cpu.if2id :=
      if2id_held cpu io (by rw [holdsId, ← fetchStall_eq, stalls, noFlush]; rfl)
    refine ⟨?_, settled, fetchesWithin_stalled vacant.fetches stalls notResolved⟩
    rw [idVacant, held]
    exact vacant.id
  | false =>
    have invalid : io.instructionValid = false := by
      simpa [acceptsFetch, ← fetchStall_eq, stalls, noFlush] using waits
    refine ⟨idVacant_captured noFlush stalls invalid misses, settled, ?_⟩
    exact fetchesWithin_running vacant.fetches stalls notResolved
      (by simp [correct]) (by simp [invalid])

/-- The fetched instruction `fetched` is in ID, and fetch stays within `addresses`. -/
structure Occupied (cpu : PipelinedCPU) (fetched : IF2ID) (addresses : Set Word) : Prop where
  id : cpu.if2id = fetched
  correction : cpu.btbMispredictPending = true → cpu.btbCorrectionAddrPending ∈ addresses
  fetches : FetchesWithin cpu addresses

theorem Occupied.step {fetched : IF2ID} (occupied : Occupied cpu fetched addresses)
    (sequential : fetched.instructionAddress + 4#32 ∈ addresses)
    (resolved : actualTaken cpu io = true → actualTarget cpu io ∈ addresses)
    (misses : InvalidFetchMisses cpu io) (waits : acceptsFetch cpu io = false) :
    (holdsId cpu io = true ∧ Occupied (step cpu io) fetched addresses) ∨
      Vacant (step cpu io) addresses := by
  -- while an instruction sits in ID every redirect is one of its outcomes; it stays there or leaves
  -- ID vacant, until the next valid fetch
  have raw : btbMispredictRaw cpu io = true → btbCorrectionAddrRaw cpu io ∈ addresses := by
    intro _
    rw [btbCorrectionAddrRaw, occupied.id]
    split_ifs with wrongTarget
    · simp only [btbWrongTarget, Bool.and_eq_true] at wrongTarget
      exact resolved wrongTarget.1.2
    · exact sequential
  have corrected : btbMispredict cpu io = true → btbCorrectionAddr cpu io ∈ addresses := by
    intro mispredict
    rw [btbCorrectionAddr]
    split_ifs with due
    · simp only [pendingCorrectionDue, Bool.and_eq_true] at due
      exact occupied.correction due.1
    · rw [btbMispredict, Bool.eq_false_iff.mpr due, Bool.or_false] at mispredict
      exact raw mispredict
  cases stalls : fetchStall cpu io with
  | true =>
    have fetches := fetchesWithin_stalled occupied.fetches stalls resolved
    cases flushes : if2idFlush cpu io with
    | true =>
      -- A hazard holds ID while the instruction is flushed: fetch has not moved.
      have running : memStall cpu io = false := by
        rw [if2idFlush, Bool.and_eq_true, Bool.not_eq_true'] at flushes
        exact flushes.2
      exact Or.inr ⟨idVacant_flushed flushes, btbMispredictPending_running running, fetches⟩
    | false =>
      have holds : holdsId cpu io = true := by rw [holdsId, ← fetchStall_eq, stalls, flushes]; rfl
      refine Or.inl ⟨holds, (if2id_held cpu io holds).trans occupied.id, ?_, fetches⟩
      intro pending
      simp only [PipelinedCPU.step, stepWith, nextBtbMispredictPending,
        nextBtbCorrectionAddrPending] at pending ⊢
      split_ifs at pending ⊢ with recorded
      · exact raw (Bool.and_eq_true_iff.mp recorded).2
      · exact occupied.correction pending
  | false =>
    have running : memStall cpu io = false := (Bool.or_eq_false_iff.mp stalls).2
    cases flushes : if2idFlush cpu io with
    | true =>
      have needed : needIfFlush cpu io = true := (Bool.and_eq_true_iff.mp flushes).1
      refine Or.inr ⟨idVacant_flushed flushes, btbMispredictPending_running running, ?_⟩
      exact fetchesWithin_running occupied.fetches stalls resolved corrected
        fun _ => needIfFlush_redirects needed
    | false =>
      have invalid : io.instructionValid = false := by
        simpa [acceptsFetch, ← fetchStall_eq, stalls, flushes] using waits
      refine Or.inr ⟨idVacant_captured flushes stalls invalid misses,
        btbMispredictPending_running running, ?_⟩
      exact fetchesWithin_running occupied.fetches stalls resolved corrected (by simp [invalid])

end Phases

/-! ## Leaving ID -/

/-- A taken branch or jump leaves ID, and no predictor had reported a hit for it. -/
structure TransferLeaves : Prop where
  taken : branchTaken cpu io = true
  noTrap : interruptAssert cpu io = false
  btb : cpu.if2id.btbPredictedTaken = false
  ras : cpu.if2id.rasPredictedValid = false
  ibtb : cpu.if2id.ibtbPredictedValid = false
  leaves : holdsId cpu io = false

/-- Nothing behind the transfer repeats its redirect: EX holds no load or store, and a jump that is
    already latched has the target of the transfer. -/
structure RedirectsCleanly : Prop where
  noLoad : cpu.id2ex.memoryReadEnable = false
  noStore : cpu.id2ex.memoryWriteEnable = false
  latched : cpu.instFetch.pendingJump = true → cpu.instFetch.pendingJumpAddr = actualTarget cpu io

/-- EX and MEM hold no load or store and the memory stage is idle. -/
structure Drained : Prop where
  exRead : cpu.id2ex.memoryReadEnable = false
  exWrite : cpu.id2ex.memoryWriteEnable = false
  memRead : cpu.ex2mem.memoryReadEnable = false
  memWrite : cpu.ex2mem.memoryWriteEnable = false
  idle : cpu.mem.memAccessState = .idle

section Leaving

variable {cpu io}

theorem Drained.memStall (drained : Drained cpu) : memStall cpu io = false := by
  simp [PipelinedCPU.memStall, MemoryAccess.ctrlStallFlag, drained.idle,
    drained.memRead, drained.memWrite]

theorem Drained.fetchStall (drained : Drained cpu) (vacant : idVacant cpu) :
    fetchStall cpu io = false := by
  have rs1 : rs1Id cpu = 0#5 := by
    rw [rs1Id, vacant.1]
    decide
  have rs2 : rs2Id cpu = 0#5 := by
    rw [rs2Id, vacant.1]
    decide
  have unnamed : ∀ rd, Control.names (ctrl cpu) rd = false := by
    intro rd
    have sources : (ctrl cpu).rs1Id = 0#5 ∧ (ctrl cpu).rs2Id = 0#5 := ⟨rs1, rs2⟩
    by_cases zero : rd = 0#5
    · simp [Control.names, zero]
    · simp [Control.names, sources.1, sources.2, zero]
  have noStore : (ctrl cpu).memoryWriteEnableMem = false := drained.memWrite
  have noHazard : Control.hazard (ctrl cpu) = false := by
    simp [Control.hazard, Control.memHazardForBranch, Control.storeLoadHazard,
      Control.jalJalrHazardEx, Control.jalJalrHazardMem, Control.jalJalrHazardWb, unnamed, noStore]
  rw [PipelinedCPU.fetchStall, pcStall, Control.pcStall, noHazard, drained.memStall, Bool.or_self]

theorem Drained.step (drained : Drained cpu) (vacant : idVacant cpu) : Drained (step cpu io) := by
  have running : PipelinedCPU.memStall cpu io = false := drained.memStall
  have load : InstructionDecode.exMemoryReadEnable cpu.if2id.instruction = false := by
    rw [vacant.1]
    decide
  have store : InstructionDecode.exMemoryWriteEnable cpu.if2id.instruction = false := by
    rw [vacant.1]
    decide
  refine ⟨?_, ?_, ?_, ?_, memAccessState_running cpu io running⟩
  · cases flushed : id2exFlush cpu io with
    | true => simp [PipelinedCPU.step, stepWith, flushed, ID2EX.bubble]
    | false => simp [PipelinedCPU.step, stepWith, flushed, running, id2exInput, load]
  · cases flushed : id2exFlush cpu io with
    | true => simp [PipelinedCPU.step, stepWith, flushed, ID2EX.bubble]
    | false => simp [PipelinedCPU.step, stepWith, flushed, running, id2exInput, store]
  · simp [PipelinedCPU.step, stepWith, running, ex2memInput, drained.exRead]
  · simp [PipelinedCPU.step, stepWith, running, ex2memInput, drained.exWrite]

theorem TransferLeaves.fetchStall (transfer : TransferLeaves cpu io)
    (settled : cpu.btbMispredictPending = false) :
    fetchStall cpu io = false := by
  have correct : mispredicted cpu io = false := by
    simp [mispredicted, btbMispredict, btbMispredictRaw, btbWrongDirection,
      btbNonBranch, btbWrongTarget, btbActuallyUsed, pendingCorrectionDue, rasWrongTarget,
      ibtbWrongTarget, transfer.btb, transfer.ras, transfer.ibtb, settled]
  have leaves := transfer.leaves
  rw [holdsId, ← fetchStall_eq, Bool.and_eq_false_iff, Bool.not_eq_false'] at leaves
  obtain running | flushed := leaves
  · exact running
  · -- Flushed while something stalls: only a hazard can, and it masks the flush of the transfer.
    rw [if2idFlush, Bool.and_eq_true, Bool.not_eq_true'] at flushed
    cases hazard : Control.hazard (ctrl cpu) with
    | true =>
      rw [needIfFlush_hazard cpu io hazard, correct] at flushed
      exact absurd flushed.1 Bool.false_ne_true
    | false => rw [PipelinedCPU.fetchStall, pcStall, Control.pcStall, hazard,
        flushed.2, Bool.or_self]

/-- After the transfer has left, ID is vacant, fetch is at the target and nothing is latched. -/
structure Redirected (cpu : PipelinedCPU) (target : Word) : Prop where
  vacant : Vacant cpu {target}
  unlatched : cpu.instFetch.pendingJump = false
  drained : Drained cpu

theorem TransferLeaves.redirected (transfer : TransferLeaves cpu io)
    (settled : cpu.btbMispredictPending = false)
    (clean : RedirectsCleanly cpu io) : Redirected (step cpu io) (actualTarget cpu io) := by
  have running := transfer.fetchStall settled
  have noHazard : Control.hazard (ctrl cpu) = false := (Bool.or_eq_false_iff.mp running).1
  have noMemStall : PipelinedCPU.memStall cpu io = false := (Bool.or_eq_false_iff.mp running).2
  have taken : actualTaken cpu io = true := by
    simp [actualTaken, InstructionDecode.ifJumpFlag, transfer.taken]
  have unpredicted : predictionCorrect cpu io = false := by
    simp [predictionCorrect, btbCorrectPrediction, btbActuallyUsed,
      rasCorrectPredict, ibtbCorrectPredict, transfer.btb, transfer.ras, transfer.ibtb]
  have unused : btbCorrectPrediction cpu io = false := by
    simp only [predictionCorrect, Bool.or_eq_false_iff] at unpredicted
    exact unpredicted.1.1
  have correct : btbMispredict cpu io = false := by
    simp [btbMispredict, btbMispredictRaw, btbWrongDirection, btbNonBranch,
      btbWrongTarget, btbActuallyUsed, pendingCorrectionDue, transfer.btb, settled]
  have flushed : if2idFlush cpu io = true := by
    simp [if2idFlush, needIfFlush, Control.ifFlush, noHazard, taken, unpredicted, noMemStall]
  have issued : id2exFlush cpu io = false := by simp [id2exFlush, Control.idFlush, noHazard]
  -- The opcode of a taken transfer is not that of a load or a store.
  have opcode : InstructionDecode.exMemoryReadEnable cpu.if2id.instruction = false ∧
      InstructionDecode.exMemoryWriteEnable cpu.if2id.instruction = false := by
    have jumps := transfer.taken
    simp only [branchTaken, InstructionDecode.branchTaken, Bool.and_eq_true,
      Bool.or_eq_true, decide_eq_true_eq]
      at jumps
    obtain (jal | jalr) | ⟨branch, _⟩ := jumps.2
    · simp only [InstructionDecode.exMemoryReadEnable, InstructionDecode.exMemoryWriteEnable, jal]
      decide
    · simp only [InstructionDecode.exMemoryReadEnable, InstructionDecode.exMemoryWriteEnable, jalr]
      decide
    · simp only [InstructionDecode.exMemoryReadEnable,
        InstructionDecode.exMemoryWriteEnable, branch]
      decide
  refine ⟨⟨idVacant_flushed flushed, btbMispredictPending_running noMemStall, ?_, ?_, ?_⟩, ?_, ?_⟩
  · rw [PipelinedCPU.step, pc_running running, correct, taken, unused]
    cases pending : cpu.instFetch.pendingJump with
    | true => exact clean.latched pending
    | false => rfl
  · rw [pendingJump_running running]
    exact fun pending => Bool.noConfusion pending
  · exact fun _ => rfl
  · exact pendingJump_running running
  · refine ⟨?_, ?_, ?_, ?_, memAccessState_running cpu io noMemStall⟩
    · simp [PipelinedCPU.step, stepWith, issued, noMemStall, id2exInput, opcode.1]
    · simp [PipelinedCPU.step, stepWith, issued, noMemStall, id2exInput, opcode.2]
    · simp [PipelinedCPU.step, stepWith, noMemStall, ex2memInput, clean.noLoad]
    · simp [PipelinedCPU.step, stepWith, noMemStall, ex2memInput, clean.noStore]

theorem Redirected.step {target : Word} (redirected : Redirected cpu target)
    (noTrap : interruptAssert cpu io = false) (misses : InvalidFetchMisses cpu io)
    (waits : acceptsFetch cpu io = false) : Redirected (step cpu io) target where
  vacant := redirected.vacant.step noTrap misses waits
  unlatched := pendingJump_running (redirected.drained.fetchStall redirected.vacant.id)
  drained := redirected.drained.step redirected.vacant.id

end Leaving

/-! ## The next two fetches -/

/-- A correction is only recorded for an instruction that the BTB predicted taken. -/
def CorrectionPredicted : Prop :=
  cpu.btbMispredictPending = true → cpu.if2id.btbPredictedTaken = true

theorem btbMispredictRaw_predicted (raw : btbMispredictRaw cpu io = true) :
    cpu.if2id.btbPredictedTaken = true := by
  simp only [btbMispredictRaw, btbWrongDirection, btbNonBranch, btbWrongTarget,
    btbActuallyUsed, Bool.and_eq_true, Bool.or_eq_true] at raw
  obtain (direction | nonBranch) | target := raw.1
  · exact direction.1.1
  · exact nonBranch.1
  · exact target.1.1.1.1

theorem correctionPredicted_step (predicted : CorrectionPredicted cpu) :
    CorrectionPredicted (step cpu io) := by
  intro pending
  cases stalled : memStall cpu io with
  | false =>
    rw [btbMispredictPending_running stalled] at pending
    exact Bool.noConfusion pending
  | true =>
    rw [if2id_held cpu io (holdsId_memStall stalled)]
    cases raw : btbMispredictRaw cpu io with
    | true => exact btbMispredictRaw_predicted cpu io raw
    | false =>
      apply predicted
      simpa [step, stepWith, nextBtbMispredictPending, stalled, raw] using pending

section Run

variable {contents : PowerUp} {inputs : ℕ → Inputs}

theorem correctionPredicted_at (n : ℕ) : CorrectionPredicted (stateAt contents inputs n) := by
  have initial : CorrectionPredicted (powerUp contents) := fun pending => Bool.noConfusion pending
  exact Clocked.invariant_always initial (fun cpu io => correctionPredicted_step cpu io) n

variable (contents inputs)

/-- Cycle `m` is the first one after `n` in which IF/ID takes a valid instruction. -/
structure NextAccept (n m : ℕ) : Prop where
  after : n < m
  accepts : acceptsFetch (stateAt contents inputs m) (inputs m) = true
  none : ∀ k, n < k → k < m → acceptsFetch (stateAt contents inputs k) (inputs k) = false

/-- What follows the instruction that IF/ID takes in cycle `n`: the predicted address, the
    sequential one, or a target that it is resolved to while it sits in ID, up to cycle `m`. -/
def Successor (n m : ℕ) (address : Word) : Prop :=
  address = (stateAt contents inputs (n + 1)).if2id.predictedNext ∨
    address = (stateAt contents inputs n).instFetch.pc + 4#32 ∨
    ∃ k, n < k ∧ k ≤ m ∧
    (∀ j, n < j → j < k → holdsId (stateAt contents inputs j) (inputs j) = true) ∧
      actualTaken (stateAt contents inputs k) (inputs k) = true ∧
      address = actualTarget (stateAt contents inputs k) (inputs k)

/-- Between cycles `n` and `m` no trap redirects fetch and no invalid fetch hits the BTB. -/
structure Undisturbed (n m : ℕ) : Prop where
  noTrap : ∀ k, n < k → k ≤ m → interruptAssert (stateAt contents inputs k) (inputs k) = false
  misses : ∀ k, n < k → k ≤ m → InvalidFetchMisses (stateAt contents inputs k) (inputs k)

variable {contents inputs} {n a b : ℕ}

theorem redirected_until {target : Word}
    (redirected : Redirected (stateAt contents inputs (n + 1)) target)
    (undisturbed : Undisturbed contents inputs n a) (first : NextAccept contents inputs n a)
    {k : ℕ} (after : n < k)
    (within : k ≤ a) : Redirected (stateAt contents inputs k) target := by
  -- until the next valid fetch the pipeline stays redirected
  refine Clocked.kept_until after redirected fun j later before redirected => ?_
  have bound : j ≤ a := before.le.trans within
  exact redirected.step (undisturbed.noTrap j later bound) (undisturbed.misses j later bound)
    (first.none j later (before.trans_le within))

theorem occupied_accepted {target : Word} {addresses : Set Word}
    (redirected : Redirected (stateAt contents inputs a) target)
    (noTrap : interruptAssert (stateAt contents inputs a) (inputs a) = false)
    (accepts : acceptsFetch (stateAt contents inputs a) (inputs a) = true)
    (predicted : (stateAt contents inputs (a + 1)).if2id.predictedNext ∈ addresses) :
    Occupied (stateAt contents inputs (a + 1))
      (stateAt contents inputs (a + 1)).if2id addresses := by
  have notTaken := idVacant_actualTaken redirected.vacant.id noTrap
  have running : fetchStall (stateAt contents inputs a) (inputs a) = false :=
    redirected.drained.fetchStall redirected.vacant.id
  have noMemStall : memStall (stateAt contents inputs a) (inputs a) = false :=
    redirected.drained.memStall
  have correct : btbMispredict (stateAt contents inputs a) (inputs a) = false := by
    simp [btbMispredict, idVacant_btbMispredictRaw redirected.vacant.id, pendingCorrectionDue,
      redirected.vacant.settled]
  have valid : (inputs a).instructionValid = true := (Bool.and_eq_true_iff.mp accepts).2
  refine ⟨rfl, ?_, ?_, ?_, ?_⟩
  · intro pending
    rw [stateAt_succ, btbMispredictPending_running noMemStall] at pending
    exact Bool.noConfusion pending
  · rw [stateAt_succ, if2id_accepted _ _ accepts] at predicted
    rw [stateAt_succ, step, pc_running running, redirected.unlatched, correct, notTaken, valid]
    exact predicted
  · intro pending
    rw [stateAt_succ, pendingJump_running running] at pending
    exact Bool.noConfusion pending
  · intro jumped
    exact absurd (notTaken.symm.trans jumped) Bool.false_ne_true

/-- After a clean redirect the next valid instruction is the target, and the one after it is a
    successor of the target. -/
theorem redirects_once (transfer : TransferLeaves (stateAt contents inputs n) (inputs n))
    (clean : RedirectsCleanly (stateAt contents inputs n) (inputs n))
    (first : NextAccept contents inputs n a) (second : NextAccept contents inputs a b)
    (undisturbed : Undisturbed contents inputs n b) :
    (stateAt contents inputs a).instFetch.pc = actualTarget (stateAt contents inputs n) (inputs n) ∧
      Successor contents inputs a b (stateAt contents inputs b).instFetch.pc := by
  have settled : (stateAt contents inputs n).btbMispredictPending = false := by
    rw [← Bool.not_eq_true]
    intro pending
    have predicted := correctionPredicted_at n pending
    rw [transfer.btb] at predicted
    exact Bool.noConfusion predicted
  have early : Undisturbed contents inputs n a :=
    ⟨fun k after within => undisturbed.noTrap k after (within.trans (Nat.le_of_lt second.after)),
      fun k after within => undisturbed.misses k after (within.trans (Nat.le_of_lt second.after))⟩
  have redirected : Redirected (stateAt contents inputs a)
      (actualTarget (stateAt contents inputs n) (inputs n)) :=
    redirected_until (transfer.redirected settled clean) early first first.after (Nat.le_refl a)
  refine ⟨redirected.vacant.fetches.pc, ?_⟩
  -- From the target's first cycle in ID, fetch stays within its successors.
  have phase : ∀ k, a < k → k ≤ b →
      ((∀ j, a < j → j < k → holdsId (stateAt contents inputs j) (inputs j) = true) ∧
        Occupied (stateAt contents inputs k) (stateAt contents inputs (a + 1)).if2id
          {address | Successor contents inputs a b address}) ∨
        Vacant (stateAt contents inputs k) {address | Successor contents inputs a b address} := by
    intro k after within
    induction k, after using Nat.le_induction with
    | base =>
      refine Or.inl ⟨fun j later before => by omega, ?_⟩
      exact occupied_accepted redirected
        (early.noTrap a first.after (Nat.le_refl a)) first.accepts (Or.inl rfl)
    | succ k after inductionHypothesis =>
      have bound : k ≤ b := Nat.le_of_succ_le within
      have noTrap := undisturbed.noTrap k (first.after.trans after) bound
      have misses := undisturbed.misses k (first.after.trans after) bound
      have waits := second.none k after within
      obtain ⟨held, occupied⟩ | vacant := inductionHypothesis bound
      · have fetched : (stateAt contents inputs (a + 1)).if2id.instructionAddress =
            (stateAt contents inputs a).instFetch.pc := by
          rw [stateAt_succ, if2id_accepted _ _ first.accepts]
          rfl
        have outcome := occupied.step (Or.inr (Or.inl (by rw [fetched])))
          (fun taken => Or.inr (Or.inr ⟨k, after, bound, held, taken, rfl⟩)) misses waits
        obtain ⟨holds, occupied⟩ | vacant := outcome
        · refine Or.inl ⟨fun j later before => ?_, occupied⟩
          obtain earlier | rfl := Nat.lt_succ_iff_lt_or_eq.mp before
          · exact held j later earlier
          · exact holds
        · exact Or.inr vacant
      · exact Or.inr (vacant.step noTrap misses waits)
  obtain ⟨_, occupied⟩ | vacant := phase b second.after (Nat.le_refl b)
  · exact occupied.fetches.pc
  · exact vacant.fetches.pc

end Run

/-! ## Two runs -/

/-- `jal x1, 8` from the entry address, and `addi x2, x1, 0` and `addi x3, x2, 0` at its target. -/
def jalInputs : ℕ → Inputs :=
  .script [0x008000EF#32, InstructionsNop.nop, 0x00008113#32, 0x00010193#32]

/-- The target waits in ID for the link register, so that fetch stalls in cycles 3 and 4. -/
theorem jal_redirects_once :
    (stateAt .zero jalInputs 2).instFetch.pc =
      actualTarget (stateAt .zero jalInputs 1) (jalInputs 1) ∧
      fetchStall (stateAt .zero jalInputs 3) (jalInputs 3) = true ∧
      fetchStall (stateAt .zero jalInputs 4) (jalInputs 4) = true ∧
      Successor .zero jalInputs 2 5 (stateAt .zero jalInputs 5).instFetch.pc := by
  have transfer : TransferLeaves (stateAt .zero jalInputs 1) (jalInputs 1) := by
    refine ⟨?_, ?_, ?_, ?_, ?_, ?_⟩ <;> decide +kernel
  have clean : RedirectsCleanly (stateAt .zero jalInputs 1) (jalInputs 1) := by
    refine ⟨?_, ?_, ?_⟩ <;> decide +kernel
  have first : NextAccept .zero jalInputs 1 2 :=
    ⟨by decide, by decide +kernel, fun k after before => by omega⟩
  have stalls : ∀ k < 5, 2 < k → fetchStall (stateAt .zero jalInputs k) (jalInputs k) = true := by
    decide +kernel
  have waits : ∀ k < 5, 2 < k → acceptsFetch (stateAt .zero jalInputs k) (jalInputs k) = false := by
    decide +kernel
  have second : NextAccept .zero jalInputs 2 5 :=
    ⟨by decide, by decide +kernel, fun k after before => waits k before after⟩
  have noTrap : ∀ k < 6, interruptAssert (stateAt .zero jalInputs k) (jalInputs k) = false := by
    decide +kernel
  obtain ⟨target, next⟩ := redirects_once transfer clean first second
    ⟨fun k _ within => noTrap k (Nat.lt_succ_of_le within),
    fun k _ _ invalid => Bool.noConfusion invalid⟩
  exact ⟨target, stalls 3 (by decide) (by decide), stalls 4 (by decide) (by decide), next⟩

/-- `sw x0, 0(x0)` in front of `jal x0, 8`. -/
def storeJalInputs : ℕ → Inputs := .script
  [0x00002023#32, 0x0080006F#32, InstructionsNop.nop, 0x00108093#32, 0x00108093#32, 0x00108093#32]

/-- The store stalls in the cycle after the transfer left ID; the latched jump repeats its redirect,
    and the target is accepted in cycles 4 and 5. -/
theorem storeJal_redirects_twice :
    TransferLeaves (stateAt .zero storeJalInputs 2) (storeJalInputs 2) ∧
      NextAccept .zero storeJalInputs 2 4 ∧ NextAccept .zero storeJalInputs 4 5 ∧
      Undisturbed .zero storeJalInputs 2 5 ∧
      ¬ ((stateAt .zero storeJalInputs 4).instFetch.pc =
            actualTarget (stateAt .zero storeJalInputs 2) (storeJalInputs 2) ∧
          Successor .zero storeJalInputs 4 5 (stateAt .zero storeJalInputs 5).instFetch.pc) := by
  have noTrap : ∀ k < 6, interruptAssert (stateAt .zero storeJalInputs k)
      (storeJalInputs k) = false := by
    decide +kernel
  refine ⟨?_, ?_, ?_, ?_, ?_⟩
  · refine ⟨?_, ?_, ?_, ?_, ?_, ?_⟩ <;> decide +kernel
  · refine ⟨by decide, by decide +kernel, ?_⟩
    intro k after before
    obtain rfl : k = 3 := by omega
    decide +kernel
  · exact ⟨by decide, by decide +kernel, fun k after before => by omega⟩
  · exact ⟨fun k _ within => noTrap k (Nat.lt_succ_of_le within),
      fun k _ _ invalid => Bool.noConfusion invalid⟩
  · rintro ⟨_, predicted | sequential | ⟨k, after, within, _, taken, _⟩⟩
    · exact absurd predicted (by decide +kernel)
    · exact absurd sequential (by decide +kernel)
    · obtain rfl : k = 5 := by omega
      exact absurd taken (by decide +kernel)

end MyCpu.PipelinedCPU
