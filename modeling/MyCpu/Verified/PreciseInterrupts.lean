import MyCpu.Verified.Refinement

/-! # Precise interrupts

A handler that consists of one MRET adds two phases to a run: the interrupt empties
ID and sends fetch to the handler, and the MRET sits in ID until it sends fetch back
to `mepc`.  When the interrupt is taken in a cycle in which fetch moves and `mepc`
is the address that the program continues at, the instruction-set state is the same
before and after the handler, so the log does not show the interrupt. -/

namespace MyCpu.System

open Rv32im (Hart Instr Event Encodes LegalRun decode)

variable {program : Rv32im.Program} {predictions : Predictions}
    {system : System} {stimulus : Stimulus}

/-! ## Precise cycles -/

/-- An enabled interrupt is raised in this cycle. -/
def interrupted (program : Rv32im.Program) (system : System) (stimulus : Stimulus) : Bool :=
  PipelinedCPU.interruptEnabled system.cpu (inputs program system stimulus)

/-- The interrupts and returns that go through without losing the place in the program. -/
@[mk_iff] structure Precise (program : Rv32im.Program) (system : System) (stimulus : Stimulus) :
    Prop where
  /-- An interrupt is taken while fetch moves, with no redirect waiting. -/
  moves : interrupted program system stimulus = true →
    PipelinedCPU.fetchStall system.cpu (inputs program system stimulus) = false
  unlatched : interrupted program system stimulus = true →
    system.cpu.instFetch.pendingJump = false ∧ system.cpu.btbMispredictPending = false
  /-- A branch in ID whose target is saved is taken. -/
  taken : interrupted program system stimulus = true →
    PipelinedCPU.isBranchOrJump system.cpu = true →
    PipelinedCPU.branchTaken system.cpu (inputs program system stimulus) = true
  /-- The pc that is saved for another instruction is not a wrong prediction. -/
  followed : interrupted program system stimulus = true →
    PipelinedCPU.btbNonBranch system.cpu = false
  /-- An interrupt does not hit the MRET. -/
  outside : interrupted program system stimulus = true → PipelinedCPU.isMret system.cpu = false
  /-- The BTB does not take the MRET for a branch. -/
  returns : PipelinedCPU.isMret system.cpu = true → system.cpu.if2id.btbPredictedTaken = false

set_option synthInstance.maxSize 400 in
instance : Decidable (Precise program system stimulus) :=
  decidable_of_iff _ (precise_iff program system stimulus).symm

/-! ## The trap registers across an edge -/

section Trap

theorem writesTrapRegister_none (settled : Settled system) :
    PipelinedCPU.writesTrapRegister system.cpu (inputs program system stimulus) = false := by
  simp [PipelinedCPU.writesTrapRegister, PipelinedCPU.csrWrite, settled.noCsrWrite]

theorem mtvec_kept (settled : Settled system) :
    (stepWith program predictions system stimulus).cpu.csrRegs.mtvec =
      system.cpu.csrRegs.mtvec := by
  simp [stepWith, PipelinedCPU.stepWith, CSR.step, CSR.bypass,
    PipelinedCPU.csrWrite, settled.noCsrWrite]

variable (program predictions stimulus) in
theorem trapRegisters_next (settled : Settled system) :
    PipelinedCPU.trapRegisters (stepWith program predictions system stimulus).cpu =
      PipelinedCPU.applyTrap system.cpu (inputs program system stimulus)
        (PipelinedCPU.trapRegisters system.cpu) := by
  -- the trap step of ID is applied to the trap registers once
  rw [← PipelinedCPU.seen_eq system.cpu (inputs program system stimulus)
    (writesTrapRegister_none settled), ← PipelinedCPU.trapRegisters_step]
  rfl

variable (predictions) in
theorem trapRegisters_entry (settled : Settled system)
    (enabled : interrupted program system stimulus = true) :
    (stepWith program predictions system stimulus).cpu.csrRegs.mepc =
        CLINT.instructionAddress (PipelinedCPU.clintInputs system.cpu
          (inputs program system stimulus)) ∧
      (PipelinedCPU.trapRegisters (stepWith program predictions system stimulus).cpu).mie =
        false := by
  have entry : PipelinedCPU.takesEntry system.cpu (inputs program system stimulus) = true :=
    (Bool.or_eq_true _ _).mpr (Or.inr enabled)
  have applied := trapRegisters_next program predictions stimulus settled
  rw [PipelinedCPU.applyTrap, if_pos entry] at applied
  refine ⟨congrArg TrapRegisters.mepc applied, ?_⟩
  rw [applied]
  exact TrapRegisters.mie_enter _ _ _

theorem redirect_entry (settled : Settled system)
    (environment : CLINT.isEnvironmentTrap system.cpu.if2id.instruction = false)
    (enabled : interrupted program system stimulus = true) :
    PipelinedCPU.actualTaken system.cpu (inputs program system stimulus) = true ∧
      PipelinedCPU.actualTarget system.cpu (inputs program system stimulus) =
        system.cpu.csrRegs.mtvec := by
  have environment' : ¬ CLINT.isEnvironmentTrap
      (PipelinedCPU.clintInputs system.cpu (inputs program system stimulus)).instructionId =
        true := by
    rw [Bool.not_eq_true]
    exact environment
  have enabled' : CLINT.interruptEnabled
      (PipelinedCPU.clintInputs system.cpu (inputs program system stimulus))
      (PipelinedCPU.trapView system.cpu (inputs program system stimulus)) = true := enabled
  have entry : PipelinedCPU.trap system.cpu (inputs program system stimulus) =
      CLINT.enter (PipelinedCPU.clintInputs system.cpu (inputs program system stimulus))
        (PipelinedCPU.trapView system.cpu (inputs program system stimulus))
        (CLINT.interruptCause (PipelinedCPU.clintInputs system.cpu
          (inputs program system stimulus))) := by
    rw [PipelinedCPU.trap, CLINT.outputs, if_neg environment', if_pos enabled']
  have asserted : PipelinedCPU.interruptAssert system.cpu
      (inputs program system stimulus) = true := by
    rw [PipelinedCPU.interruptAssert, entry]
    rfl
  constructor
  · rw [PipelinedCPU.actualTaken, InstructionDecode.ifJumpFlag, asserted, Bool.or_true]
  · rw [PipelinedCPU.actualTarget, InstructionDecode.ifJumpAddress, asserted, if_pos rfl, entry]
    simp [CLINT.enter, PipelinedCPU.trapView, CSR.clintAccessBundle, CSR.bypass,
      PipelinedCPU.csrWrite, settled.noCsrWrite]

variable (predictions) in
/-- MRET redirects fetch to `mepc`, and leaves `mepc` alone. -/
theorem redirect_return (settled : Settled system)
    (mret : system.cpu.if2id.instruction = InstructionsRet.mret)
    (quiet : interrupted program system stimulus = false) :
    PipelinedCPU.actualTaken system.cpu (inputs program system stimulus) = true ∧
      PipelinedCPU.actualTarget system.cpu (inputs program system stimulus) =
        system.cpu.csrRegs.mepc ∧
      (stepWith program predictions system stimulus).cpu.csrRegs.mepc =
        system.cpu.csrRegs.mepc := by
  have environment : ¬ CLINT.isEnvironmentTrap
      (PipelinedCPU.clintInputs system.cpu (inputs program system stimulus)).instructionId =
        true := by
    simp only [PipelinedCPU.clintInputs, mret]
    decide
  have quiet' : ¬ CLINT.interruptEnabled
      (PipelinedCPU.clintInputs system.cpu (inputs program system stimulus))
      (PipelinedCPU.trapView system.cpu (inputs program system stimulus)) = true := by
    rw [Bool.not_eq_true]
    exact quiet
  have leave : PipelinedCPU.trap system.cpu (inputs program system stimulus) =
      CLINT.leave (PipelinedCPU.trapView system.cpu (inputs program system stimulus)) := by
    rw [PipelinedCPU.trap, CLINT.outputs, if_neg environment, if_neg quiet']
    exact if_pos mret
  have asserted : PipelinedCPU.interruptAssert system.cpu
      (inputs program system stimulus) = true := by
    rw [PipelinedCPU.interruptAssert, leave]
    rfl
  refine ⟨?_, ?_, ?_⟩
  · rw [PipelinedCPU.actualTaken, InstructionDecode.ifJumpFlag, asserted, Bool.or_true]
  · rw [PipelinedCPU.actualTarget, InstructionDecode.ifJumpAddress, asserted, if_pos rfl, leave]
    simp [CLINT.leave, PipelinedCPU.trapView, CSR.clintAccessBundle, CSR.bypass,
      PipelinedCPU.csrWrite, settled.noCsrWrite]
  · simp [stepWith, PipelinedCPU.stepWith, CSR.step, leave, CLINT.leave, PipelinedCPU.trapView,
      CSR.clintAccessBundle, CSR.bypass, PipelinedCPU.csrWrite, settled.noCsrWrite]

end Trap

/-! ## The phases of the handler -/

/-- The interrupt has emptied ID and fetch is at the handler. -/
structure Entered (program : Rv32im.Program) (system : System) (hart : Hart) (handler : Word) :
    Prop where
  awaiting : Awaiting program system hart handler
  mepc : system.cpu.csrRegs.mepc = hart.pc
  masked : (PipelinedCPU.trapRegisters system.cpu).mie = false

/-- The MRET of the handler is in ID, and what is latched leads back to the program. -/
structure Returning (program : Rv32im.Program) (system : System) (hart : Hart) : Prop where
  inFlight : InFlight system hart
  run : LegalRun program hart
  occupant : system.id = .handler
  unpredicted : system.cpu.if2id.rasPredictedValid = false ∧
    system.cpu.if2id.ibtbPredictedValid = false
  latched : system.cpu.instFetch.pendingJump = true → system.cpu.instFetch.pendingJumpAddr = hart.pc
  previous : system.cpu.instFetch.pendingJump = true → system.cpu.instFetch.prevJumpFlag = true →
    system.cpu.instFetch.prevJumpAddr = hart.pc
  corrected : system.cpu.btbMispredictPending = false
  mepc : system.cpu.csrRegs.mepc = hart.pc

section Handler

variable {hart : Hart} {instr : Instr} {handler : Word}

variable (predictions) in
theorem returning_captured (mret : program handler = InstructionsRet.mret)
    (moves : PipelinedCPU.fetchStall system.cpu (inputs program system stimulus) = false)
    (kept : PipelinedCPU.if2idFlush system.cpu (inputs program system stimulus) = false)
    (position : system.cpu.instFetch.pc = handler) (run : LegalRun program hart)
    (mepc : (stepWith program predictions system stimulus).cpu.csrRegs.mepc = hart.pc)
    (inFlight : IdHolds (stepWith program predictions system stimulus) →
      InFlight (stepWith program predictions system stimulus) hart) :
    Returning program (stepWith program predictions system stimulus) hart := by
  obtain ⟨captured, taken⟩ := id_captured predictions moves kept
  have fetched : program system.cpu.instFetch.pc = InstructionsRet.mret := by rw [position, mret]
  have occupant : (stepWith program predictions system stimulus).id = .handler := by
    rw [taken, fetches, if_pos fetched]
  have word : (stepWith program predictions system stimulus).cpu.if2id.instruction =
      InstructionsRet.mret := by
    rw [captured, ← fetched]
    rfl
  have holds : IdHolds (stepWith program predictions system stimulus) := by
    refine ⟨fun empty => ?_, fun _ => word, fun program => ?_, ?_⟩
    · exact Occupant.noConfusion (occupant.symm.trans empty)
    · exact Occupant.noConfusion (occupant.symm.trans program)
    · rw [occupant]
      exact Occupant.noConfusion
  -- no predictor of returns or indirect jumps is asked about the handler
  have notJalr : InstructionFetch.isJalr
      (stepWith program predictions system stimulus).cpu.if2id.instruction =
      false := by
    rw [word]
    decide
  have predecoded : (stepWith program predictions system stimulus).cpu.if2id.Predecoded := by
    rw [captured]
    exact PipelinedCPU.predecoded_captured
  have unlatched :
      (stepWith program predictions system stimulus).cpu.instFetch.pendingJump = false :=
    PipelinedCPU.pendingJump_running moves
  refine ⟨inFlight holds, run, occupant, predecoded.other notJalr, ?_, ?_,
    PipelinedCPU.btbMispredictPending_running (PipelinedCPU.fetchStall_running moves), mepc⟩
  · rw [unlatched]
    exact fun pending => Bool.noConfusion pending
  · rw [unlatched]
    exact fun pending => Bool.noConfusion pending

/-! ### Entry -/

variable (predictions) in
theorem Awaiting.interrupted (awaiting : Awaiting program system hart hart.pc)
    (precise : Precise program system stimulus)
    (enabled : interrupted program system stimulus = true) :
    Entered program (stepWith program predictions system stimulus) hart system.cpu.csrRegs.mtvec ∧
      pendingEvents system =
        emit program system stimulus ++ pendingEvents
          (stepWith program predictions system stimulus) := by
  have settled := awaiting.inFlight.settled
  have moves := precise.moves enabled
  have running : memStall program system stimulus = false := PipelinedCPU.fetchStall_running moves
  have free : Control.hazard (PipelinedCPU.ctrl system.cpu) = false :=
    PipelinedCPU.fetchStall_free moves
  have environment : CLINT.isEnvironmentTrap system.cpu.if2id.instruction = false := by
    rw [awaiting.vacant.1]
    decide
  obtain ⟨taken, target⟩ := redirect_entry settled environment enabled
  obtain ⟨saved, masked⟩ := trapRegisters_entry predictions settled enabled
  have flush : PipelinedCPU.needIfFlush system.cpu (inputs program system stimulus) = true := by
    simp [PipelinedCPU.needIfFlush, Control.ifFlush, free, taken, PipelinedCPU.predictionCorrect,
      PipelinedCPU.btbCorrectPrediction, PipelinedCPU.btbActuallyUsed,
      PipelinedCPU.rasCorrectPredict, PipelinedCPU.ibtbCorrectPredict, awaiting.vacant.2.1,
      awaiting.vacant.2.2.1, awaiting.vacant.2.2.2]
  have redirects : PipelinedCPU.RedirectsTo system.cpu (inputs program system stimulus)
      system.cpu.csrRegs.mtvec := by
    refine ⟨fun latched => ?_, fun mispredict => ?_, fun _ => target⟩
    · exact Bool.noConfusion (awaiting.unlatched.symm.trans latched)
    · rw [PipelinedCPU.btbMispredict, PipelinedCPU.idVacant_btbMispredictRaw awaiting.vacant,
        PipelinedCPU.pendingCorrectionDue, awaiting.corrected] at mispredict
      exact Bool.noConfusion mispredict
  have entered := awaiting_flushed predictions moves flush redirects awaiting.run fun holds =>
    (awaiting.inFlight.passed predictions running awaiting.passive holds).1
  refine ⟨⟨entered, ?_, masked⟩,
    (awaiting.inFlight.passed predictions running awaiting.passive entered.inFlight.holds).2⟩
  -- with a bubble in ID the saved address is that of the word to be fetched
  rw [saved, CLINT.instructionAddress]
  simp only [PipelinedCPU.clintInputs, PipelinedCPU.idVacant_nonBranch awaiting.vacant,
    Bool.false_eq_true, if_false]
  exact awaiting.pc

theorem Holding.saved (holding : Holding program system hart instr)
    (precise : Precise program system stimulus)
    (enabled : System.interrupted program system stimulus = true) :
    CLINT.instructionAddress (PipelinedCPU.clintInputs system.cpu
      (inputs program system stimulus)) =
      instr.nextPc hart := by
  have free : Control.hazard (PipelinedCPU.ctrl system.cpu) = false :=
    PipelinedCPU.fetchStall_free (precise.moves enabled)
  have ready := PipelinedCPU.branchHazard_free free
  obtain ⟨outcome, target⟩ := holding.branchTaken stimulus ready
  rw [CLINT.instructionAddress]
  cases jump : PipelinedCPU.isBranchOrJump system.cpu with
  | true =>
    simp only [PipelinedCPU.clintInputs, jump, if_true]
    exact target (outcome.symm.trans (precise.taken enabled jump))
  | false =>
    -- Fetch has followed no prediction, so the pc is the next address.
    have notJalr : InstructionFetch.isJalr system.cpu.if2id.instruction = false := by
      simp only [PipelinedCPU.isBranchOrJump, InstructionDecode.ctrlJumpInstruction,
        Bool.or_eq_false_iff] at jump
      exact jump.1.2
    obtain ⟨ras, ibtb⟩ := holding.predecoded.other notJalr
    have followed := precise.followed enabled
    rw [PipelinedCPU.btbNonBranch, jump, Bool.not_false, Bool.and_true] at followed
    have sequential : instr.transfers hart = false := by
      by_contra transfers
      have jumps := isBranchOrJump_encodes holding.encodes (Bool.of_not_eq_false transfers)
      exact Bool.noConfusion (jump.symm.trans jumps)
    simp only [PipelinedCPU.clintInputs, jump, Bool.false_eq_true, if_false]
    rw [holding.pc, IF2ID.predictedNext, ras, ibtb, followed,
      Rv32im.Instr.nextPc_sequential sequential, holding.address]
    rfl

variable (predictions) in
theorem Holding.interrupted (mret : program system.cpu.csrRegs.mtvec = InstructionsRet.mret)
    (holding : Holding program system hart instr) (precise : Precise program system stimulus)
    (enabled : System.interrupted program system stimulus = true) :
    (Entered program (stepWith program predictions system stimulus)
      (instr.exec hart) system.cpu.csrRegs.mtvec ∨
        Returning program (stepWith program predictions system stimulus) (instr.exec hart)) ∧
      pendingEvents system ++ instr.events hart =
        emit program system stimulus ++ pendingEvents
          (stepWith program predictions system stimulus) := by
  have settled := holding.inFlight.settled
  have moves := precise.moves enabled
  obtain ⟨unlatched, corrected⟩ := precise.unlatched enabled
  have free : Control.hazard (PipelinedCPU.ctrl system.cpu) = false :=
    PipelinedCPU.fetchStall_free moves
  have ready := PipelinedCPU.branchHazard_free free
  have issued := holding.issued predictions moves
  have run := holding.run.next holding.decoded
  obtain ⟨taken, target⟩ := redirect_entry settled (encodes_untrapped holding.encodes).1 enabled
  obtain ⟨saved, masked⟩ := trapRegisters_entry predictions settled enabled
  have mepc := saved.trans (holding.saved precise enabled)
  cases flush : PipelinedCPU.needIfFlush system.cpu (inputs program system stimulus) with
  | true =>
    have redirects : PipelinedCPU.RedirectsTo system.cpu (inputs program system stimulus)
        system.cpu.csrRegs.mtvec := by
      refine ⟨fun latched => ?_, fun mispredict => ?_, fun _ => target⟩
      · exact Bool.noConfusion (unlatched.symm.trans latched)
      · have due : PipelinedCPU.pendingCorrectionDue system.cpu
            (inputs program system stimulus) = false := by
          rw [PipelinedCPU.pendingCorrectionDue, corrected]
          rfl
        -- The only misprediction beside an entry is one of the target, which is now the handler.
        have wrongTarget : PipelinedCPU.btbWrongTarget system.cpu
            (inputs program system stimulus) = true := by
          simpa [PipelinedCPU.btbMispredict, due, PipelinedCPU.btbMispredictRaw,
            PipelinedCPU.btbWrongDirection, taken, precise.followed enabled, ready] using mispredict
        rw [PipelinedCPU.btbCorrectionAddr, due, if_neg Bool.false_ne_true,
          PipelinedCPU.btbCorrectionAddrRaw, if_pos wrongTarget]
        exact target
    have awaiting := awaiting_flushed predictions moves flush redirects run fun holds =>
      (issued holds).1
    exact ⟨Or.inl ⟨awaiting, mepc, masked⟩, (issued awaiting.inFlight.holds).2⟩
  | false =>
    -- The BTB has predicted the handler, and fetch is there already.
    have unflushed : PipelinedCPU.if2idFlush system.cpu
        (inputs program system stimulus) = false := by
      rw [PipelinedCPU.if2idFlush, flush]
      rfl
    have correct : PipelinedCPU.predictionCorrect system.cpu
        (inputs program system stimulus) = true := by
      rw [PipelinedCPU.needIfFlush, Bool.or_eq_false_iff, Control.ifFlush, free, taken] at flush
      simpa using flush.1
    rw [PipelinedCPU.predictionCorrect_foretells holding.predecoded taken] at correct
    have position : system.cpu.instFetch.pc = system.cpu.csrRegs.mtvec :=
      holding.pc.trans ((IF2ID.foretells_predictedNext correct).trans target)
    have returning := returning_captured predictions mret moves unflushed position run mepc
      fun holds => (issued holds).1
    exact ⟨Or.inr returning, (issued returning.inFlight.holds).2⟩

/-! ### The handler -/

theorem Entered.quiet (entered : Entered program system hart handler) :
    System.interrupted program system stimulus = false := by
  -- MIE is clear, so a second interrupt waits for the MRET
  by_contra enabled
  have mie := PipelinedCPU.mie_interruptEnabled system.cpu (inputs program system stimulus)
    (Bool.of_not_eq_false enabled)
  rw [PipelinedCPU.seen_eq _ _ (writesTrapRegister_none entered.awaiting.inFlight.settled),
    entered.masked] at mie
  exact Bool.noConfusion mie

variable (predictions stimulus) in
theorem Entered.trapRegisters (entered : Entered program system hart handler) :
    PipelinedCPU.trapRegisters (stepWith program predictions system stimulus).cpu =
      PipelinedCPU.trapRegisters system.cpu := by
  have environment : PipelinedCPU.environmentTrap system.cpu = false := by
    rw [PipelinedCPU.environmentTrap, entered.awaiting.vacant.1]
    decide
  have mret : PipelinedCPU.isMret system.cpu = false := by
    rw [PipelinedCPU.isMret, entered.awaiting.vacant.1]
    decide
  have quiet : PipelinedCPU.interruptEnabled system.cpu (inputs program system stimulus) = false :=
    entered.quiet
  rw [trapRegisters_next program predictions stimulus entered.awaiting.inFlight.settled,
    PipelinedCPU.applyTrap, PipelinedCPU.takesEntry, environment, quiet, mret]
  rfl

variable (predictions) in
theorem Entered.stalled (entered : Entered program system hart handler)
    (orderly : Orderly program system stimulus)
    (stalls : PipelinedCPU.fetchStall system.cpu (inputs program system stimulus) = true) :
    Entered program (stepWith program predictions system stimulus) hart handler ∧
      pendingEvents system =
        emit program system stimulus ++ pendingEvents
          (stepWith program predictions system stimulus) := by
  obtain ⟨waiting, events⟩ := entered.awaiting.stalled predictions orderly entered.quiet stalls
  have same := entered.trapRegisters predictions stimulus
  refine ⟨⟨waiting, (congrArg TrapRegisters.mepc same).trans entered.mepc, ?_⟩, events⟩
  rw [same]
  exact entered.masked

variable (predictions) in
theorem Entered.captured (mret : program handler = InstructionsRet.mret)
    (entered : Entered program system hart handler)
    (moves : PipelinedCPU.fetchStall system.cpu (inputs program system stimulus) = false) :
    Returning program (stepWith program predictions system stimulus) hart ∧
      pendingEvents system =
        emit program system stimulus ++ pendingEvents
          (stepWith program predictions system stimulus) := by
  have running : memStall program system stimulus = false := PipelinedCPU.fetchStall_running moves
  have same := entered.trapRegisters predictions stimulus
  have passed := fun holds =>
    entered.awaiting.inFlight.passed predictions running entered.awaiting.passive holds
  have returning :=
    returning_captured predictions mret moves
      (entered.awaiting.unflushed entered.quiet) entered.awaiting.pc
    entered.awaiting.run ((congrArg TrapRegisters.mepc same).trans entered.mepc)
      fun holds => (passed holds).1
  exact ⟨returning, (passed returning.inFlight.holds).2⟩

/-! ### Return -/

section Return

variable (returning : Returning program system hart)

include returning

theorem Returning.isMret : PipelinedCPU.isMret system.cpu = true :=
  decide_eq_true (returning.inFlight.holds.handler returning.occupant)

variable (precise : Precise program system stimulus)

include precise

theorem Returning.quiet : System.interrupted program system stimulus = false := by
  by_contra enabled
  have outside := precise.outside (Bool.of_not_eq_false enabled)
  rw [returning.isMret] at outside
  exact Bool.noConfusion outside

theorem Returning.correct :
    PipelinedCPU.mispredicted system.cpu (inputs program system stimulus) = false ∧
      PipelinedCPU.btbMispredictRaw system.cpu (inputs program system stimulus) = false ∧
      PipelinedCPU.predictionCorrect system.cpu (inputs program system stimulus) = false := by
  -- no predictor has anything to say about an MRET
  have btb := precise.returns returning.isMret
  obtain ⟨ras, ibtb⟩ := returning.unpredicted
  have raw : PipelinedCPU.btbMispredictRaw system.cpu (inputs program system stimulus) = false := by
    simp [PipelinedCPU.btbMispredictRaw, PipelinedCPU.btbWrongDirection, PipelinedCPU.btbNonBranch,
      PipelinedCPU.btbWrongTarget, PipelinedCPU.btbActuallyUsed, btb]
  refine ⟨?_, raw, ?_⟩
  · simp [PipelinedCPU.mispredicted, PipelinedCPU.btbMispredict, raw,
      PipelinedCPU.pendingCorrectionDue, returning.corrected, PipelinedCPU.rasWrongTarget,
      PipelinedCPU.ibtbWrongTarget, ras, ibtb]
  · simp [PipelinedCPU.predictionCorrect, PipelinedCPU.btbCorrectPrediction,
      PipelinedCPU.btbActuallyUsed, PipelinedCPU.rasCorrectPredict,
      PipelinedCPU.ibtbCorrectPredict, btb, ras, ibtb]

variable (predictions) in
theorem Returning.stalled (orderly : Orderly program system stimulus)
    (stalls : PipelinedCPU.fetchStall system.cpu (inputs program system stimulus) = true) :
    Returning program (stepWith program predictions system stimulus) hart ∧
      pendingEvents system =
        emit program system stimulus ++ pendingEvents
          (stepWith program predictions system stimulus) := by
  -- while the MRET is held, its redirect is latched
  obtain ⟨mispredicted, raw, _⟩ := returning.correct precise
  obtain ⟨taken, target, mepc⟩ := redirect_return predictions returning.inFlight.settled
    (returning.inFlight.holds.handler returning.occupant) (returning.quiet precise)
  have kept : PipelinedCPU.if2idFlush system.cpu (inputs program system stimulus) = false := by
    cases waits : PipelinedCPU.memStall system.cpu (inputs program system stimulus) with
    | true => exact PipelinedCPU.if2idFlush_memStall _ _ waits
    | false =>
      have hazard : PipelinedCPU.pcStall system.cpu = true := by
        rw [PipelinedCPU.fetchStall, waits, Bool.or_false] at stalls
        exact stalls
      rw [PipelinedCPU.if2idFlush, PipelinedCPU.needIfFlush_hazard _ _ hazard, mispredicted]
      rfl
  obtain ⟨word, occupant⟩ := id_held predictions stalls kept
  have passive : system.id.passive = true := by
    rw [returning.occupant]
    rfl
  have flight : InFlight (stepWith program predictions system stimulus) hart ∧
      pendingEvents system =
      emit program system stimulus ++ pendingEvents
        (stepWith program predictions system stimulus) := by
    cases waits : memStall program system stimulus with
    | true => exact returning.inFlight.stalled waits (orderly.keptInEx waits)
    | false =>
      exact returning.inFlight.passed predictions waits passive
        (idHolds_held returning.inFlight.holds word occupant)
  have latched : (stepWith program predictions system stimulus).cpu.instFetch.pendingJumpAddr =
      hart.pc := by
    have latch : PipelinedCPU.latchedJump system.cpu
        (inputs program system stimulus) = some hart.pc := by
      rw [PipelinedCPU.latchedJump, taken, if_pos rfl, target, returning.mepc]
    exact ((PipelinedCPU.pendingJump_latched stalls).mpr latch).2
  have previous : (stepWith program predictions system stimulus).cpu.instFetch.prevJumpAddr =
      hart.pc :=
    target.trans returning.mepc
  refine ⟨⟨flight.1, returning.run, occupant.trans returning.occupant, ?_, fun _ => latched,
    fun _ _ => previous, ?_, mepc.trans returning.mepc⟩, flight.2⟩
  · rw [word]
    exact returning.unpredicted
  · simp [stepWith, PipelinedCPU.stepWith, PipelinedCPU.nextBtbMispredictPending,
      raw, returning.corrected]

variable (predictions) in
theorem Returning.released (moves : PipelinedCPU.fetchStall system.cpu
    (inputs program system stimulus) = false) :
    Awaiting program (stepWith program predictions system stimulus) hart hart.pc ∧
      pendingEvents system =
        emit program system stimulus ++ pendingEvents
          (stepWith program predictions system stimulus) := by
  obtain ⟨mispredicted, _, correct⟩ := returning.correct precise
  obtain ⟨taken, target, _⟩ := redirect_return predictions returning.inFlight.settled
    (returning.inFlight.holds.handler returning.occupant) (returning.quiet precise)
  have running : memStall program system stimulus = false := PipelinedCPU.fetchStall_running moves
  have free : Control.hazard (PipelinedCPU.ctrl system.cpu) = false :=
    PipelinedCPU.fetchStall_free moves
  have passive : system.id.passive = true := by
    rw [returning.occupant]
    rfl
  have flush : PipelinedCPU.needIfFlush system.cpu (inputs program system stimulus) = true := by
    simp [PipelinedCPU.needIfFlush, Control.ifFlush, free, taken, correct]
  have redirects : PipelinedCPU.RedirectsTo system.cpu
      (inputs program system stimulus) hart.pc := by
    refine ⟨returning.latched, fun mispredict => ?_, fun _ => target.trans returning.mepc⟩
    rw [PipelinedCPU.mispredicted, mispredict] at mispredicted
    exact Bool.noConfusion mispredicted
  have passed := fun holds => returning.inFlight.passed predictions running passive holds
  have awaiting := awaiting_flushed predictions moves flush redirects returning.run fun holds =>
    (passed holds).1
  exact ⟨awaiting, (passed awaiting.inFlight.holds).2⟩

end Return

end Handler

/-! ## Runs with interrupts -/

section Simulation

variable (program : Rv32im.Program) (handler : Word)

/-- Where a run with interrupts stands: in the handler that leads back to the next instruction, or
    at that instruction. -/
inductive LocatedInterrupted (system : System) (hart : Hart) : ℕ → Prop
  | entered : Entered program system hart handler → LocatedInterrupted system hart 0
  | returning : Returning program system hart → LocatedInterrupted system hart 1
  | running {rank : ℕ} : Located program system hart rank →
      LocatedInterrupted system hart (rank + 2)

/-- The sequential machine has executed what is in flight. -/
def RelatedInterrupted (system : System) (hart : Hart) (pending : List Event) (rank : ℕ) : Prop :=
  system.cpu.csrRegs.mtvec = handler ∧ pending = pendingEvents system ∧
    LocatedInterrupted program handler system hart rank

variable {program handler}

theorem LocatedInterrupted.inFlight {hart : Hart} {rank : ℕ}
    (located : LocatedInterrupted program handler system hart rank) : InFlight system hart := by
  cases located with
  | entered entered => exact entered.awaiting.inFlight
  | returning returning => exact returning.inFlight
  | running located => exact located.inFlight

theorem LocatedInterrupted.small {hart : Hart} {rank : ℕ}
    (located : LocatedInterrupted program handler system hart rank) : rank < 4 := by
  cases located with
  | entered | returning => decide
  | running located =>
    have small := located.small
    omega

variable (predictions) in
/-- A cycle with an interrupt leads into the handler, with `mepc` at the next instruction of the
    program, which is behind the one in ID. -/
theorem simulates_entry (mret : program handler = InstructionsRet.mret) {hart : Hart}
    {pending : List Event} {rank : ℕ}
    (related : RelatedInterrupted program handler system hart pending rank)
    (precise : Precise program system stimulus)
    (enabled : interrupted program system stimulus = true) :
    ∃ k, (Entered program (stepWith program predictions system stimulus)
      ((Rv32im.next program)^[k] hart) handler ∨
        Returning program (stepWith program predictions system stimulus)
          ((Rv32im.next program)^[k] hart)) ∧
      pending ++ Clocked.specLog (Rv32im.next program) (Rv32im.emit program) k hart =
        emit program system stimulus ++ pendingEvents
          (stepWith program predictions system stimulus) ∧
      (system.id ≠ .bubble → k = 1) := by
  obtain ⟨rfl, rfl, located⟩ := related
  cases located with
  | entered entered => exact Bool.noConfusion (enabled.symm.trans entered.quiet)
  | returning returning => exact Bool.noConfusion (enabled.symm.trans (returning.quiet precise))
  | running located =>
    cases located with
    | awaiting awaiting =>
      obtain ⟨phase, events⟩ := awaiting.interrupted predictions precise enabled
      exact ⟨0, Or.inl phase, (List.append_nil _).trans events,
        fun other => absurd awaiting.occupant other⟩
    | holding holding =>
      obtain ⟨phase, events⟩ := holding.interrupted predictions mret precise enabled
      refine ⟨1, ?_, ?_, fun _ => rfl⟩
      · rw [Function.iterate_one, Rv32im.next_decoded holding.decoded]
        exact phase
      · rw [Clocked.specLog, Clocked.specLog, List.append_nil, Rv32im.emit_decoded holding.decoded]
        exact events

theorem entry_located {hart : Hart}
    (phase : Entered program system hart handler ∨ Returning program system hart) :
    ∃ rank, LocatedInterrupted program handler system hart rank := by
  obtain entered | returning := phase
  · exact ⟨0, .entered entered⟩
  · exact ⟨1, .returning returning⟩

theorem RelatedInterrupted.mtvec_next {hart : Hart} {pending : List Event} {rank : ℕ}
    (related : RelatedInterrupted program handler system hart pending rank) :
    (step program system stimulus).cpu.csrRegs.mtvec = handler :=
  (mtvec_kept related.2.2.inFlight.settled).trans related.1

/-- A cycle without an interrupt, also in the handler. -/
theorem advances_quiet (mret : program handler = InstructionsRet.mret)
    (orderly : Orderly program system stimulus)
    (precise : Precise program system stimulus)
    (quiet : interrupted program system stimulus = false) :
    Clocked.ProgressStep (step program) (emit program) (Rv32im.next program) (Rv32im.emit program)
      (RelatedInterrupted program handler) 4
      (PipelinedCPU.fetchStall system.cpu (inputs program system stimulus) =
        false) system stimulus := by
  intro hart pending rank related
  have mtvec : (step program system stimulus).cpu.csrRegs.mtvec = handler := related.mtvec_next
  obtain ⟨_, rfl, located⟩ := related
  cases located with
  | entered entered =>
    cases moves : PipelinedCPU.fetchStall system.cpu (inputs program system stimulus) with
    | true =>
      obtain ⟨phase, events⟩ := entered.stalled system.cpu.instFetch.predict orderly moves
      exact ⟨0, _, 0, ⟨mtvec, rfl, .entered phase⟩,
        (List.append_nil _).trans events, le_rfl, fun go =>
        Bool.noConfusion go⟩
    | false =>
      obtain ⟨phase, events⟩ := entered.captured system.cpu.instFetch.predict mret moves
      exact ⟨0, _, 1, ⟨mtvec, rfl, .returning phase⟩,
        (List.append_nil _).trans events, by omega, fun _ => by omega⟩
  | returning returning =>
    cases moves : PipelinedCPU.fetchStall system.cpu (inputs program system stimulus) with
    | true =>
      obtain ⟨phase, events⟩ := returning.stalled system.cpu.instFetch.predict precise orderly moves
      exact ⟨0, _, 1, ⟨mtvec, rfl, .returning phase⟩,
        (List.append_nil _).trans events, le_rfl, fun go =>
        Bool.noConfusion go⟩
    | false =>
      obtain ⟨phase, events⟩ := returning.released system.cpu.instFetch.predict precise moves
      exact ⟨0, _, 2, ⟨mtvec, rfl, .running (.awaiting phase)⟩,
        (List.append_nil _).trans events, by omega, fun _ => by
        omega⟩
  | running located =>
    obtain ⟨k, _, rank', ⟨rfl, located'⟩, events, kept, raised⟩ :=
      advances (fun system => system.cpu.instFetch.predict) orderly quiet hart _ _ ⟨rfl, located⟩
    refine ⟨k, _, rank' + 2, ⟨mtvec, rfl, .running located'⟩, events, by omega, fun go => ?_⟩
    have more := raised go
    omega

/-- A run makes progress as well when an interrupt is taken behind an instruction in ID. -/
theorem advances_interrupted (mret : program handler = InstructionsRet.mret)
    (orderly : Orderly program system stimulus)
    (precise : Precise program system stimulus)
    (occupied : interrupted program system stimulus = true → system.id ≠ .bubble) :
    Clocked.ProgressStep (step program) (emit program) (Rv32im.next program) (Rv32im.emit program)
      (RelatedInterrupted program handler) 4
      (PipelinedCPU.fetchStall system.cpu (inputs program system stimulus) =
        false) system stimulus := by
  cases enabled : interrupted program system stimulus with
  | true =>
    intro hart pending rank related
    have small := related.2.2.small
    obtain ⟨k, phase, events, one⟩ :=
      simulates_entry system.cpu.instFetch.predict mret related precise enabled
    -- the instruction in ID is executed, which outweighs the fall of the rank to the handler
    obtain rfl := one (occupied enabled)
    obtain ⟨rank', located⟩ := entry_located phase
    exact ⟨1, _, rank', ⟨related.mtvec_next, rfl, located⟩, events, by omega, fun _ => by omega⟩
  | false => exact advances_quiet mret orderly precise enabled

theorem simulates_interrupted (mret : program handler = InstructionsRet.mret)
    (orderly : Orderly program system stimulus) (precise : Precise program system stimulus) :
    Clocked.SimulatesStep (step program) (emit program) (Rv32im.next program) (Rv32im.emit program)
      (fun system hart pending =>
        ∃ rank, RelatedInterrupted program handler system hart pending rank) system
      stimulus := by
  cases enabled : interrupted program system stimulus with
  | true =>
    rintro hart pending ⟨rank, related⟩
    obtain ⟨k, phase, events, _⟩ :=
      simulates_entry system.cpu.instFetch.predict mret related precise enabled
    obtain ⟨rank', located⟩ := entry_located phase
    exact ⟨k, _, ⟨rank', related.mtvec_next, rfl, located⟩, events⟩
  | false => exact (advances_quiet mret orderly precise enabled).simulates

end Simulation

section Run

variable (program : Rv32im.Program) (setup : Setup) (hart : Hart) (stimuli : ℕ → Stimulus)

/-- The pipeline after `n` cycles with the interrupts of `stimuli`. -/
def interruptedAt (n : ℕ) : System := Clocked.stateAt (step program) (start setup hart) stimuli n

def interruptedLogAt (n : ℕ) : List Event :=
  Clocked.logAt (step program) (emit program) (start setup hart) stimuli n

variable {program setup hart stimuli}

theorem relatedInterrupted_start (run : LegalRun program hart) :
    RelatedInterrupted program setup.csrRegs.mtvec (start setup hart) hart [] 2 :=
  ⟨rfl, rfl, .running (.awaiting (awaiting_start setup run))⟩

section Handler

variable (mret : program setup.csrRegs.mtvec = InstructionsRet.mret) (run : LegalRun program hart)

include mret run

theorem related_interrupted (n : ℕ)
    (orderly : ∀ k < n, Orderly program (interruptedAt program setup hart stimuli k) (stimuli k))
    (precise : ∀ k < n, Precise program (interruptedAt program setup hart stimuli k) (stimuli k)) :
    ∃ l pending, (∃ rank, RelatedInterrupted program setup.csrRegs.mtvec
      (interruptedAt program setup hart stimuli n)
        ((Rv32im.next program)^[l] hart) pending rank) ∧
      interruptedLogAt program setup hart stimuli n ++ pending = sequentialLog program hart l :=
  Clocked.log_pending_eq_specLog ⟨2, relatedInterrupted_start run⟩ n fun k bound =>
    simulates_interrupted mret (orderly k bound) (precise k bound)

/-- The address that an entry saves is that of the first instruction that is neither in the log nor
    in flight, and those are the instructions before it, each once. -/
theorem mepc_precise (n : ℕ)
    (orderly : ∀ k < n, Orderly program (interruptedAt program setup hart stimuli k) (stimuli k))
    (precise : ∀ k ≤ n, Precise program (interruptedAt program setup hart stimuli k) (stimuli k))
    (enabled : interrupted program
      (interruptedAt program setup hart stimuli n) (stimuli n) = true) :
    ∃ l, (interruptedAt program setup hart stimuli (n + 1)).cpu.csrRegs.mepc =
      ((Rv32im.next program)^[l] hart).pc ∧
      interruptedLogAt program setup hart stimuli (n + 1) ++
        pendingEvents (interruptedAt program setup hart stimuli (n + 1)) =
          sequentialLog program hart l := by
  obtain ⟨l, pending, ⟨rank, related⟩, logged⟩ :=
    related_interrupted mret run n orderly fun k bound => precise k (Nat.le_of_lt bound)
  obtain ⟨k, phase, events, _⟩ := simulates_entry
    (interruptedAt program setup hart stimuli n).cpu.instFetch.predict mret related
      (precise n (Nat.le_refl n)) enabled
  refine ⟨l + k, ?_, Clocked.logged_step logged events⟩
  rw [Nat.add_comm l k, Function.iterate_add_apply]
  obtain entered | returning := phase
  · exact entered.mepc
  · exact returning.mepc

/-- A fluent run that is interrupted for ever only behind instructions in ID commits everything that
    the sequential machine does. -/
theorem interrupted_complete
    (fluent : Fluent program (interruptedAt program setup hart stimuli) stimuli)
    (precise : ∀ k, Precise program (interruptedAt program setup hart stimuli k) (stimuli k))
    (resumes : ∃ last, ∀ k ≥ last,
      interrupted program (interruptedAt program setup hart stimuli k) (stimuli k) = true →
      (interruptedAt program setup hart stimuli k).id ≠ .bubble) (l : ℕ) :
    ∃ n, sequentialLog program hart l <+: interruptedLogAt program setup hart stimuli n := by
  obtain ⟨last, occupied⟩ := resumes
  have reached := fun n =>
    related_interrupted mret run n (fun k _ => fluent.orderly k) fun k _ => precise k
  have holds : ∀ n, IdHolds (interruptedAt program setup hart stimuli n) := by
    intro n
    obtain ⟨_, _, ⟨rank, related⟩, _⟩ := reached n
    exact related.2.2.inFlight.holds
  obtain ⟨position, pending, ⟨rank, related⟩, logged⟩ := reached last
  have progressed : Clocked.Progressed (step program) (emit program)
      (Rv32im.next program) (Rv32im.emit program)
      (RelatedInterrupted program setup.csrRegs.mtvec) 4 (start setup hart) hart stimuli last
        (4 * position + rank) :=
    ⟨position, pending, rank, related, logged, rfl⟩
  refine Clocked.log_complete 4 (emit_nonempty run) (fun {_ _ _ _} related => ?_)
    progressed
    (fun n later => advances_interrupted mret (fluent.orderly n) (precise n) (occupied n later))
    (fluent.moves (fun n => ⟨_, rfl⟩) holds) l
  obtain ⟨_, rfl, located⟩ := related
  exact ⟨located.small, pendingEvents_length _⟩

/-- The log of a run with precise interrupts is that of a run without, and every entry saves the
    place in the program: as far as the shorter of the two has come, and altogether when both are
    fluent and the program resumes. -/
theorem interrupts_transparent (setup' : Setup) (latencies : ℕ → Latency) :
    (∀ n m, (∀ k < n, Orderly program (interruptedAt program setup hart stimuli k) (stimuli k)) →
        (∀ k < n, Precise program (interruptedAt program setup hart stimuli k) (stimuli k)) →
        (∀ k < m, Orderly program (stateAt program setup' hart latencies k) (latencies k).quiet) →
        (interruptedLogAt program setup hart stimuli n <+: logAt program setup' hart latencies m ∨
            logAt program setup' hart latencies m <+:
              interruptedLogAt program setup hart stimuli n) ∧
          ∀ k < n, interrupted program (interruptedAt program setup hart stimuli k)
            (stimuli k) = true →
            ∃ l, (interruptedAt program setup hart stimuli (k + 1)).cpu.csrRegs.mepc =
                ((Rv32im.next program)^[l] hart).pc ∧
              interruptedLogAt program setup hart stimuli (k + 1) ++
                pendingEvents (interruptedAt program setup hart stimuli (k + 1)) =
                  sequentialLog program hart l) ∧
      (Fluent program (interruptedAt program setup hart stimuli) stimuli →
        (∀ k, Precise program (interruptedAt program setup hart stimuli k) (stimuli k)) →
        (∃ last, ∀ k ≥ last, interrupted program
          (interruptedAt program setup hart stimuli k) (stimuli k) = true →
          (interruptedAt program setup hart stimuli k).id ≠ .bubble) →
        Fluent program (stateAt program setup' hart latencies) (fun k => (latencies k).quiet) →
        (∀ n, ∃ m, interruptedLogAt program setup hart stimuli n <+:
          logAt program setup' hart latencies m) ∧
          ∀ n, ∃ m, logAt program setup' hart latencies n <+:
            interruptedLogAt program setup hart stimuli m) := by
  have uninterrupted :=
    log_isPrefix (fun system => system.cpu.instFetch.predict) setup' run latencies
  refine ⟨fun n m orderly precise orderly' => ⟨?_, fun k bound enabled => ?_⟩,
    fun fluent precise resumes fluent' => ⟨fun n => ?_, fun n => ?_⟩⟩
  · obtain ⟨l, pending, _, logged⟩ := related_interrupted mret run n orderly precise
    obtain ⟨l', logged'⟩ := uninterrupted m orderly'
    exact Clocked.prefix_comparable ⟨pending, logged⟩ logged'
  · exact mepc_precise mret run k (fun j earlier => orderly j (Nat.lt_trans earlier bound))
      (fun j earlier => precise j (Nat.lt_of_le_of_lt earlier bound)) enabled
  · -- each log is behind the sequential one, which the other run commits in full
    obtain ⟨l, pending, _, logged⟩ :=
      related_interrupted mret run n (fun k _ => fluent.orderly k) fun k _ => precise k
    obtain ⟨m, complete⟩ :=
      fluent_complete (fun system => system.cpu.instFetch.predict) setup' run latencies fluent' l
    exact ⟨m, List.IsPrefix.trans ⟨pending, logged⟩ complete⟩
  · obtain ⟨l, logged⟩ := uninterrupted n fun k _ => fluent'.orderly k
    obtain ⟨m, complete⟩ := interrupted_complete mret run fluent precise resumes l
    exact ⟨m, logged.trans complete⟩

end Handler

end Run

/-! ### A loop and a branch -/

/-- Timer interrupts are enabled and handled at `handler`. -/
def timerSetup (handler : Word) : Setup :=
  { Setup.reset with csrRegs := { CSR.reset with mstatus := 0x8#32, mie := 0x80#32, mtvec := handler } }

/-- The timer interrupt is raised in one cycle, and the bus answers at once. -/
def timerAt (cycle : ℕ) : ℕ → Stimulus := fun k =>
  { granted := true, readValid := true, writeValid := true, interruptFlag := if k = cycle then 1#32 else 0#32 }

/-- The loop `sw x1, 0(x0)`, `addi x3, x1, 1`, `addi x4, x3, 1`, `jal x0, -12`, and the handler `mret` behind it. -/
def storeLoop : Rv32im.Program := .ofWords ProgramCounter.entryAddress
  [0x00102023#32, 0x00108193#32, 0x00118213#32, 0xFF5FF06F#32, InstructionsRet.mret]

/-- The loop starts with what a round of it leaves behind. -/
def storeLoopHart : Hart where
  pc := ProgramCounter.entryAddress
  regs := fun r => [0#32, 5#32, 0#32, 6#32, 7#32].getD r.toNat 0#32
  memory := writeWord (fun _ => 0#8) 0#32 5#32 0xF#4

/-- No counter counts, the BTB predicts the jump of the loop, and timer interrupts are handled
    behind it. -/
def storeLoopSetup : Setup :=
  { timerSetup 0x1010#32 with
    csrRegs := { (timerSetup 0x1010#32).csrRegs with mcountinhibit := 0x3fd#32 }
    btb := { sumLoopSetup.btb with valid := fun index => index = 3#5 } }

theorem storeLoop_run : LegalRun storeLoop storeLoopHart := by
  refine LegalRun.of_invariant
    (fun hart => hart.pc = 0x1000#32 ∨ hart.pc = 0x1004#32 ∨ hart.pc = 0x1008#32 ∨
    hart.pc = 0x100C#32) (Or.inl rfl) ?_
  rintro hart (position | position | position | position)
  · have decoded : decode (storeLoop hart.pc) = some (.store .sw 0#5 1#5 0#32) := by
      rw [position]
      decide
    refine ⟨_, decoded, Rv32im.insideWord_fixedAccess rfl hart, Or.inr (Or.inl ?_)⟩
    simp [Instr.exec, Instr.nextPc, position]
  · have decoded : decode (storeLoop hart.pc) = some (.opImm .add 3#5 1#5 1#32) := by
      rw [position]
      decide
    refine ⟨_, decoded, Rv32im.insideWord_fixedAccess rfl hart, Or.inr (Or.inr (Or.inl ?_))⟩
    simp [Instr.exec, Instr.nextPc, position]
  · have decoded : decode (storeLoop hart.pc) = some (.opImm .add 4#5 3#5 1#32) := by
      rw [position]
      decide
    refine ⟨_, decoded, Rv32im.insideWord_fixedAccess rfl hart, Or.inr (Or.inr (Or.inr ?_))⟩
    simp [Instr.exec, Instr.nextPc, position]
  · have decoded : decode (storeLoop hart.pc) = some (.jal 0#5 0xFFFFFFF4#32) := by
      rw [position]
      decide
    refine ⟨_, decoded, Rv32im.insideWord_fixedAccess rfl hart, Or.inl ?_⟩
    simp [Instr.exec, Instr.nextPc, position]

theorem timerAt_later {cycle first k : ℕ} (past : cycle < first) (later : k ≥ first) :
    timerAt cycle k = timerAt cycle first := by
  rw [timerAt, timerAt, if_neg (by omega), if_neg (by omega)]

/-- The interrupt finds the store in ID, and the loop goes on behind the handler. -/
theorem storeLoop_interrupted (k : ℕ) :
    GoesOn storeLoop (interruptedAt storeLoop storeLoopSetup storeLoopHart (timerAt 1) k)
      (timerAt 1 k) ∧
      Precise storeLoop (interruptedAt storeLoop storeLoopSetup storeLoopHart (timerAt 1) k)
        (timerAt 1 k) :=
  loop_always (start storeLoopSetup storeLoopHart) (timerAt 1)
    (clocks_with storeLoop fun system => system.cpu.instFetch.predict)
    (fun system stimulus => GoesOn storeLoop system stimulus ∧
      Precise storeLoop system stimulus) 9 5 (by decide)
    (fun _ later => timerAt_later (by decide) later) (writeWord_twice _ _ _ _) (by decide +kernel) (by decide +kernel)
    (by decide +kernel) k

theorem storeLoop_uninterrupted (k : ℕ) :
    GoesOn storeLoop (stateAt storeLoop storeLoopSetup storeLoopHart immediate k)
      (immediate k).quiet :=
  loop_always (start storeLoopSetup storeLoopHart) (fun k => (immediate k).quiet)
    (clocks_with storeLoop fun system => system.cpu.instFetch.predict)
    (GoesOn storeLoop) 5 5 (by decide)
    (fun _ _ => rfl) (writeWord_twice _ _ _ _) (by decide +kernel)
    (by decide +kernel) (by decide +kernel) k

theorem storeLoop_transparent :
    interrupted storeLoop (interruptedAt storeLoop storeLoopSetup storeLoopHart (timerAt 1) 1)
      (timerAt 1 1) = true ∧
      (∀ n, ∃ m, interruptedLogAt storeLoop storeLoopSetup storeLoopHart (timerAt 1) n <+:
        logAt storeLoop storeLoopSetup storeLoopHart immediate m) ∧
      ∀ n, ∃ m, logAt storeLoop storeLoopSetup storeLoopHart immediate n <+:
        interruptedLogAt storeLoop storeLoopSetup storeLoopHart (timerAt 1) m := by
  have past : ∀ k ≥ 2,
      interrupted storeLoop (interruptedAt storeLoop storeLoopSetup storeLoopHart (timerAt 1) k) (timerAt 1 k) = true →
      (interruptedAt storeLoop storeLoopSetup storeLoopHart (timerAt 1) k).id ≠ .bubble := by
    intro k later enabled
    have quiet : (timerAt 1 k).interruptFlag = 0#32 := if_neg (by omega)
    simp [interrupted, PipelinedCPU.interruptEnabled, CLINT.interruptEnabled, PipelinedCPU.clintInputs, inputs,
      quiet] at enabled
  exact ⟨by decide +kernel, (interrupts_transparent (by decide) storeLoop_run storeLoopSetup immediate).2
    (fluent_answered (fun _ => ⟨rfl, rfl, rfl⟩) fun k => (storeLoop_interrupted k).1)
    (fun k => (storeLoop_interrupted k).2) ⟨2, past⟩
    (fluent_answered (fun _ => ⟨rfl, rfl, rfl⟩) storeLoop_uninterrupted)⟩

/-- `addi x3, x0, 1`, `bne x0, x0, 12`, `addi x4, x0, 1`, `addi x5, x0, 1`, `jal x0, 0`, and the
    handler `mret`. -/
def untakenBranch : Rv32im.Program := .ofWords ProgramCounter.entryAddress
  [0x00100193#32, 0x00001663#32, 0x00100213#32, 0x00100293#32, 0x0000006F#32, InstructionsRet.mret]

theorem untakenBranch_run (hart : Hart) (start : hart.pc = 0x1000#32) :
    LegalRun untakenBranch hart := by
  refine LegalRun.of_invariant
    (fun hart => hart.pc = 0x1000#32 ∨ hart.pc = 0x1004#32 ∨ hart.pc = 0x1008#32 ∨
    hart.pc = 0x100C#32 ∨ hart.pc = 0x1010#32) (Or.inl start) ?_
  rintro hart (position | position | position | position | position)
  · have decoded : decode (untakenBranch hart.pc) = some (.opImm .add 3#5 0#5 1#32) := by
      rw [position]
      decide
    refine ⟨_, decoded, Rv32im.insideWord_fixedAccess rfl hart, Or.inr (Or.inl ?_)⟩
    simp [Instr.exec, Instr.nextPc, position]
  · have decoded : decode (untakenBranch hart.pc) = some (.branch .ne 0#5 0#5 12#32) := by
      rw [position]
      decide
    refine ⟨_, decoded, Rv32im.insideWord_fixedAccess rfl hart, Or.inr (Or.inr (Or.inl ?_))⟩
    simp [Instr.exec, Instr.nextPc, Rv32im.Condition.eval, position]
  · have decoded : decode (untakenBranch hart.pc) = some (.opImm .add 4#5 0#5 1#32) := by
      rw [position]
      decide
    refine ⟨_, decoded, Rv32im.insideWord_fixedAccess rfl hart,
      Or.inr (Or.inr (Or.inr (Or.inl ?_)))⟩
    simp [Instr.exec, Instr.nextPc, position]
  · have decoded : decode (untakenBranch hart.pc) = some (.opImm .add 5#5 0#5 1#32) := by
      rw [position]
      decide
    refine ⟨_, decoded, Rv32im.insideWord_fixedAccess rfl hart,
      Or.inr (Or.inr (Or.inr (Or.inr ?_)))⟩
    simp [Instr.exec, Instr.nextPc, position]
  · have decoded : decode (untakenBranch hart.pc) = some (.jal 0#5 0#32) := by
      rw [position]
      decide
    refine ⟨_, decoded, Rv32im.insideWord_fixedAccess rfl hart,
      Or.inr (Or.inr (Or.inr (Or.inr ?_)))⟩
    simp [Instr.exec, Instr.nextPc, position]

/-- The interrupt that finds the untaken branch in ID saves the target of the branch, and the two
    instructions behind the branch are never executed. -/
theorem untakenBranch_skips :
    LegalRun untakenBranch resetHart ∧
      ¬ interruptedLogAt untakenBranch (timerSetup 0x1014#32) resetHart (timerAt 2) 10 <+:
        logAt untakenBranch (timerSetup 0x1014#32) resetHart immediate 9 ∧
      ¬ logAt untakenBranch (timerSetup 0x1014#32) resetHart immediate 9 <+:
        interruptedLogAt untakenBranch (timerSetup 0x1014#32) resetHart (timerAt 2) 10 := by
  have skipping : interruptedLogAt untakenBranch (timerSetup 0x1014#32) resetHart (timerAt 2) 10 =
      [.retire 0x1000#32 (some (3#5, 1#32)), .retire 0x1004#32 none, .retire 0x1010#32 none] := by
        decide +kernel
  have sequential : logAt untakenBranch (timerSetup 0x1014#32) resetHart immediate 9 =
      [.retire 0x1000#32 (some (3#5, 1#32)), .retire 0x1004#32 none,
      .retire 0x1008#32 (some (4#5, 1#32)),
        .retire 0x100C#32 (some (5#5, 1#32)), .retire 0x1010#32 none] := by decide +kernel
  rw [skipping, sequential]
  exact ⟨untakenBranch_run resetHart rfl, by decide, by decide⟩

end MyCpu.System
