import Mathlib.Tactic.MkIffOfInductiveProp
import MyCpu.Verified.FrontEnd
import MyCpu.Verified.IdStage
import MyCpu.Verified.TrapOnce

/-! # The phases of a run

Between two edges the pipeline is ahead of the program's effects: the instructions
behind ID are still in flight, and ID and fetch are positioned for the next one.
Either ID is empty and fetch stands at the next instruction, or ID holds the next
instruction and fetch has followed a prediction behind it.  In an orderly cycle each
phase leads to one of the two again, and the log takes the events that leave the
pipeline. -/

namespace MyCpu.System

open Rv32im (Hart Instr Event Encodes LegalRun decode)

variable {program : Rv32im.Program} {predictions : Predictions}
    {system : System} {stimulus : Stimulus}

/-! ## The boundaries around ID -/

section Boundaries

variable (predictions) in
theorem id_held
    (stalled : PipelinedCPU.fetchStall system.cpu (inputs program system stimulus) = true)
    (kept : PipelinedCPU.if2idFlush system.cpu (inputs program system stimulus) = false) :
    (stepWith program predictions system stimulus).cpu.if2id = system.cpu.if2id ∧
      (stepWith program predictions system stimulus).id = system.id := by
  rw [PipelinedCPU.fetchStall_eq] at stalled
  constructor
  · simp only [stepWith, PipelinedCPU.stepWith, stalled, kept, pipelineRegister_stall]
  · simp only [stepWith, stalled, kept, pipelineRegister_stall]

variable (predictions) in
theorem id_flushed
    (flushed : PipelinedCPU.if2idFlush system.cpu (inputs program system stimulus) = true) :
    (stepWith program predictions system stimulus).cpu.if2id = IF2ID.bubble ∧
      (stepWith program predictions system stimulus).id = .bubble := by
  constructor
  · simp only [stepWith, PipelinedCPU.stepWith, flushed, pipelineRegister_flush]
  · simp only [stepWith, flushed, pipelineRegister_flush]

variable (predictions) in
theorem id_captured
    (running : PipelinedCPU.fetchStall system.cpu (inputs program system stimulus) = false)
    (kept : PipelinedCPU.if2idFlush system.cpu (inputs program system stimulus) = false) :
    (stepWith program predictions system stimulus).cpu.if2id =
        PipelinedCPU.if2idInput predictions system.cpu (inputs program system stimulus) ∧
      (stepWith program predictions system stimulus).id = fetches program system := by
  rw [PipelinedCPU.fetchStall_eq] at running
  constructor
  · simp only [stepWith, PipelinedCPU.stepWith, running, kept, pipelineRegister_capture]
  · simp only [stepWith, running, kept, pipelineRegister_capture]

theorem idHolds_flushed (flushed : PipelinedCPU.if2idFlush system.cpu
    (inputs program system stimulus) = true) :
    IdHolds (stepWith program predictions system stimulus) := by
  obtain ⟨word, occupant⟩ := id_flushed predictions flushed
  refine ⟨fun _ => by rw [word]; rfl, fun handler => ?_, fun program => ?_, ?_⟩
  · rw [occupant] at handler
    exact Occupant.noConfusion handler
  · rw [occupant] at program
    exact Occupant.noConfusion program
  · rw [occupant]
    exact Occupant.noConfusion

theorem idHolds_held (holds : IdHolds system) {next : System}
    (word : next.cpu.if2id = system.cpu.if2id)
    (occupant : next.id = system.id) : IdHolds next := by
  refine ⟨?_, ?_, ?_, ?_⟩
  all_goals rw [occupant]
  · rw [word]
    exact holds.bubble
  · rw [word]
    exact holds.handler
  · rw [word]
    exact holds.instruction
  · exact holds.original

end Boundaries

/-! ## The instructions in flight -/

/-- The events of the instructions behind ID that the log has not taken yet. -/
def pendingEvents (system : System) : List Event := memEvents system ++ exEvents system

/-- An edge that moves the pipeline logs MEM and leaves EX pending. -/
theorem pendingEvents_running (steady : Steady system)
    (running : memStall program system stimulus = false)
    (events : List Event)
    (issued : exEvents (stepWith program predictions system stimulus) = events) :
    pendingEvents system ++ events =
      emit program system stimulus ++ pendingEvents
        (stepWith program predictions system stimulus) := by
  rw [pendingEvents, pendingEvents, issued, exEvents_running steady running,
    memEvents_running steady running, List.append_assoc]

/-- The stages behind ID lead to the state of the instruction set before the word in ID. -/
structure Backed (system : System) (hart : Hart) (word : Word) : Prop where
  steady : Steady system
  represents : Represents (afterEx system) hart (Stale word)
  withoutEx : system.ex = .reissued → Represents (afterMem system) hart (Stale word)

section Backed

variable {hart hart' : Hart} {word word' : Word}

/-- What a word leaves stale is stale for a word that leaves more stale. -/
theorem Backed.weaken (backed : Backed system hart word)
    (stale : ∀ r, Stale word r → Stale word' r) :
    Backed system hart word' where
  steady := backed.steady
  represents :=
    ⟨backed.represents.memory, fun r nonzero current => backed.represents.regs r nonzero fun old =>
      current (stale r old)⟩
  withoutEx := fun copy => ⟨(backed.withoutEx copy).memory, fun r nonzero current =>
    (backed.withoutEx copy).regs r nonzero fun old => current (stale r old)⟩

variable (predictions) in
theorem Backed.stalled (backed : Backed system hart word)
    (stalled : memStall program system stimulus = true)
    (kept : PipelinedCPU.id2exFlush system.cpu (inputs program system stimulus) = true →
      system.ex ≠ .instruction) :
    Backed (stepWith program predictions system stimulus) hart word ∧
      pendingEvents system =
        emit program system stimulus ++ pendingEvents
          (stepWith program predictions system stimulus) := by
  have steady := backed.steady
  refine ⟨⟨steady_stalled steady stalled, ?_, ?_⟩, ?_⟩
  · obtain same | ⟨flush, dropped⟩ := afterEx_stalled predictions steady stalled
    · rw [same]
      exact backed.represents
    · -- What EX loses is nothing, or an early copy that ID still holds.
      rw [dropped]
      cases lost : system.ex with
      | instruction => exact absurd lost (kept flush)
      | reissued => exact backed.withoutEx lost
      | bubble | handler =>
        rw [← afterEx_passive steady (by rw [lost]; rfl)]
        exact backed.represents
  · intro copy
    rw [afterMem_stalled steady stalled]
    obtain ⟨_, _, bubble⟩ | ⟨_, same⟩ := id2ex_stalled predictions stalled
    · rw [bubble] at copy
      exact Occupant.noConfusion copy
    · exact backed.withoutEx (same.symm.trans copy)
  · rw [pendingEvents, pendingEvents, memEvents_stalled predictions steady stalled,
      exEvents_stalled steady stalled kept, List.append_assoc]

theorem Backed.unissued (backed : Backed system hart word)
    (running : memStall program system stimulus = false)
    (passable : Passable system)
    (passive : (stepWith program predictions system stimulus).ex.passive = true) :
    Backed (stepWith program predictions system stimulus) hart word ∧
      pendingEvents system =
        emit program system stimulus ++ pendingEvents
          (stepWith program predictions system stimulus) := by
  have steady := backed.steady
  have other : ∀ occupant, (stepWith program predictions system stimulus).ex = occupant →
      occupant.passive = true := by
    rintro occupant rfl
    exact passive
  refine ⟨⟨steady_running steady running passable, ?_, ?_⟩, ?_⟩
  · rw [issue_nothing steady running passable passive]
    exact backed.represents
  · intro copy
    exact Bool.noConfusion (other _ copy)
  · have none : exEvents (stepWith program predictions system stimulus) = [] :=
      exEvents_other fun program => Bool.noConfusion (other _ program)
    rw [← pendingEvents_running steady running [] none, List.append_nil]

theorem Backed.issued (backed : Backed system hart word)
    (running : memStall program system stimulus = false)
    (passable : Passable system)
    (taken : (stepWith program predictions system stimulus).ex = .instruction)
    (represents : Represents (afterEx (stepWith program predictions system stimulus)) hart'
      fun _ => False)
    {events : List Event}
    (issued : exEvents (stepWith program predictions system stimulus) = events) :
    Backed (stepWith program predictions system stimulus) hart' word' ∧
      pendingEvents system ++ events =
        emit program system stimulus ++ pendingEvents
          (stepWith program predictions system stimulus) := by
  refine ⟨⟨steady_running backed.steady running passable, represents.weaken, ?_⟩,
    pendingEvents_running backed.steady running _ issued⟩
  intro copy
  rw [taken] at copy
  exact Occupant.noConfusion copy

variable (predictions) in
theorem Backed.held (backed : Backed system hart system.cpu.if2id.instruction)
    (running : memStall program system stimulus = false) (passable : Passable system)
    (once : PipelinedCPU.id2exFlush system.cpu (inputs program system stimulus) = false →
      PipelinedCPU.branchHazard system.cpu = true ∧
        (InstructionDecode.opcode system.cpu.if2id.instruction = Instructions.jalr →
          Rv32im.rd system.cpu.if2id.instruction ≠ Rv32im.rs1 system.cpu.if2id.instruction))
    (program' : system.id = .instruction) :
    Backed (stepWith program predictions system stimulus) hart system.cpu.if2id.instruction ∧
      pendingEvents system =
        emit program system stimulus ++ pendingEvents
          (stepWith program predictions system stimulus) := by
  -- a branch or jump that a hazard holds in ID leaves a bubble or an early copy in EX
  have steady := backed.steady
  cases flush : PipelinedCPU.id2exFlush system.cpu (inputs program system stimulus) with
  | true =>
    refine backed.unissued running passable ?_
    obtain ⟨_, _, bubble⟩ | ⟨kept, _⟩ := id2ex_running predictions running
    · rw [bubble]
      rfl
    · rw [flush] at kept
      exact Bool.noConfusion kept
  | false =>
    obtain ⟨hazard, unread⟩ := once flush
    have copy : (stepWith program predictions system stimulus).ex = .reissued := by
      rw [ex_issued running flush, issues, if_pos ⟨program', hazard⟩]
    refine ⟨⟨steady_running steady running passable, ?_, fun _ => ?_⟩, ?_⟩
    · exact issue_reissued running flush steady hazard unread backed.represents
    · rw [afterMem_running steady running]
      exact backed.represents
    · have none : exEvents (stepWith program predictions system stimulus) = [] :=
        exEvents_other (by rw [copy]; exact Occupant.noConfusion)
      rw [← pendingEvents_running steady running [] none, List.append_nil]

end Backed

/-- The instructions behind ID lead to the state of the instruction set before the word in ID. -/
structure InFlight (system : System) (hart : Hart) : Prop where
  settled : Settled system
  holds : IdHolds system
  represents : Represents (afterEx system) hart (Stale system.cpu.if2id.instruction)
  withoutEx : system.ex = .reissued →
    Represents (afterMem system) hart (Stale system.cpu.if2id.instruction)

section InFlight

variable {hart : Hart} {instr : Instr}

theorem InFlight.backed (inFlight : InFlight system hart) :
    Backed system hart system.cpu.if2id.instruction :=
  ⟨inFlight.settled.toSteady, inFlight.represents, inFlight.withoutEx⟩

theorem InFlight.passable (inFlight : InFlight system hart) : Passable system :=
  (issuable inFlight.holds).toPassable

theorem InFlight.stalled (inFlight : InFlight system hart)
    (stalled : memStall program system stimulus = true)
    (kept : PipelinedCPU.id2exFlush system.cpu (inputs program system stimulus) = true →
      system.ex ≠ .instruction) :
    InFlight (stepWith program predictions system stimulus) hart ∧
      pendingEvents system =
        emit program system stimulus ++ pendingEvents
          (stepWith program predictions system stimulus) := by
  obtain ⟨word, occupant⟩ := id_held predictions
    ((Bool.or_eq_true _ _).mpr (Or.inr stalled) : PipelinedCPU.fetchStall system.cpu
      (inputs program system stimulus) = true)
    (PipelinedCPU.if2idFlush_memStall _ _ stalled)
  obtain ⟨backed, events⟩ := inFlight.backed.stalled predictions stalled kept
  rw [← word] at backed
  exact ⟨⟨settled_stalled inFlight.settled stalled,
    idHolds_held inFlight.holds word occupant, backed.represents, backed.withoutEx⟩, events⟩

theorem InFlight.unissued (inFlight : InFlight system hart)
    (running : memStall program system stimulus = false)
    (holds : IdHolds (stepWith program predictions system stimulus))
    (passive : (stepWith program predictions system stimulus).ex.passive = true)
    (stale : ∀ r, Stale system.cpu.if2id.instruction r →
      Stale (stepWith program predictions system stimulus).cpu.if2id.instruction r) :
    InFlight (stepWith program predictions system stimulus) hart ∧
      pendingEvents system =
        emit program system stimulus ++ pendingEvents
          (stepWith program predictions system stimulus) := by
  obtain ⟨backed, events⟩ := inFlight.backed.unissued running inFlight.passable passive
  have backed := backed.weaken stale
  exact ⟨⟨settled_running inFlight.settled running (issuable inFlight.holds),
    holds, backed.represents, backed.withoutEx⟩, events⟩

variable (predictions) in
theorem InFlight.issued (inFlight : InFlight system hart)
    (running : memStall program system stimulus = false)
    (kept : PipelinedCPU.id2exFlush system.cpu (inputs program system stimulus) = false)
    (holds : IdHolds (stepWith program predictions system stimulus))
    (encodes : Encodes system.cpu.if2id.instruction instr) (inside : Rv32im.InsideWord instr hart)
    (address : system.cpu.if2id.instructionAddress = hart.pc)
    (issued : issues system = .instruction) :
    InFlight (stepWith program predictions system stimulus) (instr.exec hart) ∧
      pendingEvents system ++ instr.events hart =
        emit program system stimulus ++ pendingEvents
          (stepWith program predictions system stimulus) := by
  obtain ⟨represents, executed⟩ :=
    issue_instruction predictions running kept inFlight.settled.toSteady encodes inside
      address inFlight.represents issued
  obtain ⟨backed, events⟩ := inFlight.backed.issued running inFlight.passable
    ((ex_issued running kept).trans issued) represents executed
  exact ⟨⟨settled_running inFlight.settled running (issuable inFlight.holds),
    holds, backed.represents, backed.withoutEx⟩, events⟩

theorem InFlight.held (inFlight : InFlight system hart)
    (running : memStall program system stimulus = false)
    (word : (stepWith program predictions system stimulus).cpu.if2id = system.cpu.if2id)
    (occupant : (stepWith program predictions system stimulus).id = system.id)
    (once : PipelinedCPU.id2exFlush system.cpu (inputs program system stimulus) = false →
      PipelinedCPU.branchHazard system.cpu = true ∧
        (InstructionDecode.opcode system.cpu.if2id.instruction = Instructions.jalr →
          Rv32im.rd system.cpu.if2id.instruction ≠ Rv32im.rs1 system.cpu.if2id.instruction))
    (program' : system.id = .instruction) :
    InFlight (stepWith program predictions system stimulus) hart ∧
      pendingEvents system =
        emit program system stimulus ++ pendingEvents
          (stepWith program predictions system stimulus) := by
  obtain ⟨backed, events⟩ :=
    inFlight.backed.held predictions running inFlight.passable once program'
  rw [← word] at backed
  exact ⟨⟨settled_running inFlight.settled running (issuable inFlight.holds),
    idHolds_held inFlight.holds word occupant, backed.represents, backed.withoutEx⟩, events⟩

end InFlight

/-! ## Orderly cycles -/

/-- The combinations of stall, flush and redirect that a cycle has to avoid. -/
@[mk_iff] structure Orderly (program : Rv32im.Program) (system : System) (stimulus : Stimulus) :
    Prop where
  /-- A hazard that holds an instruction in ID keeps it out of EX, or is one on the operands of a
      branch or jump, and not of a JALR that would read its own link. -/
  issuedOnce : memStall program system stimulus = false → PipelinedCPU.pcStall system.cpu = true →
    PipelinedCPU.id2exFlush system.cpu (inputs program system stimulus) = false →
    system.id = .instruction →
    PipelinedCPU.branchHazard system.cpu = true ∧
      (InstructionDecode.opcode system.cpu.if2id.instruction = Instructions.jalr →
        Rv32im.rd system.cpu.if2id.instruction ≠ Rv32im.rs1 system.cpu.if2id.instruction)
  /-- While MEM waits, EX is not flushed with an instruction in it. -/
  keptInEx : memStall program system stimulus = true →
    PipelinedCPU.id2exFlush system.cpu (inputs program system stimulus) = true →
    system.ex ≠ .instruction
  /-- A redirect that fetch has already taken is not latched again. -/
  redirectedOnce : PipelinedCPU.fetchStall system.cpu (inputs program system stimulus) = true →
    system.cpu.instFetch.prevJumpFlag = true → system.cpu.instFetch.pendingJump = false →
    PipelinedCPU.actualTaken system.cpu (inputs program system stimulus) = true
  /-- A correct prediction is one of the BTB, resolved while fetch moves. -/
  foretoldOnce : PipelinedCPU.actualTaken system.cpu (inputs program system stimulus) = true →
    PipelinedCPU.predictionCorrect system.cpu (inputs program system stimulus) = true →
    PipelinedCPU.btbCorrectPrediction system.cpu (inputs program system stimulus) = true ∧
      PipelinedCPU.fetchStall system.cpu (inputs program system stimulus) = false
  /-- A misprediction does not meet a hazard. -/
  correctedFreely : memStall program system stimulus = false →
    PipelinedCPU.pcStall system.cpu = true →
    PipelinedCPU.mispredicted system.cpu (inputs program system stimulus) = false

set_option synthInstance.maxSize 400 in
instance : Decidable (Orderly program system stimulus) :=
  decidable_of_iff _ (orderly_iff program system stimulus).symm

/-! ## The two phases -/

/-- ID is empty and fetch stands at an address. -/
structure Awaiting (program : Rv32im.Program) (system : System) (hart : Hart) (address : Word) :
    Prop where
  inFlight : InFlight system hart
  run : LegalRun program hart
  occupant : system.id = .bubble
  vacant : PipelinedCPU.idVacant system.cpu
  pc : system.cpu.instFetch.pc = address
  unlatched : system.cpu.instFetch.pendingJump = false
  corrected : system.cpu.btbMispredictPending = false

/-- Fetch was wrong behind the instruction in ID. -/
def wrong (system : System) (hart : Hart) (instr : Instr) : Bool :=
  system.cpu.if2id.wrong (instr.transfers hart) (instr.nextPc hart)

/-- ID holds the next instruction, and what is latched will redirect fetch behind it. -/
structure Holding (program : Rv32im.Program) (system : System) (hart : Hart) (instr : Instr) :
    Prop where
  inFlight : InFlight system hart
  run : LegalRun program hart
  occupant : system.id = .instruction
  decoded : decode (program hart.pc) = some instr
  word : system.cpu.if2id.instruction = program hart.pc
  address : system.cpu.if2id.instructionAddress = hart.pc
  predecoded : system.cpu.if2id.Predecoded
  pc : system.cpu.instFetch.pc = system.cpu.if2id.predictedNext
  latched : system.cpu.instFetch.pendingJump = true →
    wrong system hart instr = true ∧ system.cpu.instFetch.pendingJumpAddr = instr.nextPc hart
  previous : system.cpu.instFetch.pendingJump = true → system.cpu.instFetch.prevJumpFlag = true →
    system.cpu.instFetch.prevJumpAddr = instr.nextPc hart
  corrected : system.cpu.btbMispredictPending = true →
    wrong system hart instr = true ∧ system.cpu.btbCorrectionAddrPending = instr.nextPc hart

section Phases

variable {hart : Hart} {instr : Instr}

theorem Awaiting.waiting {address : Word} (awaiting : Awaiting program system hart address) :
    PipelinedCPU.Waiting system.cpu address :=
  ⟨awaiting.vacant, awaiting.pc, awaiting.unlatched, awaiting.corrected⟩

theorem awaiting_intro {address : Word} (inFlight : InFlight system hart)
    (run : LegalRun program hart)
    (occupant : system.id = .bubble) (waiting : PipelinedCPU.Waiting system.cpu address) :
    Awaiting program system hart address :=
  ⟨inFlight, run, occupant, waiting.vacant, waiting.pc, waiting.unlatched, waiting.corrected⟩

theorem Holding.followed (holding : Holding program system hart instr) :
    PipelinedCPU.Followed system.cpu (instr.transfers hart) (instr.nextPc hart) :=
  ⟨holding.predecoded, holding.pc, holding.latched, holding.previous, holding.corrected⟩

theorem holding_intro (inFlight : InFlight system hart) (run : LegalRun program hart)
    (occupant : system.id = .instruction) (decoded : decode (program hart.pc) = some instr)
    (word : system.cpu.if2id.instruction = program hart.pc)
    (address : system.cpu.if2id.instructionAddress = hart.pc)
    (followed : PipelinedCPU.Followed system.cpu (instr.transfers hart) (instr.nextPc hart)) :
    Holding program system hart instr :=
  ⟨inFlight, run, occupant, decoded, word, address, followed.predecoded,
  followed.pc, followed.latched,
    followed.previous, followed.corrected⟩

theorem fetches_decoded (position : system.cpu.instFetch.pc = hart.pc)
    (decoded : decode (program hart.pc) = some instr) : fetches program system = .instruction := by
  rw [fetches, position, if_neg]
  intro mret
  have illegal : decode InstructionsRet.mret = none := by decide
  rw [mret, illegal] at decoded
  exact absurd decoded.symm (Option.some_ne_none instr)

variable (predictions) in
/-- The fetched instruction is the next one, and fetch follows its prediction. -/
theorem holding_captured (running : PipelinedCPU.fetchStall system.cpu
    (inputs program system stimulus) = false)
    (kept : PipelinedCPU.if2idFlush system.cpu (inputs program system stimulus) = false)
    (undisturbed : ¬ PipelinedCPU.Redirects system.cpu (inputs program system stimulus))
    (position : system.cpu.instFetch.pc = hart.pc) (run : LegalRun program hart)
    (inFlight : IdHolds (stepWith program predictions system stimulus) →
      InFlight (stepWith program predictions system stimulus) hart) :
    ∃ instr, Holding program (stepWith program predictions system stimulus) hart instr := by
  obtain ⟨instr, decoded, _⟩ := run 0
  obtain ⟨captured, taken⟩ := id_captured predictions running kept
  have occupant : (stepWith program predictions system stimulus).id = .instruction :=
    taken.trans (fetches_decoded position decoded)
  have word : (stepWith program predictions system stimulus).cpu.if2id.instruction =
      program hart.pc := by
    rw [captured, ← position]
    rfl
  have holds : IdHolds (stepWith program predictions system stimulus) := by
    refine ⟨fun empty => ?_, fun handler => ?_, fun _ => ⟨instr, ?_⟩, ?_⟩
    · exact Occupant.noConfusion (occupant.symm.trans empty)
    · exact Occupant.noConfusion (occupant.symm.trans handler)
    · rw [word]
      exact Rv32im.decode_encodes decoded
    · rw [occupant]
      exact Occupant.noConfusion
  refine ⟨instr, holding_intro (inFlight holds) run occupant decoded word ?_
    (PipelinedCPU.followed_captured predictions running kept undisturbed rfl)⟩
  rw [captured, ← position]
  rfl

variable (predictions) in
theorem awaiting_flushed {address : Word}
    (running : PipelinedCPU.fetchStall system.cpu (inputs program system stimulus) = false)
    (flushed : PipelinedCPU.needIfFlush system.cpu (inputs program system stimulus) = true)
    (redirects : PipelinedCPU.RedirectsTo system.cpu (inputs program system stimulus) address)
    (run : LegalRun program hart)
    (inFlight : IdHolds (stepWith program predictions system stimulus) →
      InFlight (stepWith program predictions system stimulus) hart) :
    Awaiting program (stepWith program predictions system stimulus) hart address := by
  have waiting := PipelinedCPU.waiting_flushed predictions running flushed redirects
  have flush : PipelinedCPU.if2idFlush system.cpu (inputs program system stimulus) = true := by
    rw [PipelinedCPU.if2idFlush, flushed, (Bool.or_eq_false_iff.mp running).2]
    rfl
  exact awaiting_intro (inFlight (idHolds_flushed flush)) run
    (id_flushed predictions flush).2 waiting

/-! ## Resolution in ID -/

theorem interruptAssert_quiet {cpu : PipelinedCPU} {io : PipelinedCPU.Inputs}
    (environment : CLINT.isEnvironmentTrap cpu.if2id.instruction = false)
    (mret : cpu.if2id.instruction ≠ InstructionsRet.mret)
    (quiet : PipelinedCPU.interruptEnabled cpu io = false) :
    PipelinedCPU.interruptAssert cpu io = false := by
  have environment' : ¬ CLINT.isEnvironmentTrap
      (PipelinedCPU.clintInputs cpu io).instructionId = true := by
    rw [Bool.not_eq_true]
    exact environment
  have quiet' : ¬ CLINT.interruptEnabled (PipelinedCPU.clintInputs cpu io)
      (PipelinedCPU.trapView cpu io) = true := by
    rw [Bool.not_eq_true]
    exact quiet
  have mret' : ¬ (PipelinedCPU.clintInputs cpu io).instructionId = InstructionsRet.mret := mret
  rw [PipelinedCPU.interruptAssert, PipelinedCPU.trap, CLINT.outputs,
    if_neg environment', if_neg quiet', if_neg mret']
  rfl

theorem encodes_untrapped {word : Word} (encodes : Encodes word instr) :
    CLINT.isEnvironmentTrap word = false ∧ word ≠ InstructionsRet.mret := by
  have notCsr := encodes_notCsr encodes
  constructor
  · rw [CLINT.isEnvironmentTrap, Bool.or_eq_false_iff, decide_eq_false_iff_not,
      decide_eq_false_iff_not]
    constructor
    · rintro rfl
      exact notCsr (by decide)
    · rintro rfl
      exact notCsr (by decide)
  · rintro rfl
    exact notCsr (by decide)

theorem Holding.encodes (holding : Holding program system hart instr) :
    Encodes system.cpu.if2id.instruction instr := by
  rw [holding.word]
  exact Rv32im.decode_encodes holding.decoded

theorem Holding.inside (holding : Holding program system hart instr) :
    Rv32im.InsideWord instr hart := by
  obtain ⟨other, decoded, inside⟩ := holding.run 0
  have same : instr = other := Option.some.inj (holding.decoded.symm.trans decoded)
  rw [same]
  exact inside

variable (stimulus) in
/-- The branch decision of ID, once its operands are ready. -/
theorem branchTaken_backed (backed : Backed system hart system.cpu.if2id.instruction)
    (encodes : Encodes system.cpu.if2id.instruction instr)
    (address : system.cpu.if2id.instructionAddress = hart.pc)
    (ready : PipelinedCPU.branchHazard system.cpu = false) :
    PipelinedCPU.branchTaken system.cpu (inputs program system stimulus) = instr.transfers hart ∧
      (instr.transfers hart = true →
        PipelinedCPU.clintJumpAddress system.cpu (inputs program system stimulus) =
          instr.nextPc hart) := by
  rw [PipelinedCPU.branchTaken, PipelinedCPU.clintJumpAddress, ready, address]
  cases jump : PipelinedCPU.isBranchOrJump system.cpu with
  | true =>
    have compared := compares program stimulus backed.steady backed.represents ready jump
    exact ⟨branchTaken_encodes encodes compared, clintJumpAddress_encodes encodes compared⟩
  | false =>
    have sequential : instr.transfers hart = false := by
      by_contra transfers
      have jumps := isBranchOrJump_encodes encodes (Bool.of_not_eq_false transfers)
      exact Bool.noConfusion (jump.symm.trans jumps)
    simp only [PipelinedCPU.isBranchOrJump,
      InstructionDecode.ctrlJumpInstruction, Bool.or_eq_false_iff, decide_eq_false_iff_not] at jump
    rw [branchTaken_other jump.1.1 jump.1.2 jump.2, sequential]
    exact ⟨rfl, fun transfers => Bool.noConfusion transfers⟩

theorem resolves_backed (backed : Backed system hart system.cpu.if2id.instruction)
    (encodes : Encodes system.cpu.if2id.instruction instr)
    (address : system.cpu.if2id.instructionAddress = hart.pc)
    (noTrap : PipelinedCPU.interruptAssert system.cpu (inputs program system stimulus) = false)
    (ready : PipelinedCPU.branchHazard system.cpu = false) :
    PipelinedCPU.Resolves system.cpu (inputs program system stimulus) (instr.transfers hart)
      (instr.nextPc hart) := by
  obtain ⟨taken, target⟩ := branchTaken_backed stimulus backed encodes address ready
  refine ⟨?_, ?_, ?_, isBranchOrJump_encodes encodes, ?_⟩
  · rw [PipelinedCPU.actualTaken, InstructionDecode.ifJumpFlag, noTrap, taken, Bool.or_false]
  · rw [PipelinedCPU.actualTarget, InstructionDecode.ifJumpAddress, noTrap,
      if_neg Bool.false_ne_true]
    exact target
  · rw [address]
    exact Rv32im.Instr.nextPc_sequential
  · intro jalr
    have code : InstructionDecode.opcode system.cpu.if2id.instruction = Instructions.jalr := by
      simpa [PipelinedCPU.isJalr, InstructionFetch.isJalr] using jalr
    rw [← taken, PipelinedCPU.branchTaken, ready, InstructionDecode.branchTaken, code]
    rfl

variable (stimulus) in
theorem Holding.branchTaken (holding : Holding program system hart instr)
    (ready : PipelinedCPU.branchHazard system.cpu = false) :
    PipelinedCPU.branchTaken system.cpu (inputs program system stimulus) = instr.transfers hart ∧
      (instr.transfers hart = true →
        PipelinedCPU.clintJumpAddress system.cpu
          (inputs program system stimulus) = instr.nextPc hart) :=
  branchTaken_backed stimulus holding.inFlight.backed holding.encodes holding.address ready

theorem Holding.noTrap (holding : Holding program system hart instr)
    (quiet : PipelinedCPU.interruptEnabled system.cpu (inputs program system stimulus) = false) :
    PipelinedCPU.interruptAssert system.cpu (inputs program system stimulus) = false :=
  interruptAssert_quiet (encodes_untrapped holding.encodes).1
    (encodes_untrapped holding.encodes).2 quiet

theorem Holding.resolves (holding : Holding program system hart instr)
    (ready : PipelinedCPU.branchHazard system.cpu = false)
    (quiet : PipelinedCPU.interruptEnabled system.cpu (inputs program system stimulus) = false) :
    PipelinedCPU.Resolves system.cpu (inputs program system stimulus) (instr.transfers hart)
      (instr.nextPc hart) :=
  resolves_backed holding.inFlight.backed holding.encodes holding.address
    (holding.noTrap quiet) ready

/-! ## A step of each phase -/

theorem Awaiting.noTrap {address : Word} (awaiting : Awaiting program system hart address)
    (quiet : PipelinedCPU.interruptEnabled system.cpu (inputs program system stimulus) = false) :
    PipelinedCPU.interruptAssert system.cpu (inputs program system stimulus) = false := by
  refine interruptAssert_quiet ?_ ?_ quiet
  all_goals rw [awaiting.vacant.1]
  all_goals decide

theorem passive_issued (passive : system.id.passive = true)
    (running : memStall program system stimulus = false) :
    (stepWith program predictions system stimulus).ex.passive = true := by
  obtain ⟨_, _, bubble⟩ | ⟨_, _, taken⟩ := id2ex_running predictions running
  · rw [bubble]
    rfl
  · have other : system.id ≠ .instruction := by
      intro program
      rw [program] at passive
      exact Bool.noConfusion passive
    rw [taken, issues, if_neg fun both => other both.1]
    exact passive

variable (predictions) in
theorem InFlight.passed (inFlight : InFlight system hart)
    (running : memStall program system stimulus = false)
    (passive : system.id.passive = true)
    (holds : IdHolds (stepWith program predictions system stimulus)) :
    InFlight (stepWith program predictions system stimulus) hart ∧
      pendingEvents system =
        emit program system stimulus ++ pendingEvents
          (stepWith program predictions system stimulus) := by
  refine inFlight.unissued running holds (passive_issued passive running) fun r stale => ?_
  obtain ⟨code, _⟩ := stale
  -- Neither a bubble nor the handler is a JALR.
  cases occupant : system.id with
  | bubble =>
    rw [inFlight.holds.bubble occupant] at code
    exact absurd code (by decide)
  | handler =>
    rw [inFlight.holds.handler occupant] at code
    exact absurd code (by decide)
  | instruction | reissued =>
    rw [occupant] at passive
    exact Bool.noConfusion passive

theorem Awaiting.passive {address : Word} (awaiting : Awaiting program system hart address) :
    system.id.passive = true := by
  rw [awaiting.occupant]
  rfl

theorem Awaiting.unflushed {address : Word} (awaiting : Awaiting program system hart address)
    (quiet : PipelinedCPU.interruptEnabled system.cpu (inputs program system stimulus) = false) :
    PipelinedCPU.if2idFlush system.cpu (inputs program system stimulus) = false :=
  awaiting.waiting.unflushed (awaiting.noTrap quiet)

variable (predictions) in
theorem Awaiting.stalled {address : Word} (awaiting : Awaiting program system hart address)
    (orderly : Orderly program system stimulus)
    (quiet : PipelinedCPU.interruptEnabled system.cpu (inputs program system stimulus) = false)
    (stalls : PipelinedCPU.fetchStall system.cpu (inputs program system stimulus) = true) :
    Awaiting program (stepWith program predictions system stimulus) hart address ∧
      pendingEvents system =
        emit program system stimulus ++ pendingEvents
          (stepWith program predictions system stimulus) := by
  have waiting := awaiting.waiting.stalled predictions (awaiting.noTrap quiet) stalls
    (orderly.redirectedOnce stalls)
  obtain ⟨word, occupant⟩ := id_held predictions stalls (awaiting.unflushed quiet)
  have flight : InFlight (stepWith program predictions system stimulus) hart ∧
      pendingEvents system =
      emit program system stimulus ++ pendingEvents
        (stepWith program predictions system stimulus) := by
    cases waits : memStall program system stimulus with
    | true => exact awaiting.inFlight.stalled waits (orderly.keptInEx waits)
    | false =>
      exact awaiting.inFlight.passed predictions waits awaiting.passive
        (idHolds_held awaiting.inFlight.holds word occupant)
  exact ⟨awaiting_intro flight.1 awaiting.run (occupant.trans awaiting.occupant) waiting, flight.2⟩

variable (predictions) in
theorem Awaiting.captured (awaiting : Awaiting program system hart hart.pc)
    (quiet : PipelinedCPU.interruptEnabled system.cpu (inputs program system stimulus) = false)
    (moves : PipelinedCPU.fetchStall system.cpu (inputs program system stimulus) = false) :
    (∃ instr, Holding program (stepWith program predictions system stimulus) hart instr) ∧
      pendingEvents system =
        emit program system stimulus ++ pendingEvents
          (stepWith program predictions system stimulus) := by
  have running : memStall program system stimulus = false := PipelinedCPU.fetchStall_running moves
  have undisturbed := awaiting.waiting.undisturbed (awaiting.noTrap quiet)
  obtain ⟨instr, holding⟩ :=
    holding_captured predictions moves (awaiting.unflushed quiet) undisturbed
      awaiting.pc awaiting.run fun holds =>
        (awaiting.inFlight.passed predictions running awaiting.passive holds).1
  exact ⟨⟨instr, holding⟩,
    (awaiting.inFlight.passed predictions running awaiting.passive holding.inFlight.holds).2⟩

variable (predictions) in
theorem Holding.stalled (holding : Holding program system hart instr)
    (orderly : Orderly program system stimulus)
    (quiet : PipelinedCPU.interruptEnabled system.cpu (inputs program system stimulus) = false)
    (stalls : PipelinedCPU.fetchStall system.cpu (inputs program system stimulus) = true) :
    Holding program (stepWith program predictions system stimulus) hart instr ∧
      pendingEvents system =
        emit program system stimulus ++ pendingEvents
          (stepWith program predictions system stimulus) := by
  have kept := PipelinedCPU.unflushed_stalled stalls orderly.correctedFreely
  obtain ⟨word, occupant⟩ := id_held predictions stalls kept
  have flight : InFlight (stepWith program predictions system stimulus) hart ∧
      pendingEvents system =
      emit program system stimulus ++ pendingEvents
        (stepWith program predictions system stimulus) := by
    cases waits : memStall program system stimulus with
    | true => exact holding.inFlight.stalled waits (orderly.keptInEx waits)
    | false =>
      have hazard : PipelinedCPU.pcStall system.cpu = true := by
        obtain hazard | waits' := (Bool.or_eq_true _ _).mp stalls
        · exact hazard
        · exact Bool.noConfusion (waits.symm.trans waits')
      exact holding.inFlight.held waits word occupant
        (fun issues => orderly.issuedOnce waits hazard issues holding.occupant) holding.occupant
  have followed := holding.followed.stalled predictions (fun ready => holding.resolves ready quiet)
    orderly.foretoldOnce (holding.noTrap quiet) stalls kept (orderly.redirectedOnce stalls)
  refine ⟨holding_intro flight.1 holding.run
    (occupant.trans holding.occupant) holding.decoded ?_ ?_ followed, flight.2⟩
  · rw [word]
    exact holding.word
  · rw [word]
    exact holding.address

variable (predictions) in
/-- When fetch moves, the instruction in ID goes into EX. -/
theorem Holding.issued (holding : Holding program system hart instr)
    (moves : PipelinedCPU.fetchStall system.cpu (inputs program system stimulus) = false)
    (holds : IdHolds (stepWith program predictions system stimulus)) :
    InFlight (stepWith program predictions system stimulus) (instr.exec hart) ∧
      pendingEvents system ++ instr.events hart =
        emit program system stimulus ++ pendingEvents
          (stepWith program predictions system stimulus) := by
  have free : Control.hazard (PipelinedCPU.ctrl system.cpu) = false :=
    PipelinedCPU.fetchStall_free moves
  have ready := PipelinedCPU.branchHazard_free free
  have issues' : issues system = .instruction := by
    rw [issues, ready, if_neg fun both => Bool.noConfusion both.2, holding.occupant]
  exact holding.inFlight.issued predictions (PipelinedCPU.fetchStall_running moves)
    (PipelinedCPU.id2exFlush_free free)
    holds holding.encodes holding.inside holding.address issues'

variable (predictions) in
theorem Holding.released (holding : Holding program system hart instr)
    (orderly : Orderly program system stimulus)
    (quiet : PipelinedCPU.interruptEnabled system.cpu (inputs program system stimulus) = false)
    (moves : PipelinedCPU.fetchStall system.cpu (inputs program system stimulus) = false) :
    (Awaiting program (stepWith program predictions system stimulus) (instr.exec hart)
      (instr.exec hart).pc ∨
        ∃ following, Holding program (stepWith program predictions system stimulus)
          (instr.exec hart) following) ∧
      pendingEvents system ++ instr.events hart =
        emit program system stimulus ++ pendingEvents
          (stepWith program predictions system stimulus) := by
  have resolves : PipelinedCPU.branchHazard system.cpu = false →
      PipelinedCPU.Resolves system.cpu (inputs program system stimulus) (instr.transfers hart)
        (instr.nextPc hart) :=
    fun ready => holding.resolves ready quiet
  have issued := holding.issued predictions moves
  have run := holding.run.next holding.decoded
  cases flush : PipelinedCPU.needIfFlush system.cpu (inputs program system stimulus) with
  | true =>
    have waiting : PipelinedCPU.Waiting (stepWith program predictions system stimulus).cpu
        (instr.exec hart).pc :=
      holding.followed.flushed predictions resolves moves flush
    have flushes : PipelinedCPU.if2idFlush system.cpu (inputs program system stimulus) = true := by
      rw [PipelinedCPU.if2idFlush, flush, PipelinedCPU.fetchStall_running moves]
      rfl
    obtain ⟨inFlight, events⟩ := issued (idHolds_flushed flushes)
    exact ⟨Or.inl (awaiting_intro inFlight run (id_flushed predictions flushes).2 waiting), events⟩
  | false =>
    obtain ⟨position, undisturbed, unflushed⟩ :=
      holding.followed.unflushed resolves orderly.foretoldOnce moves flush
    obtain ⟨following, next⟩ :=
      holding_captured predictions moves unflushed undisturbed position run
        fun holds => (issued holds).1
    exact ⟨Or.inr ⟨following, next⟩, (issued next.inFlight.holds).2⟩

end Phases

end MyCpu.System
