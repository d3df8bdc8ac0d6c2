import MyCpu.Verified.Refinement
import MyCpu.Verified.Supply

/-! # Invalid words

A cycle without a valid word is a pause, unless the BTB predicts behind it.  So two
runs that differ in these cycles commit the same effects: as far as both have come,
and altogether when the bus answers and a valid word is held again and again until
fetch takes it.  A program without transfers, memory accesses and CSR instructions
keeps fetch moving and the BTB empty. -/

namespace MyCpu.System

open Rv32im (Hart Machine SystemInstr Event)

/-! ## Progress -/

/-- Fetch moves on with a valid word. -/
def Served (program : Rv32im.Program) (system : System) (supply : Supply) : Prop :=
  supply.instructionValid = true ∧
    PipelinedCPU.fetchStall system.cpu (suppliedInputs program system supply) = false

section Progress

variable {program : Rv32im.Program} {system : System} {supply : Supply} {m : Machine}

/-- A valid word that fetch takes enters a vacant ID stage. -/
theorem Vacated.served (vacated : Vacated program system m)
    (sequenced : Sequenced program system supply)
    (served : Served program system supply) :
    ∃ instr, Occupied program (stepSupplied program system supply) m instr := by
  obtain ⟨valid, moves⟩ := served
  have unflushed : PipelinedCPU.if2idFlush system.cpu
      (suppliedInputs program system supply) = false :=
    vacated.waiting.unflushed vacated.noTrap
  have moves' : PipelinedCPU.if2idStall system.cpu (suppliedInputs program system supply) = false :=
    moves
  obtain vacated' | occupied := (vacated.step sequenced).1
  · have taken : (stepSupplied program system supply).id = .instruction := by
      simp only [stepSupplied, stepSuppliedWith, moves', unflushed, pipelineRegister_capture,
        arrives, valid, if_true]
    exact Occupant.noConfusion (taken.symm.trans vacated'.occupant)
  · exact occupied

variable {setup : Setup} {hart : Hart} {supplies : ℕ → Supply}

theorem machineLog_succ {instr : SystemInstr} {k : ℕ}
    (decoded : Rv32im.decodeSystem (program (machineAt program setup hart k).hart.pc) =
      some instr) :
    machineLog program setup hart (k + 1) =
      machineLog program setup hart k ++ instr.events (machineAt program setup hart k) := by
  rw [machineLog, Clocked.specLog_add, Clocked.specLog, Clocked.specLog, List.append_nil]
  exact congrArg _ (Machine.emit_decoded decoded)

/-- Where a run stands, as a rank: ID is vacant, or it holds the machine's next instruction. -/
inductive Standing (program : Rv32im.Program) (system : System) (m : Machine) : ℕ → Prop
  | vacated : Vacated program system m → Standing program system m 0
  | occupied {instr : SystemInstr} : Occupied program system m instr → Standing program system m 1

theorem Standing.small {rank : ℕ} (standing : Standing program system m rank) : rank < 2 := by
  cases standing with
  | vacated | occupied => decide

theorem Phase.standing (phase : Phase program system m) :
    ∃ rank, Standing program system m rank := by
  obtain vacated | ⟨instr, occupied⟩ := phase
  · exact ⟨0, .vacated vacated⟩
  · exact ⟨1, .occupied occupied⟩

/-- A cycle never loses progress, and makes some when fetch takes a valid word. -/
theorem advances_supplied (sequenced : Sequenced program system supply) :
    Clocked.ProgressStep (stepSupplied program) (emitSupplied program)
      (Machine.next CSR.legal program)
      (Machine.emit program)
      (fun system m pending rank => pending = pendingEvents system ∧
        Standing program system m rank) 2
      (Served program system supply) system supply := by
  rintro m _ _ ⟨rfl, vacated | @⟨instr, occupied⟩⟩
  · obtain ⟨phase, events⟩ := vacated.step sequenced
    by_cases served : Served program system supply
    · obtain ⟨instr, occupied⟩ := vacated.served sequenced served
      exact ⟨0, _, 1, ⟨rfl, .occupied occupied⟩, (List.append_nil _).trans events, Nat.zero_le 1,
        fun _ => Nat.zero_lt_one⟩
    · obtain ⟨rank, standing⟩ := phase.standing
      exact ⟨0, _, rank, ⟨rfl, standing⟩, (List.append_nil _).trans events, Nat.zero_le _,
        fun go => absurd go served⟩
  · cases moves : PipelinedCPU.fetchStall system.cpu (suppliedInputs program system supply) with
    | true =>
      obtain ⟨held, events⟩ := occupied.stalled sequenced moves
      exact ⟨0, _, 1, ⟨rfl, .occupied held⟩, (List.append_nil _).trans events, le_rfl,
        fun served => Bool.noConfusion (served.2.symm.trans moves)⟩
    | false =>
      obtain ⟨phase, events⟩ := occupied.released sequenced moves
      obtain ⟨rank, standing⟩ := phase.standing
      refine ⟨1, _, rank, ⟨rfl, ?_⟩, ?_, by omega, fun _ => by omega⟩
      · rw [Function.iterate_one, Machine.next_decoded occupied.decoded]
        exact standing
      · rw [Clocked.specLog, Clocked.specLog, List.append_nil,
          Machine.emit_decoded occupied.decoded]
        exact events

end Progress

/-! ## Fetch keeps moving -/

section Moving

variable (program : Rv32im.Program) (setup : Setup) (hart : Hart) (supplies : ℕ → Supply)

/-- Every load and store in MEM is granted, and every access that was granted is answered. -/
structure BusAnswers : Prop where
  grants : ∀ n, (suppliedAt program setup hart supplies n).cpu.mem.memAccessState = .idle →
    (suppliedAt program setup hart supplies n).cpu.ex2mem.memoryReadEnable = true ∨
      (suppliedAt program setup hart supplies n).cpu.ex2mem.memoryWriteEnable = true →
    ∃ k ≥ n, (supplies k).granted = true
  reads : ∀ n, (suppliedAt program setup hart supplies n).cpu.mem.memAccessState = .read →
    ∃ k ≥ n, (supplies k).readValid = true
  writes : ∀ n, (suppliedAt program setup hart supplies n).cpu.mem.memAccessState = .write →
    ∃ k ≥ n, (supplies k).writeValid = true

/-- A run that keeps the order of the program and goes on: the bus answers, no branch is copied into
    EX whose offset bits name one of its own operands, and again and again a valid word is held
    until fetch takes it. -/
structure Sustained : Prop where
  sequenced : ∀ k, Sequenced program (suppliedAt program setup hart supplies k) (supplies k)
  answers : BusAnswers program setup hart supplies
  once : ∀ k, PipelinedCPU.copiesItself (suppliedAt program setup hart supplies k).cpu
    (suppliedInputs program (suppliedAt program setup hart supplies k) (supplies k)) = false
  held : ∀ n, ∃ k ≥ n, ∀ j ≥ k,
    (∀ i, k ≤ i → i < j → PipelinedCPU.fetchStall (suppliedAt program setup hart supplies i).cpu
      (suppliedInputs program (suppliedAt program setup hart supplies i) (supplies i)) = true) →
    (supplies j).instructionValid = true

variable {program setup hart supplies}

theorem drains_supplied {system : System} {supply : Supply} {m : Machine}
    (phase : Phase program system m)
    (sequenced : Sequenced program system supply)
    (once : PipelinedCPU.copiesItself system.cpu (suppliedInputs program system supply) = false) :
    PipelinedCPU.Drains system.cpu (suppliedInputs program system supply) := by
  refine drains_id sequenced.issuedOnce sequenced.correctedFreely (fun other => ?_) once
  obtain vacated | ⟨instr, occupied⟩ := phase
  · exact Or.inl vacated.waiting.vacant.1
  · exact absurd occupied.occupant other

variable (masked : setup.csrRegs.mcountinhibit &&& 0x000003fd#32 = setup.csrRegs.mcountinhibit)
  (run : Machine.LegalRun CSR.legal CSR.plain program (startMachine setup hart))

include masked run

theorem eventually_moves
    (sequenced : ∀ k, Sequenced program (suppliedAt program setup hart supplies k) (supplies k))
    (answers : BusAnswers program setup hart supplies)
    (once : ∀ k, PipelinedCPU.copiesItself (suppliedAt program setup hart supplies k).cpu
      (suppliedInputs program (suppliedAt program setup hart supplies k) (supplies k)) = false)
      (n : ℕ) :
    ∃ k ≥ n, PipelinedCPU.fetchStall (suppliedAt program setup hart supplies k).cpu
      (suppliedInputs program (suppliedAt program setup hart supplies k) (supplies k)) = false := by
  have runs : PipelinedCPU.Runs (fun k => (suppliedAt program setup hart supplies k).cpu) fun k =>
      suppliedInputs program (suppliedAt program setup hart supplies k)
        (supplies k) := fun k => ⟨_, rfl⟩
  refine PipelinedCPU.eventually_moves runs
    ⟨answers.grants, answers.reads, answers.writes⟩ (fun k => ?_) n
  obtain ⟨m, phase, _⟩ := supplied_refines masked run k fun j _ => sequenced j
  exact drains_supplied phase (sequenced k) (once k)

/-- A word that is held valid until fetch takes it is taken. -/
theorem Sustained.served (sustained : Sustained program setup hart supplies) (n : ℕ) :
    ∃ k ≥ n, Served program (suppliedAt program setup hart supplies k) (supplies k) := by
  obtain ⟨k, later, held⟩ := sustained.held n
  obtain ⟨j, after, moves, first⟩ := Clocked.first_from
    (eventually_moves masked run sustained.sequenced sustained.answers sustained.once k)
  exact ⟨j, later.trans after, held j after fun i from_ before => Bool.eq_true_of_not_eq_false
    (first i from_ before), moves⟩

end Moving

/-! ## Two runs -/

section Runs

variable {program : Rv32im.Program} {setup : Setup} {hart : Hart} {supplies supplies' : ℕ → Supply}

theorem events_nonempty (m : Machine) (instr : SystemInstr) : instr.events m ≠ [] := by
  cases instr with
  | base instr => exact List.append_ne_nil_of_right_ne_nil _ (List.cons_ne_nil _ _)
  | csr op rd operand address => exact List.cons_ne_nil _ _
  | mret => exact List.cons_ne_nil _ _

/-- What a run commits agrees with what another run commits, as far as both have come. -/
theorem logs_comparable (masked : setup.csrRegs.mcountinhibit &&& 0x000003fd#32 =
    setup.csrRegs.mcountinhibit)
    (run : Machine.LegalRun CSR.legal CSR.plain program (startMachine setup hart)) {n m : ℕ}
    (sequenced : ∀ k < n, Sequenced program (suppliedAt program setup hart supplies k) (supplies k))
    (sequenced' : ∀ k < m, Sequenced program
      (suppliedAt program setup hart supplies' k) (supplies' k)) :
    suppliedLogAt program setup hart supplies n <+: suppliedLogAt program setup hart supplies' m ∨
      suppliedLogAt program setup hart supplies' m <+:
        suppliedLogAt program setup hart supplies n := by
  obtain ⟨k, _, logged⟩ := supplied_refines masked run n sequenced
  obtain ⟨k', _, logged'⟩ := supplied_refines masked run m sequenced'
  exact Clocked.prefix_comparable ⟨_, logged⟩ ⟨_, logged'⟩

/-- A run in which fetch keeps taking valid words commits everything that the sequential machine
    does. -/
theorem log_complete (masked : setup.csrRegs.mcountinhibit &&& 0x000003fd#32 =
    setup.csrRegs.mcountinhibit)
    (run : Machine.LegalRun CSR.legal CSR.plain program (startMachine setup hart))
    (sequenced : ∀ k, Sequenced program (suppliedAt program setup hart supplies k) (supplies k))
    (fair : ∀ n, ∃ k ≥ n, Served program (suppliedAt program setup hart supplies k) (supplies k))
    (l : ℕ) :
    ∃ n, machineLog program setup hart l <+: suppliedLogAt program setup hart supplies n := by
  have emits : ∀ k, Machine.emit program (machineAt program setup hart k) ≠ [] := by
    intro k
    obtain ⟨instr, decoded, _⟩ := run k
    have emitted :
        Machine.emit program (machineAt program setup hart k) =
          instr.events (machineAt program setup hart k) :=
      Machine.emit_decoded decoded
    rw [emitted]
    exact events_nonempty _ instr
  obtain ⟨rank, standing⟩ := (phase_start setup masked run).standing
  have progressed : Clocked.Progressed (stepSupplied program) (emitSupplied program)
      (Machine.next CSR.legal program)
      (Machine.emit program)
      (fun system m pending rank => pending = pendingEvents system ∧
        Standing program system m rank) 2
      (start setup hart) (startMachine setup hart) supplies 0 (2 * 0 + rank) :=
    ⟨0, [], rank, ⟨rfl, standing⟩, rfl, rfl⟩
  refine Clocked.log_complete 4 emits (fun {_ _ _ _} placed => ?_) progressed
    (fun n _ => advances_supplied (sequenced n)) fair l
  obtain ⟨rfl, standing⟩ := placed
  exact ⟨standing.small, pendingEvents_length _⟩

theorem log_covered (masked : setup.csrRegs.mcountinhibit &&& 0x000003fd#32 =
    setup.csrRegs.mcountinhibit)
    (run : Machine.LegalRun CSR.legal CSR.plain program (startMachine setup hart)) (n : ℕ)
    (sequenced : ∀ k < n, Sequenced program (suppliedAt program setup hart supplies k) (supplies k))
    (sustained : Sustained program setup hart supplies') :
    ∃ m, suppliedLogAt program setup hart supplies n <+:
      suppliedLogAt program setup hart supplies' m := by
  obtain ⟨k, _, logged⟩ := supplied_refines masked run n sequenced
  obtain ⟨m, complete⟩ :=
    log_complete masked run sustained.sequenced (sustained.served masked run) k
  exact ⟨m, List.IsPrefix.trans ⟨_, logged⟩ complete⟩

/-- Two runs of a program commit the same effects, whatever cycles have a valid word: as far as both
    have come, and altogether when both are sustained. -/
theorem valid_invisible (setup : Setup) (hart : Hart) (supplies supplies' : ℕ → Supply)
    (masked : setup.csrRegs.mcountinhibit &&& 0x000003fd#32 = setup.csrRegs.mcountinhibit)
    (run : Machine.LegalRun CSR.legal CSR.plain program (startMachine setup hart)) :
    (∀ n m, (∀ k < n, Sequenced program (suppliedAt program setup hart supplies k) (supplies k)) →
        (∀ k < m, Sequenced program (suppliedAt program setup hart supplies' k) (supplies' k)) →
        effects (suppliedLogAt program setup hart supplies n) <+:
            effects (suppliedLogAt program setup hart supplies' m) ∨
          effects (suppliedLogAt program setup hart supplies' m) <+:
            effects (suppliedLogAt program setup hart supplies n)) ∧
      (Sustained program setup hart supplies → Sustained program setup hart supplies' →
        (∀ n, ∃ m, effects (suppliedLogAt program setup hart supplies n) <+:
            effects (suppliedLogAt program setup hart supplies' m)) ∧
          ∀ n, ∃ m, effects (suppliedLogAt program setup hart supplies' n) <+:
            effects (suppliedLogAt program setup hart supplies m)) := by
  refine ⟨fun n m sequenced sequenced' => ?_,
    fun sustained sustained' => ⟨fun n => ?_, fun n => ?_⟩⟩
  · cases logs_comparable masked run sequenced sequenced' with
    | inl shorter => exact Or.inl (shorter.filterMap effect)
    | inr longer => exact Or.inr (longer.filterMap effect)
  · obtain ⟨m, covered⟩ := log_covered masked run n (fun k _ => sustained.sequenced k) sustained'
    exact ⟨m, covered.filterMap effect⟩
  · obtain ⟨m, covered⟩ := log_covered masked run n (fun k _ => sustained'.sequenced k) sustained
    exact ⟨m, covered.filterMap effect⟩

end Runs

/-! ## Straight programs -/

/-- A word that does not transfer control and uses neither the bus nor the CSR file. -/
structure Straight (word : Word) : Prop where
  jump : InstructionDecode.ctrlJumpInstruction word = false
  reads : InstructionDecode.exMemoryReadEnable word = false
  writes : InstructionDecode.exMemoryWriteEnable word = false
  code : InstructionDecode.opcode word ≠ Instructions.csr

theorem straight_nop : Straight InstructionsNop.nop := ⟨rfl, rfl, rfl, by decide⟩

namespace Straight

variable {word : Word} (straight : Straight word)

include straight

theorem source : InstructionDecode.exRegWriteSource word ≠ .nextInstructionAddress := by
  have jump := straight.jump
  simp only [InstructionDecode.ctrlJumpInstruction, Bool.or_eq_false_iff,
    decide_eq_false_iff_not] at jump
  rw [InstructionDecode.exRegWriteSource, if_neg straight.code, if_neg (not_or.mpr jump.1)]
  split_ifs
  · exact RegWriteSource.noConfusion
  · exact RegWriteSource.noConfusion

theorem untrapped : CLINT.isEnvironmentTrap word = false ∧ word ≠ InstructionsRet.mret := by
  have other : ∀ other : Word, InstructionDecode.opcode other =
      Instructions.csr → word ≠ other := by
    rintro other code rfl
    exact straight.code code
  rw [CLINT.isEnvironmentTrap, Bool.or_eq_false_iff, decide_eq_false_iff_not,
    decide_eq_false_iff_not]
  exact ⟨⟨other _ (by decide), other _ (by decide)⟩, other _ (by decide)⟩

end Straight

/-- The pipeline holds straight words only, and the BTB is empty. -/
structure Unhindered (system : System) : Prop where
  id : Straight system.cpu.if2id.instruction
  exSource : system.cpu.id2ex.regsWriteSource ≠ .nextInstructionAddress
  exReads : system.cpu.id2ex.memoryReadEnable = false
  exWrites : system.cpu.id2ex.memoryWriteEnable = false
  memSource : system.cpu.ex2mem.regsWriteSource ≠ .nextInstructionAddress
  memReads : system.cpu.ex2mem.memoryReadEnable = false
  memWrites : system.cpu.ex2mem.memoryWriteEnable = false
  wbSource : system.cpu.mem2wb.regsWriteSource ≠ .nextInstructionAddress
  idle : system.cpu.mem.memAccessState = .idle
  empty : ∀ index, system.cpu.instFetch.btb.valid index = false

theorem btb_step_empty {btb : BranchTargetBuffer 5}
    (empty : ∀ index, btb.valid index = false) (updateValid : Bool)
    (pc target : Word) : btb.step updateValid pc target false = btb := by
  have miss : btb.entryHit pc = false := by simp [BranchTargetBuffer.entryHit, empty]
  simp [BranchTargetBuffer.step, BranchTargetBuffer.update, miss]

namespace Unhindered

variable {program : Rv32im.Program} {system : System} (supply : Supply)
    (unhindered : Unhindered system)

include unhindered

variable (program) in
theorem memStall : memStall program system supply.quiet = false := by
  rw [System.memStall, PipelinedCPU.memStall, MemoryAccess.ctrlStallFlag, unhindered.idle]
  simp [unhindered.memReads, unhindered.memWrites]

theorem hazard : PipelinedCPU.pcStall system.cpu = false := by
  have jump : PipelinedCPU.isBranchOrJump system.cpu = false := unhindered.id.jump
  simp [PipelinedCPU.pcStall, Control.pcStall, Control.hazard, PipelinedCPU.ctrl,
    Control.memHazardForBranch, Control.storeLoadHazard, Control.jalJalrHazardEx,
    Control.jalJalrHazardMem, Control.jalJalrHazardWb, jump, unhindered.exReads,
    unhindered.exSource, unhindered.memSource, unhindered.wbSource]

variable (program) in
theorem moves : PipelinedCPU.fetchStall system.cpu (suppliedInputs program system supply) = false :=
  Bool.or_eq_false_iff.mpr ⟨unhindered.hazard, unhindered.memStall program supply⟩

variable (program) in
theorem notTaken :
    PipelinedCPU.actualTaken system.cpu (suppliedInputs program system supply) = false :=
  PipelinedCPU.nonBranch_actualTaken unhindered.id.jump
    (interruptAssert_quiet unhindered.id.untrapped.1 unhindered.id.untrapped.2
      (interruptEnabled_supplied program system supply))

theorem unpredicted : system.cpu.instFetch.predict.btbTaken = false := by
  simp [InstructionFetch.predict, BranchTargetBuffer.predictedTaken,
    BranchTargetBuffer.entryHit, unhindered.empty]

variable (program) in
theorem sequenced : Sequenced program system supply := by
  have running := unhindered.memStall program supply
  have free := unhindered.hazard
  have moves : PipelinedCPU.fetchStall system.cpu (inputs program system supply.quiet) = false :=
    unhindered.moves program supply
  have notTaken : PipelinedCPU.actualTaken system.cpu
      (inputs program system supply.quiet) = false :=
    unhindered.notTaken program supply
  exact
    { issuedOnce := fun _ stalls => Bool.noConfusion (free.symm.trans stalls)
      keptInEx := fun stalls => Bool.noConfusion (running.symm.trans stalls)
      redirectedOnce := fun stalls => Bool.noConfusion (moves.symm.trans stalls)
      foretoldOnce := fun taken => Bool.noConfusion (notTaken.symm.trans taken)
      correctedFreely := fun _ stalls => Bool.noConfusion (free.symm.trans stalls)
      csrCurrent := fun _ _ code => absurd code unhindered.id.code
      silent := fun _ _ _ => unhindered.unpredicted }

variable (program) in
theorem id2ex_next : (stepSupplied program system supply).cpu.id2ex =
    PipelinedCPU.id2exInput system.cpu (suppliedInputs program system supply) := by
  have running : PipelinedCPU.memStall system.cpu (suppliedInputs program system supply) = false :=
    unhindered.memStall program supply
  have free : Control.hazard (PipelinedCPU.ctrl system.cpu) = false := unhindered.hazard
  have kept : PipelinedCPU.id2exFlush system.cpu (suppliedInputs program system supply) = false :=
    PipelinedCPU.id2exFlush_free free
  simp only [stepSupplied, stepSuppliedWith, PipelinedCPU.stepWith, running, kept,
    pipelineRegister_capture]

variable (program) in
theorem ex2mem_next : (stepSupplied program system supply).cpu.ex2mem =
    PipelinedCPU.ex2memInput system.cpu (suppliedInputs program system supply) := by
  have running : PipelinedCPU.memStall system.cpu (suppliedInputs program system supply) = false :=
    unhindered.memStall program supply
  simp only [stepSupplied, stepSuppliedWith, PipelinedCPU.stepWith, running,
    pipelineRegister_capture]

variable (program) in
theorem wbSource_next :
    (stepSupplied program system supply).cpu.mem2wb.regsWriteSource =
      system.cpu.ex2mem.regsWriteSource := by
  have running : PipelinedCPU.memStall system.cpu (suppliedInputs program system supply) = false :=
    unhindered.memStall program supply
  simp [stepSupplied, stepSuppliedWith, PipelinedCPU.stepWith, running, PipelinedCPU.mem2wbInput,
    MemoryAccess.wbRegsWriteSource, MemoryAccess.inActiveRead, unhindered.idle]

variable (program) in
theorem btb_next : (stepSupplied program system supply).cpu.instFetch.btb =
    system.cpu.instFetch.btb := by
  have jump : PipelinedCPU.isBranchOrJump system.cpu = false := unhindered.id.jump
  -- the BTB may be told of a word that does not transfer control, and has no entry to change
  have notTaken :
      (PipelinedCPU.fetchInputs system.cpu (suppliedInputs program system supply)).btbUpdateTaken =
        false := by
    simp [PipelinedCPU.fetchInputs, jump]
  simp only [stepSupplied, stepSuppliedWith, PipelinedCPU.stepWith, InstructionFetch.step, notTaken]
  exact btb_step_empty unhindered.empty _ _ _

theorem straight_next (straight : ∀ pc, Straight (program pc)) :
    Straight (stepSupplied program system supply).cpu.if2id.instruction := by
  have moves : PipelinedCPU.if2idStall system.cpu (suppliedInputs program system supply) = false :=
    unhindered.moves program supply
  simp only [stepSupplied, stepSuppliedWith, PipelinedCPU.stepWith, moves]
  cases PipelinedCPU.if2idFlush system.cpu (suppliedInputs program system supply) with
  | true => exact straight_nop
  | false =>
    show Straight (if supply.instructionValid then program system.cpu.instFetch.pc
      else InstructionsNop.nop)
    split_ifs
    · exact straight _
    · exact straight_nop

theorem step (straight : ∀ pc, Straight (program pc)) :
    Unhindered (stepSupplied program system supply) := by
  refine ⟨unhindered.straight_next supply straight, ?_, ?_, ?_, ?_, ?_, ?_, ?_, ?_, ?_⟩
  · rw [unhindered.id2ex_next program supply]
    exact unhindered.id.source
  · rw [unhindered.id2ex_next program supply]
    exact unhindered.id.reads
  · rw [unhindered.id2ex_next program supply]
    exact unhindered.id.writes
  · rw [unhindered.ex2mem_next program supply]
    exact unhindered.exSource
  · rw [unhindered.ex2mem_next program supply]
    exact unhindered.exReads
  · rw [unhindered.ex2mem_next program supply]
    exact unhindered.exWrites
  · rw [unhindered.wbSource_next program supply]
    exact unhindered.memSource
  · simp [stepSupplied, stepSuppliedWith, PipelinedCPU.stepWith, MemoryAccess.step,
      MemoryAccess.nextState, unhindered.idle, unhindered.memReads, unhindered.memWrites]
  · rw [unhindered.btb_next program supply]
    exact unhindered.empty

end Unhindered

section StraightRuns

variable {program : Rv32im.Program} (straight : ∀ pc, Straight (program pc)) (hart : Hart)
    (supplies : ℕ → Supply)

include straight

theorem unhindered_run (n : ℕ) : Unhindered (suppliedAt program .reset hart supplies n) := by
  have initial : Unhindered (start .reset hart) :=
    ⟨straight_nop, RegWriteSource.noConfusion, rfl, rfl, RegWriteSource.noConfusion, rfl, rfl,
      RegWriteSource.noConfusion, rfl, fun _ => rfl⟩
  exact Clocked.invariant_always initial
    (fun _ supply unhindered => unhindered.step supply straight) n

theorem straight_sequenced (k : ℕ) :
    Sequenced program (suppliedAt program .reset hart supplies k) (supplies k) :=
  (unhindered_run straight hart supplies k).sequenced program (supplies k)

theorem straight_answered : BusAnswers program .reset hart supplies := by
  have unhindered := unhindered_run straight hart supplies
  refine ⟨fun n _ accesses => ?_, fun n reading => ?_, fun n writing => ?_⟩
  · obtain load | store := accesses
    · exact Bool.noConfusion ((unhindered n).memReads.symm.trans load)
    · exact Bool.noConfusion ((unhindered n).memWrites.symm.trans store)
  · exact MemoryAccessStates.noConfusion ((unhindered n).idle.symm.trans reading)
  · exact MemoryAccessStates.noConfusion ((unhindered n).idle.symm.trans writing)

/-- A straight program takes every valid word at once. -/
theorem straight_sustained (fair : ∀ n, ∃ k ≥ n, (supplies k).instructionValid = true) :
    Sustained program .reset hart supplies := by
  have unhindered := unhindered_run straight hart supplies
  refine ⟨straight_sequenced straight hart supplies, straight_answered straight hart supplies,
    fun n => ?_, fun n => ?_⟩
  · have noJump : PipelinedCPU.isBranchOrJump
        (suppliedAt program .reset hart supplies n).cpu = false :=
      (unhindered n).id.jump
    have noBranch : PipelinedCPU.isBranch
        (suppliedAt program .reset hart supplies n).cpu = false := by
      by_contra branch
      have jump := PipelinedCPU.isBranch_jump (Bool.of_not_eq_false branch)
      exact Bool.noConfusion (noJump.symm.trans jump)
    rw [PipelinedCPU.copiesItself, noBranch]
    rfl
  · obtain ⟨k, later, valid⟩ := fair n
    refine ⟨k, later, fun j after stalls => ?_⟩
    obtain rfl | waits := after.eq_or_lt
    · exact valid
    · have moves := (unhindered k).moves program (supplies k)
      exact Bool.noConfusion (moves.symm.trans (stalls k le_rfl waits))

end StraightRuns

/-! ### Two runs -/

/-- The bus answers at once, and the word is valid in some cycles. -/
def validWhen (valid : ℕ → Bool) (k : ℕ) : Supply :=
  { immediate k with instructionValid := valid k }

/-- `addi x1, x1, 1` at every address. -/
def countUp : Rv32im.Program := fun _ => 0x00108093#32

theorem countUp_invisible :
    (∀ n, ∃ m, effects (suppliedLogAt countUp .reset resetHart (validWhen fun _ => true) n) <+:
        effects (suppliedLogAt countUp .reset resetHart (validWhen fun k => k % 2 = 1) m)) ∧
      ∀ n, ∃ m, effects (suppliedLogAt countUp .reset resetHart
        (validWhen fun k => k % 2 = 1) n) <+:
        effects (suppliedLogAt countUp .reset resetHart (validWhen fun _ => true) m) := by
  have word : Straight 0x00108093#32 := ⟨by decide, by decide, by decide, by decide⟩
  have straight : ∀ pc, Straight (countUp pc) := fun _ => word
  have decoded : Rv32im.decodeSystem 0x00108093#32 = some (.base (.opImm .add 1#5 1#5 1#32)) := by
    decide
  have run : Machine.LegalRun CSR.legal CSR.plain countUp (startMachine .reset resetHart) :=
    fun _ => ⟨_, decoded, SystemInstr.admissible_always _ rfl⟩
  have odd : ∀ n : ℕ, ∃ k ≥ n, decide (k % 2 = 1) = true := fun n => ⟨2 * n + 1, by omega, by simp⟩
  obtain ⟨_, same⟩ :=
    valid_invisible .reset resetHart (validWhen fun _ => true)
      (validWhen fun k => k % 2 = 1) (by decide) run
  exact same (straight_sustained straight _ _ fun n => ⟨n, le_rfl, rfl⟩)
    (straight_sustained straight _ _ odd)

/-- `addi x1, x1, 1`, `jal x0, -4` and `addi x3, x3, 1`. -/
def countBack : Rv32im.Program :=
  .ofWords ProgramCounter.entryAddress [0x00108093#32, 0xFFDFF06F#32, 0x00118193#32]

/-- The BTB predicts the jump behind a word that is not valid, and the jump is never made. -/
theorem countBack_visible :
    Machine.LegalRun CSR.legal CSR.plain countBack (startMachine .reset resetHart) ∧
      ¬ effects (suppliedLogAt countBack .reset resetHart (validWhen fun _ => true) 10) <+:
        effects (suppliedLogAt countBack .reset resetHart (validWhen fun k => k ≠ 4) 10) ∧
      ¬ effects (suppliedLogAt countBack .reset resetHart (validWhen fun k => k ≠ 4) 10) <+:
        effects (suppliedLogAt countBack .reset resetHart (validWhen fun _ => true) 10) :=
  ⟨Machine.legalRun_ofWords (by decide) _, by decide +kernel, by decide +kernel⟩

end MyCpu.System
