import MyCpu.Verified.CsrStage

/-! # Programs with CSR instructions and a slow instruction memory

The core with its program and its data memory, where the fetched word may be invalid
in any cycle.  Between two edges it is in one of two phases: ID is vacant and fetch
stands at the next instruction, or ID holds the next instruction and fetch has
followed the prediction behind it.  A cycle without a valid word leaves ID vacant and
fetch where it is, so the same two phases carry every pattern of valid words. -/

namespace MyCpu

open Rv32im (Hart Machine SystemInstr Event SystemEncodes)

/-- The instruction continues somewhere else than behind itself. -/
def transfers (m : Machine) : SystemInstr → Bool
  | .base instr => instr.transfers m.hart
  | .csr _ _ _ _ => false
  | .mret => true

/-- What the core sees of its surroundings in one cycle without an interrupt. -/
structure Supply extends Latency where
  instructionValid : Bool
deriving DecidableEq, Repr

namespace System

variable (program : Rv32im.Program) (predictions : Predictions) (system : System) (supply : Supply)

/-- The inputs of the core in this cycle. -/
def suppliedInputs : PipelinedCPU.Inputs :=
  { inputs program system supply.quiet with instructionValid := supply.instructionValid }

/-- What IF hands to ID: a cycle without a valid word hands over a bubble. -/
def arrives : Occupant := if supply.instructionValid then .instruction else .bubble

/-- One clock edge, with a given answer of the predictors. -/
def stepSuppliedWith : System where
  cpu := PipelinedCPU.stepWith predictions system.cpu (suppliedInputs program system supply)
  dataMemory := nextMemory system supply.quiet
  id := pipelineRegister .bubble
    (PipelinedCPU.if2idStall system.cpu (suppliedInputs program system supply))
    (PipelinedCPU.if2idFlush system.cpu (suppliedInputs program system supply))
    (arrives supply) system.id
  ex := pipelineRegister .bubble (memStall program system supply.quiet)
    (PipelinedCPU.id2exFlush system.cpu (suppliedInputs program system supply))
    (issues system) system.ex
  mem := pipelineRegister .bubble (memStall program system supply.quiet) false system.ex system.mem

/-- One clock edge. -/
def stepSupplied : System := stepSuppliedWith program system.cpu.instFetch.predict system supply

/-- The effects that this cycle commits. -/
def emitSupplied : List Event := emit program system supply.quiet

/-! ## The stages behind ID -/

section Back

variable {program predictions system supply} {hart : Hart} {word : Word}
    {registers : CsrAddr → Word}

theorem backed_supplied
    (backed : Backed (stepWith program predictions system supply.quiet) hart word) :
    Backed (stepSuppliedWith program predictions system supply) hart word where
  steady :=
    { exControl := backed.steady.exControl
      memControl := backed.steady.memControl
      operand1 := backed.steady.operand1
      operand2 := backed.steady.operand2
      reading := backed.steady.reading
      writing := backed.steady.writing
      exAccess := backed.steady.exAccess
      memAccess := backed.steady.memAccess
      exPassive := backed.steady.exPassive }
  represents := backed.represents
  withoutEx := backed.withoutEx

theorem csrBacked_supplied
    (backed : CsrBacked (stepWith program predictions system supply.quiet) registers) :
    CsrBacked (stepSuppliedWith program predictions system supply) registers :=
  ⟨backed.named, backed.other, backed.agrees⟩

theorem pendingEvents_congr {first second : System} (regs : first.cpu.regs = second.cpu.regs)
    (id2ex : first.cpu.id2ex = second.cpu.id2ex) (ex2mem : first.cpu.ex2mem = second.cpu.ex2mem)
    (access : first.cpu.mem = second.cpu.mem) (mem2wb : first.cpu.mem2wb = second.cpu.mem2wb)
    (memory : first.dataMemory = second.dataMemory) (ex : first.ex = second.ex)
    (mem : first.mem = second.mem) :
    pendingEvents first = pendingEvents second := by
  -- what is pending depends on the stages behind ID only
  simp only [pendingEvents, memEvents, exEvents, executing, afterMem, afterWb, wbData, regs,
    id2ex, ex2mem, access, mem2wb, memory, ex, mem]

variable (program predictions system supply) in
theorem pendingEvents_supplied :
    pendingEvents (stepSuppliedWith program predictions system supply) =
    pendingEvents (stepWith program predictions system supply.quiet) :=
  pendingEvents_congr rfl rfl rfl rfl rfl rfl rfl rfl

end Back

/-! ## Orderly cycles -/

/-- The cycles that keep the order of the program, with CSR instructions and invalid words. -/
@[mk_iff] structure Sequenced (program : Rv32im.Program) (system : System) (supply : Supply) : Prop
    extends Orderly program system supply.quiet where
  /-- A CSR instruction does not leave ID while the one in EX changes the same CSR. -/
  csrCurrent : memStall program system supply.quiet = false →
    PipelinedCPU.id2exFlush system.cpu (suppliedInputs program system supply) = false →
    InstructionDecode.opcode system.cpu.if2id.instruction = Instructions.csr →
    CsrCurrent system.cpu (suppliedInputs program system supply)
  /-- The BTB does not predict behind a word that is not valid. -/
  silent : supply.instructionValid = false →
    PipelinedCPU.fetchStall system.cpu (suppliedInputs program system supply) = false →
    PipelinedCPU.if2idFlush system.cpu (suppliedInputs program system supply) = false →
    system.cpu.instFetch.predict.btbTaken = false

instance (cpu : PipelinedCPU) (io : PipelinedCPU.Inputs) : Decidable (CsrCurrent cpu io) :=
  inferInstanceAs (Decidable (_ → _ → _))

instance : Decidable (Sequenced program system supply) :=
  decidable_of_iff _ (sequenced_iff program system supply).symm

variable {program predictions system supply}

/-! ## The stages behind ID in one cycle -/

/-- The stages behind ID have executed what comes before the machine's next instruction. -/
structure Ahead (system : System) (m : Machine) : Prop where
  backed : Backed system m.hart system.cpu.if2id.instruction
  csrs : CsrBacked system m.csr
  contents : CSR.LegalContents m.csr

/-- The stages behind ID after an edge, and the events that the edge logs. -/
structure Advances (program : Rv32im.Program) (predictions : Predictions)
    (system : System) (supply : Supply)
    (m : Machine) (word : Word) (events : List Event) : Prop where
  backed : Backed (stepSuppliedWith program predictions system supply) m.hart word
  csrs : CsrBacked (stepSuppliedWith program predictions system supply) m.csr
  contents : CSR.LegalContents m.csr
  logged : pendingEvents system ++ events =
    emitSupplied program system supply ++ pendingEvents
      (stepSuppliedWith program predictions system supply)

section Advances

variable {m : Machine} {instr : SystemInstr} {word : Word}

theorem Advances.ahead {events : List Event}
    (advances : Advances program predictions system supply m word events)
    (stale : ∀ r, Stale word r →
      Stale (stepSuppliedWith program predictions system supply).cpu.if2id.instruction r) :
    Ahead (stepSuppliedWith program predictions system supply) m :=
  ⟨advances.backed.weaken stale, advances.csrs, advances.contents⟩

theorem passable_nop (empty : system.cpu.if2id.instruction = InstructionsNop.nop) :
    Passable system := by
  refine ⟨fun _ => ?_, fun _ => ?_⟩
  · rw [empty]
    exact ⟨rfl, rfl⟩
  · rw [empty]
    rfl

theorem passable_instruction (occupant : system.id = .instruction) : Passable system := by
  refine ⟨fun copy => ?_, fun passive => ?_⟩
  · cases hazard : PipelinedCPU.branchHazard system.cpu with
    | true => exact jump_noAccess (branchHazard_jump hazard)
    | false =>
      rw [issues, hazard] at copy
      simp [occupant] at copy
  · rw [issues, occupant] at passive
    split_ifs at passive
    all_goals exact Bool.noConfusion passive

variable (predictions) in
theorem csrWriteEnable_next (running : memStall program system supply.quiet = false)
    (other : PipelinedCPU.id2exFlush system.cpu (inputs program system supply.quiet) = false →
      InstructionDecode.opcode system.cpu.if2id.instruction ≠ Instructions.csr) :
    (stepWith program predictions system supply.quiet).cpu.id2ex.csrWriteEnable = false := by
  -- nothing that writes a CSR enters EX
  obtain ⟨_, bubble, _⟩ | ⟨kept, issued, _⟩ := id2ex_running predictions running
  · rw [bubble]
    rfl
  · have disabled : InstructionDecode.exCsrWriteEnable system.cpu.if2id.instruction = false := by
      rw [InstructionDecode.exCsrWriteEnable, decide_eq_false (other kept)]
      rfl
    rw [issued]
    exact disabled

variable (ahead : Ahead system m)
  (noTrap : PipelinedCPU.interruptAssert system.cpu (inputs program system supply.quiet) = false)

include ahead noTrap

variable (predictions) in
theorem Ahead.stalled (stalled : memStall program system supply.quiet = true)
    (kept : PipelinedCPU.id2exFlush system.cpu (inputs program system supply.quiet) = true →
      system.ex ≠ .instruction) :
    Advances program predictions system supply m system.cpu.if2id.instruction [] := by
  obtain ⟨backed, events⟩ := ahead.backed.stalled predictions stalled kept
  refine ⟨backed_supplied backed, csrBacked_supplied
    (ahead.csrs.stalled ahead.backed.steady noTrap stalled kept), ahead.contents, ?_⟩
  rw [List.append_nil, pendingEvents_supplied]
  exact events

variable (predictions) in
theorem Ahead.passed (running : memStall program system supply.quiet = false)
    (occupant : system.id = .bubble)
    (empty : system.cpu.if2id.instruction = InstructionsNop.nop) :
    Advances program predictions system supply m system.cpu.if2id.instruction [] := by
  have passive : system.id.passive = true := by
    rw [occupant]
    rfl
  have disabled := csrWriteEnable_next predictions running fun _ => by
    rw [empty]
    decide
  obtain ⟨backed, events⟩ := ahead.backed.unissued running (passable_nop empty)
    (passive_issued passive running)
  refine ⟨backed_supplied backed,
    csrBacked_supplied (ahead.csrs.moved ahead.backed.steady noTrap running disabled),
    ahead.contents, ?_⟩
  rw [List.append_nil, pendingEvents_supplied]
  exact events

variable (predictions) in
theorem Ahead.held (running : memStall program system supply.quiet = false)
    (occupant : system.id = .instruction)
    (once : PipelinedCPU.id2exFlush system.cpu (inputs program system supply.quiet) = false →
      PipelinedCPU.branchHazard system.cpu = true ∧
        (InstructionDecode.opcode system.cpu.if2id.instruction = Instructions.jalr →
          Rv32im.rd system.cpu.if2id.instruction ≠ Rv32im.rs1 system.cpu.if2id.instruction)) :
    Advances program predictions system supply m system.cpu.if2id.instruction [] := by
  have disabled := csrWriteEnable_next predictions running fun kept csr => by
    have jump := branchHazard_jump (once kept).1
    rw [PipelinedCPU.isBranchOrJump, InstructionDecode.ctrlJumpInstruction, csr] at jump
    exact absurd jump (by decide)
  obtain ⟨backed, events⟩ :=
    ahead.backed.held predictions running (passable_instruction occupant) once occupant
  refine ⟨backed_supplied backed,
    csrBacked_supplied (ahead.csrs.moved ahead.backed.steady noTrap running disabled),
    ahead.contents, ?_⟩
  rw [List.append_nil, pendingEvents_supplied]
  exact events

variable (predictions) in
theorem Ahead.issued (running : memStall program system supply.quiet = false)
    (occupant : system.id = .instruction)
    (ready : PipelinedCPU.branchHazard system.cpu = false)
    (kept : PipelinedCPU.id2exFlush system.cpu (inputs program system supply.quiet) = false)
    (encodes : SystemEncodes system.cpu.if2id.instruction instr)
    (admissible : instr.Admissible m CSR.plain)
    (address : system.cpu.if2id.instructionAddress = m.hart.pc)
    (current : InstructionDecode.opcode system.cpu.if2id.instruction = Instructions.csr →
      CsrCurrent system.cpu (inputs program system supply.quiet)) :
    Advances program predictions system supply (instr.exec CSR.legal m) word (instr.events m) := by
  -- the instruction of ID enters EX, which is a step of the machine
  have steady := ahead.backed.steady
  have passable := passable_instruction occupant
  have leaves : issues system = .instruction := by
    rw [issues, ready, if_neg fun both => Bool.noConfusion both.2, occupant]
  have taken : (stepWith program predictions system supply.quiet).ex = .instruction :=
    (ex_issued running kept).trans leaves
  cases encodes with
  | base plain encodes form =>
    subst form
    obtain ⟨represents, executed⟩ :=
      issue_instruction predictions running kept steady encodes admissible address
        ahead.backed.represents leaves
    obtain ⟨backed, events⟩ := ahead.backed.issued running passable taken represents executed
    have disabled := csrWriteEnable_next predictions running fun _ => encodes_notCsr encodes
    refine ⟨backed_supplied backed, csrBacked_supplied
      (ahead.csrs.moved steady noTrap running disabled), ahead.contents, ?_⟩
    rw [pendingEvents_supplied]
    exact events
  | csr op immediate code selected form =>
    subst form
    have executes :=
      executing_csr predictions running kept steady ahead.csrs admissible (current code)
        ahead.backed.represents address
    have represents : Represents (afterEx (stepWith program predictions system supply.quiet))
        (SystemInstr.exec CSR.legal m (.csr op (Rv32im.rd system.cpu.if2id.instruction)
          (Rv32im.csrOperand system.cpu.if2id.instruction immediate)
          (Rv32im.csrAddress system.cpu.if2id.instruction))).hart fun _ => False := by
      rw [afterEx, executes, afterMem_running steady running]
      exact represents_csr code ahead.backed.represents (current_csr code) _
    have executed : exEvents (stepWith program predictions system supply.quiet) =
        SystemInstr.events m (.csr op (Rv32im.rd system.cpu.if2id.instruction)
          (Rv32im.csrOperand system.cpu.if2id.instruction immediate)
          (Rv32im.csrAddress system.cpu.if2id.instruction)) := by
      rw [exEvents, if_pos taken, executes, EX2MEM.storeEvents, store_csr code,
        EX2MEM.retireEvent, regWrite_csr code]
      rfl
    obtain ⟨backed, events⟩ := ahead.backed.issued running passable taken represents executed
    refine ⟨backed_supplied backed, csrBacked_supplied
      (ahead.csrs.issued running kept steady noTrap admissible
      (current code) ahead.backed.represents code selected ahead.contents taken),
      CSR.legalContents_exec admissible ahead.contents, ?_⟩
    rw [pendingEvents_supplied]
    exact events

end Advances

/-! ## The two phases -/

/-- ID is vacant and fetch stands at the machine's next instruction. -/
structure Vacated (program : Rv32im.Program) (system : System) (m : Machine) : Prop where
  ahead : Ahead system m
  run : Machine.LegalRun CSR.legal CSR.plain program m
  occupant : system.id = .bubble
  waiting : PipelinedCPU.Waiting system.cpu m.hart.pc

/-- ID holds the machine's next instruction. -/
structure Occupied (program : Rv32im.Program) (system : System) (m : Machine)
    (instr : SystemInstr) : Prop where
  ahead : Ahead system m
  run : Machine.LegalRun CSR.legal CSR.plain program m
  occupant : system.id = .instruction
  decoded : Rv32im.decodeSystem (program m.hart.pc) = some instr
  word : system.cpu.if2id.instruction = program m.hart.pc
  address : system.cpu.if2id.instructionAddress = m.hart.pc
  followed : PipelinedCPU.Followed system.cpu (transfers m instr) (instr.exec CSR.legal m).hart.pc

/-- In one of the two phases. -/
def Phase (program : Rv32im.Program) (system : System) (m : Machine) : Prop :=
  Vacated program system m ∨ ∃ instr, Occupied program system m instr

section Phases

variable {m : Machine} {instr : SystemInstr}

variable (program system supply) in
theorem interruptEnabled_supplied :
    PipelinedCPU.interruptEnabled system.cpu (suppliedInputs program system supply) = false := by
  simp [PipelinedCPU.interruptEnabled, CLINT.interruptEnabled, PipelinedCPU.clintInputs,
    suppliedInputs, inputs, Latency.quiet]

theorem systemEncodes_untrapped {word : Word} (encodes : SystemEncodes word instr) :
    CLINT.isEnvironmentTrap word = false ∧ word ≠ InstructionsRet.mret := by
  cases encodes with
  | base plain encodes form => exact encodes_untrapped encodes
  | csr op immediate code selected form =>
    -- the words of CLINT have no CSR operation in them
    have other :
        ∀ other : Word, Rv32im.decodeCsrForm (Rv32im.funct3 other) = none → word ≠ other := by
      rintro other none rfl
      rw [none] at selected
      exact absurd selected.symm (Option.some_ne_none _)
    refine ⟨?_, other _ rfl⟩
    rw [CLINT.isEnvironmentTrap, Bool.or_eq_false_iff, decide_eq_false_iff_not,
      decide_eq_false_iff_not]
    exact ⟨other _ rfl, other _ rfl⟩

theorem Vacated.noTrap (vacated : Vacated program system m) :
    PipelinedCPU.interruptAssert system.cpu (suppliedInputs program system supply) = false := by
  refine interruptAssert_quiet ?_ ?_ (interruptEnabled_supplied program system supply)
  all_goals rw [vacated.waiting.vacant.1]
  all_goals decide

theorem Occupied.encodes (occupied : Occupied program system m instr) :
    SystemEncodes system.cpu.if2id.instruction instr := by
  rw [occupied.word]
  exact Rv32im.decodeSystem_encodes occupied.decoded

theorem Occupied.noTrap (occupied : Occupied program system m instr) :
    PipelinedCPU.interruptAssert system.cpu (suppliedInputs program system supply) = false :=
  interruptAssert_quiet (systemEncodes_untrapped occupied.encodes).1
    (systemEncodes_untrapped occupied.encodes).2
    (interruptEnabled_supplied program system supply)

theorem Occupied.resolves (occupied : Occupied program system m instr)
    (ready : PipelinedCPU.branchHazard system.cpu = false) :
    PipelinedCPU.Resolves system.cpu (suppliedInputs program system supply) (transfers m instr)
      (instr.exec CSR.legal m).hart.pc := by
  have noTrap : PipelinedCPU.interruptAssert system.cpu
      (inputs program system supply.quiet) = false :=
    occupied.noTrap
  cases occupied.encodes with
  | base plain encodes form =>
    subst form
    have resolves := resolves_backed occupied.ahead.backed encodes occupied.address noTrap ready
    exact ⟨resolves.taken, resolves.target, resolves.sequential, resolves.jump, resolves.jalr⟩
  | csr op immediate code selected form =>
    subst form
    have code : InstructionDecode.opcode system.cpu.if2id.instruction = Instructions.csr := code
    have nonBranch : PipelinedCPU.isBranchOrJump system.cpu = false := by
      rw [PipelinedCPU.isBranchOrJump, InstructionDecode.ctrlJumpInstruction, code]
      rfl
    refine ⟨PipelinedCPU.nonBranch_actualTaken nonBranch noTrap,
      fun jumps => Bool.noConfusion jumps,
      fun _ => ?_, fun jumps => Bool.noConfusion jumps, fun jalr => ?_⟩
    · rw [occupied.address]
      rfl
    · rw [PipelinedCPU.isJalr, InstructionFetch.isJalr, code] at jalr
      exact absurd jalr (by decide)

/-! ## A step of each phase -/

/-- Fetch moves on its way: the next word enters ID, or ID is left vacant for want of one. -/
theorem phase_fetched (sequenced : Sequenced program system supply)
    (moves : PipelinedCPU.fetchStall system.cpu (suppliedInputs program system supply) = false)
    (kept : PipelinedCPU.if2idFlush system.cpu (suppliedInputs program system supply) = false)
    (undisturbed : ¬ PipelinedCPU.Redirects system.cpu (suppliedInputs program system supply))
    (position : system.cpu.instFetch.pc = m.hart.pc)
    (run : Machine.LegalRun CSR.legal CSR.plain program m)
    (ahead : Ahead (stepSupplied program system supply) m) :
    Phase program (stepSupplied program system supply) m := by
  have captured : (stepSupplied program system supply).cpu.if2id =
      PipelinedCPU.if2idInput system.cpu.instFetch.predict system.cpu
        (suppliedInputs program system supply) :=
    PipelinedCPU.if2id_moved system.cpu.instFetch.predict moves kept
  have taken : (stepSupplied program system supply).id = arrives supply := by
    rw [PipelinedCPU.fetchStall_eq] at moves
    simp only [stepSupplied, stepSuppliedWith, moves, kept, pipelineRegister_capture]
  cases valid : supply.instructionValid with
  | true =>
    obtain ⟨instr, decoded, _⟩ := run 0
    refine Or.inr ⟨instr, ahead, run, ?_, decoded, ?_, ?_,
      PipelinedCPU.followed_captured _ moves kept undisturbed valid⟩
    · rw [taken, arrives, valid, if_pos rfl]
    · have word : (stepSupplied program system supply).cpu.if2id.instruction =
          if supply.instructionValid then program system.cpu.instFetch.pc
            else InstructionsNop.nop := by
        rw [captured]
        rfl
      rw [word, valid, if_pos rfl, position]
    · rw [captured, ← position]
      rfl
  | false =>
    refine Or.inl ⟨ahead, run, ?_, ?_⟩
    · rw [taken, arrives, valid, if_neg Bool.false_ne_true]
    · have waiting := PipelinedCPU.waiting_starved moves kept undisturbed valid
        (sequenced.silent valid moves kept)
      rw [position] at waiting
      exact waiting

theorem Vacated.step (vacated : Vacated program system m)
    (sequenced : Sequenced program system supply) :
    Phase program (stepSupplied program system supply) m ∧
      pendingEvents system =
        emitSupplied program system supply ++ pendingEvents
          (stepSupplied program system supply) := by
  have noTrap : PipelinedCPU.interruptAssert system.cpu (inputs program system supply.quiet) =
      false := vacated.noTrap
  have empty := vacated.waiting.vacant.1
  have unflushed := vacated.waiting.unflushed noTrap
  -- a `nop` leaves no register stale
  have stale : ∀ {word : Word} (r : RegAddr),
      Stale system.cpu.if2id.instruction r → Stale word r := by
    rintro word r ⟨code, _⟩
    rw [empty] at code
    exact absurd code (by decide)
  cases moves : PipelinedCPU.fetchStall system.cpu (suppliedInputs program system supply) with
  | false =>
    have running : memStall program system supply.quiet = false :=
      PipelinedCPU.fetchStall_running moves
    have advances :=
      vacated.ahead.passed system.cpu.instFetch.predict noTrap running vacated.occupant empty
    have logged := advances.logged
    rw [List.append_nil] at logged
    exact ⟨phase_fetched sequenced moves unflushed
      (vacated.waiting.undisturbed vacated.noTrap) vacated.waiting.pc
      vacated.run (advances.ahead stale), logged⟩
  | true =>
    have advances :
        Advances program system.cpu.instFetch.predict system supply m system.cpu.if2id.instruction
          [] := by
      cases waits : memStall program system supply.quiet with
      | true => exact vacated.ahead.stalled _ noTrap waits (sequenced.keptInEx waits)
      | false => exact vacated.ahead.passed _ noTrap waits vacated.occupant empty
    have waiting := vacated.waiting.stalled system.cpu.instFetch.predict vacated.noTrap moves
      (sequenced.redirectedOnce moves)
    have occupant : (stepSupplied program system supply).id = system.id := by
      have held : PipelinedCPU.if2idStall system.cpu
          (suppliedInputs program system supply) = true := moves
      have kept : PipelinedCPU.if2idFlush system.cpu
          (suppliedInputs program system supply) = false := unflushed
      simp only [stepSupplied, stepSuppliedWith, held, kept, pipelineRegister_stall]
    have logged := advances.logged
    rw [List.append_nil] at logged
    exact ⟨Or.inl ⟨advances.ahead stale, vacated.run, occupant.trans vacated.occupant, waiting⟩,
      logged⟩

theorem Occupied.stalled (occupied : Occupied program system m instr)
    (sequenced : Sequenced program system supply)
    (stalls : PipelinedCPU.fetchStall system.cpu (suppliedInputs program system supply) = true) :
    Occupied program (stepSupplied program system supply) m instr ∧
      pendingEvents system =
        emitSupplied program system supply ++ pendingEvents
          (stepSupplied program system supply) := by
  have noTrap : PipelinedCPU.interruptAssert system.cpu (inputs program system supply.quiet) =
      false := occupied.noTrap
  have kept : PipelinedCPU.if2idFlush system.cpu (suppliedInputs program system supply) = false :=
    PipelinedCPU.unflushed_stalled stalls sequenced.correctedFreely
  have word : (stepSupplied program system supply).cpu.if2id = system.cpu.if2id :=
    PipelinedCPU.if2id_kept system.cpu.instFetch.predict stalls kept
  have occupant : (stepSupplied program system supply).id = system.id := by
    have held : PipelinedCPU.if2idStall system.cpu (suppliedInputs program system supply) = true :=
      stalls
    simp only [stepSupplied, stepSuppliedWith, held, kept, pipelineRegister_stall]
  have advances :
      Advances program system.cpu.instFetch.predict system supply m system.cpu.if2id.instruction
        [] := by
    cases waits : memStall program system supply.quiet with
    | true => exact occupied.ahead.stalled _ noTrap waits (sequenced.keptInEx waits)
    | false =>
      have hazard : PipelinedCPU.pcStall system.cpu = true := by
        obtain hazard | waits' := (Bool.or_eq_true _ _).mp stalls
        · exact hazard
        · exact Bool.noConfusion (waits.symm.trans waits')
      exact occupied.ahead.held _ noTrap waits occupied.occupant fun issues =>
        sequenced.issuedOnce waits hazard issues occupied.occupant
  have followed :=
    occupied.followed.stalled system.cpu.instFetch.predict (fun ready => occupied.resolves ready)
      sequenced.foretoldOnce occupied.noTrap stalls kept (sequenced.redirectedOnce stalls)
  have ahead : Ahead (stepSupplied program system supply) m :=
    advances.ahead fun r stale => by
      have same : (stepSuppliedWith program system.cpu.instFetch.predict system supply).cpu.if2id =
          system.cpu.if2id :=
        word
      rw [same]
      exact stale
  have logged := advances.logged
  rw [List.append_nil] at logged
  refine ⟨⟨ahead, occupied.run, occupant.trans occupied.occupant, occupied.decoded, ?_,
    ?_, followed⟩, logged⟩
  · rw [word]
    exact occupied.word
  · rw [word]
    exact occupied.address

theorem Occupied.released (occupied : Occupied program system m instr)
    (sequenced : Sequenced program system supply)
    (moves : PipelinedCPU.fetchStall system.cpu (suppliedInputs program system supply) = false) :
    Phase program (stepSupplied program system supply) (instr.exec CSR.legal m) ∧
      pendingEvents system ++ instr.events m =
        emitSupplied program system supply ++ pendingEvents
          (stepSupplied program system supply) := by
  have noTrap : PipelinedCPU.interruptAssert system.cpu (inputs program system supply.quiet) =
      false := occupied.noTrap
  have running : memStall program system supply.quiet = false :=
    PipelinedCPU.fetchStall_running moves
  have free : Control.hazard (PipelinedCPU.ctrl system.cpu) = false :=
    PipelinedCPU.fetchStall_free moves
  have ready := PipelinedCPU.branchHazard_free free
  have kept : PipelinedCPU.id2exFlush system.cpu (inputs program system supply.quiet) = false :=
    PipelinedCPU.id2exFlush_free free
  have advances : Advances program system.cpu.instFetch.predict system supply
      (instr.exec CSR.legal m)
      (stepSupplied program system supply).cpu.if2id.instruction (instr.events m) :=
    occupied.ahead.issued _ noTrap running occupied.occupant ready kept occupied.encodes
      (occupied.run.admissible occupied.decoded) occupied.address
        (sequenced.csrCurrent running kept)
  have ahead : Ahead (stepSupplied program system supply) (instr.exec CSR.legal m) :=
    advances.ahead fun _ stale => stale
  have run := occupied.run.next occupied.decoded
  refine ⟨?_, advances.logged⟩
  cases flush : PipelinedCPU.needIfFlush system.cpu (suppliedInputs program system supply) with
  | true =>
    have waiting := occupied.followed.flushed system.cpu.instFetch.predict
      (fun ready => occupied.resolves ready) moves
      flush
    have flushed : PipelinedCPU.if2idFlush system.cpu
        (suppliedInputs program system supply) = true := by
      rw [PipelinedCPU.if2idFlush, flush, PipelinedCPU.fetchStall_running moves]
      rfl
    refine Or.inl ⟨ahead, run, ?_, waiting⟩
    simp only [stepSupplied, stepSuppliedWith, flushed, pipelineRegister_flush]
  | false =>
    obtain ⟨position, undisturbed, unflushed⟩ :=
      occupied.followed.unflushed (fun ready => occupied.resolves ready)
        sequenced.foretoldOnce moves flush
    exact phase_fetched sequenced moves unflushed undisturbed position run ahead

end Phases

/-! ## The simulation -/

section Simulation

/-- The machine has executed what is in flight, and stands at the next instruction. -/
def Supplied (program : Rv32im.Program) (system : System) (m : Machine) (pending : List Event) :
    Prop :=
  pending = pendingEvents system ∧ Phase program system m

theorem supplied_simulates (sequenced : Sequenced program system supply) :
    Clocked.SimulatesStep (stepSupplied program) (emitSupplied program)
      (Machine.next CSR.legal program)
      (Machine.emit program) (Supplied program) system supply := by
  rintro m _ ⟨rfl, vacated | ⟨instr, occupied⟩⟩
  · obtain ⟨phase, events⟩ := vacated.step sequenced
    exact ⟨0, _, ⟨rfl, phase⟩, (List.append_nil _).trans events⟩
  · cases moves : PipelinedCPU.fetchStall system.cpu (suppliedInputs program system supply) with
    | true =>
      obtain ⟨held, events⟩ := occupied.stalled sequenced moves
      exact ⟨0, _, ⟨rfl, Or.inr ⟨instr, held⟩⟩, (List.append_nil _).trans events⟩
    | false =>
      obtain ⟨phase, events⟩ := occupied.released sequenced moves
      refine ⟨1, _, ⟨rfl, ?_⟩, ?_⟩
      · rw [Function.iterate_one, Machine.next_decoded occupied.decoded]
        exact phase
      · rw [Clocked.specLog, Clocked.specLog, List.append_nil,
          Machine.emit_decoded occupied.decoded]
        exact events

/-- The machine that starts with the core. -/
def startMachine (setup : Setup) (hart : Hart) : Machine := ⟨hart, setup.csrRegs.contents⟩

theorem phase_start (setup : Setup) {hart : Hart}
    (masked : setup.csrRegs.mcountinhibit &&& 0x000003fd#32 = setup.csrRegs.mcountinhibit)
    (run : Machine.LegalRun CSR.legal CSR.plain program (startMachine setup hart)) :
    Phase program (start setup hart) (startMachine setup hart) := by
  refine Or.inl
    ⟨⟨⟨steady_start setup hart, (represents_start setup hart).weaken,
    fun copy => Occupant.noConfusion copy⟩, ⟨fun enabled => Bool.noConfusion enabled, fun _ => rfl,
    fun address _ => ?_⟩, CSR.legalContents masked⟩, run, rfl,
    ⟨⟨rfl, rfl, rfl, rfl⟩, rfl, rfl, rfl⟩⟩
  rw [csrAfterEx_disabled rfl]
  rfl

end Simulation

/-! ## Runs -/

section Runs

variable (program : Rv32im.Program) (setup : Setup) (hart : Hart) (supplies : ℕ → Supply)

/-- The core after `n` cycles. -/
def suppliedAt (n : ℕ) : System :=
  Clocked.stateAt (stepSupplied program) (start setup hart) supplies n

/-- What the core commits in its first `n` cycles. -/
def suppliedLogAt (n : ℕ) : List Event :=
  Clocked.logAt (stepSupplied program) (emitSupplied program) (start setup hart) supplies n

/-- The sequential machine after `k` instructions. -/
def machineAt (k : ℕ) : Machine := (Machine.next CSR.legal program)^[k] (startMachine setup hart)

/-- What the sequential machine commits in its first `k` instructions. -/
def machineLog (k : ℕ) : List Event :=
  Clocked.specLog (Machine.next CSR.legal program) (Machine.emit program) k
    (startMachine setup hart)

variable {program setup hart supplies}

/-- The log and what is in flight are together the log of the sequential machine. -/
theorem supplied_refines (masked : setup.csrRegs.mcountinhibit &&& 0x000003fd#32 =
    setup.csrRegs.mcountinhibit)
    (run : Machine.LegalRun CSR.legal CSR.plain program (startMachine setup hart)) (n : ℕ)
    (sequenced : ∀ k < n, Sequenced program
      (suppliedAt program setup hart supplies k) (supplies k)) :
    ∃ m, Phase program (suppliedAt program setup hart supplies n) (machineAt program setup hart m) ∧
      suppliedLogAt program setup hart supplies n ++ pendingEvents
        (suppliedAt program setup hart supplies n) =
        machineLog program setup hart m := by
  have initial : Supplied program (start setup hart) (startMachine setup hart) [] :=
    ⟨rfl, phase_start setup masked run⟩
  obtain ⟨m, _, ⟨rfl, phase⟩, logged⟩ := Clocked.log_pending_eq_specLog initial n fun k bound =>
    supplied_simulates (sequenced k bound)
  exact ⟨m, phase, logged⟩

end Runs

end System

end MyCpu
