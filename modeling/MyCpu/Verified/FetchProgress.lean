import MyCpu.Verified.FrontEnd
import MyCpu.Verified.HeldForever
import MyCpu.Verified.IdStage

/-! # Fetch keeps moving

A hazard holds ID until the instructions behind it have left the stages that it
waits for, which takes at most three cycles in which the pipeline moves; a load or
store holds the pipeline until the bus answers.  So on a bus that answers fetch keeps
moving, whatever the predictors report, unless a branch is copied into EX whose
offset bits name one of its own operands. -/

namespace MyCpu.PipelinedCPU

variable {cpu : PipelinedCPU} {io : Inputs}

/-! ## Hazards come to an end -/

variable (cpu) in
/-- The stages behind ID, counted from EX, that cause no hazard. -/
structure ClearBehind (stages : ℕ) : Prop where
  ex : 1 ≤ stages →
    cpu.id2ex.memoryReadEnable = false ∧ Control.names (ctrl cpu) cpu.id2ex.regsWriteAddress = false
  mem : 2 ≤ stages → Control.names (ctrl cpu) cpu.ex2mem.regsWriteAddress = false
  wb : 3 ≤ stages → Control.names (ctrl cpu) cpu.mem2wb.regsWriteAddress = false

variable (cpu io) in
/-- A word that is held in ID stays there, and enters EX only when it causes no hazard for
    itself. -/
structure Drains : Prop where
  kept : fetchStall cpu io = true → if2idFlush cpu io = false
  entering : memStall cpu io = false → pcStall cpu = true → id2exFlush cpu io = false →
    InstructionDecode.exMemoryReadEnable cpu.if2id.instruction = false ∧ namesItself cpu = false

theorem clearBehind_none : ClearBehind cpu 0 :=
  ⟨fun bound => absurd bound (by decide), fun bound => absurd bound (by decide),
  fun bound => absurd bound (by decide)⟩

/-- Without a hazard from EX, MEM and WB nothing holds ID. -/
theorem ClearBehind.free {stages : ℕ} (clear : ClearBehind cpu stages) (all : 3 ≤ stages) :
    pcStall cpu = false := by
  obtain ⟨noLoad, exUnnamed⟩ := clear.ex (by omega)
  have memUnnamed := clear.mem (by omega)
  have wbUnnamed := clear.wb all
  have noLoad : (ctrl cpu).memoryReadEnableEx = false := noLoad
  have exUnnamed : Control.names (ctrl cpu) (ctrl cpu).rdEx = false := exUnnamed
  have memUnnamed : Control.names (ctrl cpu) (ctrl cpu).rdMem = false := memUnnamed
  have wbUnnamed : Control.names (ctrl cpu) (ctrl cpu).rdWb = false := wbUnnamed
  simp only [pcStall, Control.pcStall, Control.hazard, Control.memHazardForBranch,
    Control.storeLoadHazard, Control.jalJalrHazardEx, Control.jalJalrHazardMem,
    Control.jalJalrHazardWb, noLoad, exUnnamed, memUnnamed, wbUnnamed,
    Bool.and_false, Bool.or_false]

section Edge

variable (predictions : Predictions)

/-- A cycle of waiting for the bus keeps every stage, or empties EX. -/
theorem ClearBehind.waits {stages : ℕ} (clear : ClearBehind cpu stages)
    (kept : (stepWith predictions cpu io).if2id = cpu.if2id) (waits : memStall cpu io = true) :
    ClearBehind (stepWith predictions cpu io) stages := by
  have mem : (stepWith predictions cpu io).ex2mem = cpu.ex2mem := by
    simp only [stepWith, waits, pipelineRegister_stall]
  have wb : (stepWith predictions cpu io).mem2wb = cpu.mem2wb := by
    simp only [stepWith, waits, pipelineRegister_stall]
  refine ⟨fun bound => ?_, fun bound => ?_, fun bound => ?_⟩
  · -- a misprediction empties EX also while MEM waits
    cases flush : id2exFlush cpu io with
    | true =>
      have empty : (stepWith predictions cpu io).id2ex = ID2EX.bubble := by
        simp only [stepWith, flush, pipelineRegister_flush]
      rw [empty]
      exact ⟨rfl, rfl⟩
    | false =>
      have held : (stepWith predictions cpu io).id2ex = cpu.id2ex := by
        simp only [stepWith, waits, flush, pipelineRegister_stall]
      rw [held, names_kept kept]
      exact clear.ex bound
  · rw [mem, names_kept kept]
    exact clear.mem bound
  · rw [wb, names_kept kept]
    exact clear.wb bound

theorem entering_clear (drains : Drains cpu io)
    (kept : (stepWith predictions cpu io).if2id = cpu.if2id)
    (running : memStall cpu io = false) (hazard : pcStall cpu = true) :
    (stepWith predictions cpu io).id2ex.memoryReadEnable = false ∧
      Control.names (ctrl (stepWith predictions cpu io))
        (stepWith predictions cpu io).id2ex.regsWriteAddress =
        false := by
  rw [names_kept kept]
  cases flush : id2exFlush cpu io with
  | true =>
    have empty : (stepWith predictions cpu io).id2ex = ID2EX.bubble := by
      simp only [stepWith, flush, pipelineRegister_flush]
    rw [empty]
    exact ⟨rfl, rfl⟩
  | false =>
    have issued : (stepWith predictions cpu io).id2ex = id2exInput cpu io := by
      simp only [stepWith, running, flush, pipelineRegister_capture]
    rw [issued]
    exact drains.entering running hazard flush

/-- A cycle that moves the pipeline drains one more stage, when what enters EX causes no hazard. -/
theorem ClearBehind.moves {stages : ℕ} (clear : ClearBehind cpu stages) (drains : Drains cpu io)
    (kept : (stepWith predictions cpu io).if2id = cpu.if2id) (running : memStall cpu io = false)
    (hazard : pcStall cpu = true) : ClearBehind (stepWith predictions cpu io) (stages + 1) := by
  have mem : (stepWith predictions cpu io).ex2mem.regsWriteAddress =
      cpu.id2ex.regsWriteAddress := by
    simp only [stepWith, running, pipelineRegister_capture, ex2memInput]
  have wb : (stepWith predictions cpu io).mem2wb.regsWriteAddress =
      cpu.ex2mem.regsWriteAddress := by
    simp only [stepWith, running, pipelineRegister_capture, mem2wbInput,
      MemoryAccess.wbRegsWriteAddress, inActiveRead_running running, Bool.false_eq_true, if_false]
  -- EX takes what leaves ID, and each later stage what was clear in the stage before it
  refine ⟨fun _ => entering_clear predictions drains kept running hazard,
    fun bound => ?_, fun bound => ?_⟩
  · rw [mem, names_kept kept]
    exact (clear.ex (by omega)).2
  · rw [wb, names_kept kept]
    exact clear.mem (by omega)

theorem ClearBehind.step {stages : ℕ} (clear : ClearBehind cpu stages) (drains : Drains cpu io)
    (stalls : fetchStall cpu io = true) :
    ClearBehind (stepWith predictions cpu io) (if memStall cpu io then stages else stages + 1) := by
  have kept := if2id_kept predictions stalls (drains.kept stalls)
  cases waits : memStall cpu io with
  | true => exact clear.waits predictions kept waits
  | false =>
    have hazard : pcStall cpu = true := by
      obtain hazard | waits' := (Bool.or_eq_true _ _).mp stalls
      · exact hazard
      · exact Bool.noConfusion (waits.symm.trans waits')
    exact clear.moves predictions drains kept waits hazard

end Edge

/-! ## Accesses come to an end -/

section Runs

variable (cpus : ℕ → PipelinedCPU) (ios : ℕ → Inputs)

/-- A run of the core, with any answers of the predictors. -/
def Runs : Prop := ∀ n, ∃ predictions, cpus (n + 1) = stepWith predictions (cpus n) (ios n)

/-- Every load and store in MEM is granted, and every access that was granted is answered. -/
structure Answered : Prop where
  grants : ∀ n, (cpus n).mem.memAccessState = .idle →
    (cpus n).ex2mem.memoryReadEnable = true ∨ (cpus n).ex2mem.memoryWriteEnable = true →
    ∃ k ≥ n, (ios k).bus.granted = true
  reads : ∀ n, (cpus n).mem.memAccessState = .read → ∃ k ≥ n, (ios k).bus.readValid = true
  writes : ∀ n, (cpus n).mem.memAccessState = .write → ∃ k ≥ n, (ios k).bus.writeValid = true

variable {cpus ios} (runs : Runs cpus ios)

/-- MEM holds a load or store that has not been granted. -/
def Requests (cpu : PipelinedCPU) : Prop :=
  cpu.mem.memAccessState = .idle ∧
    (cpu.ex2mem.memoryReadEnable = true ∨ cpu.ex2mem.memoryWriteEnable = true)

theorem Requests.memStall (requests : Requests cpu) : memStall cpu io = true := by
  rw [PipelinedCPU.memStall, MemoryAccess.ctrlStallFlag, requests.1]
  exact (Bool.or_eq_true _ _).mpr requests.2

theorem memStall_idle (idle : cpu.mem.memAccessState = .idle) (none : ¬ Requests cpu) :
    memStall cpu io = false := by
  rw [Requests, not_and, not_or] at none
  obtain ⟨noLoad, noStore⟩ := none idle
  rw [PipelinedCPU.memStall, MemoryAccess.ctrlStallFlag, idle]
  exact Bool.or_eq_false_iff.mpr
    ⟨Bool.eq_false_of_not_eq_true noLoad, Bool.eq_false_of_not_eq_true noStore⟩

/-- What waits for an answer of the bus still waits when the answer comes. -/
theorem waits_until (Waiting : PipelinedCPU → Prop) (Answer : Inputs → Prop) {n : ℕ}
    (kept : ∀ k, Waiting (cpus k) → ¬ Answer (ios k) → Waiting (cpus (k + 1)))
    (waiting : Waiting (cpus n))
    (answered : ∃ k ≥ n, Answer (ios k)) : ∃ m ≥ n, Waiting (cpus m) ∧ Answer (ios m) := by
  obtain ⟨m, later, answer, first⟩ := Clocked.first_from answered
  exact ⟨m, later, Clocked.kept_until later waiting
    fun k after before waits => kept k waits (first k after before), answer⟩

include runs

theorem memAccessState_succ (n : ℕ) : (cpus (n + 1)).mem.memAccessState =
    MemoryAccess.nextState (cpus n).mem (cpus n).ex2mem (ios n).bus := by
  obtain ⟨predictions, next⟩ := runs n
  rw [next]
  rfl

theorem Requests.next {n : ℕ} (requests : Requests (cpus n)) :
    if (ios n).bus.granted then (cpus (n + 1)).mem.memAccessState ≠ .idle
      else Requests (cpus (n + 1)) := by
  have state := memAccessState_succ runs n
  rw [MemoryAccess.nextState, requests.1] at state
  cases grant : (ios n).bus.granted with
  | true =>
    rw [grant] at state
    rw [if_pos rfl, state]
    -- `Read` for a load and `Write` for a store, a load first
    obtain load | store := requests.2
    · simp [load]
    · cases load : (cpus n).ex2mem.memoryReadEnable <;> simp [store]
  | false =>
    have waits : PipelinedCPU.memStall (cpus n) (ios n) = true := requests.memStall
    have held : (cpus (n + 1)).ex2mem = (cpus n).ex2mem := by
      obtain ⟨predictions, next⟩ := runs n
      rw [next]
      simp only [stepWith, waits, pipelineRegister_stall]
    rw [grant] at state
    rw [if_neg Bool.false_ne_true, Requests, held]
    refine ⟨?_, requests.2⟩
    rw [state]
    simp

variable (answers : Answered cpus ios)

include answers

/-- An access that was granted ends. -/
theorem access_ends (n : ℕ) (granted : (cpus n).mem.memAccessState ≠ .idle) :
    ∃ m ≥ n, memStall (cpus m) (ios m) = false := by
  cases state : (cpus n).mem.memAccessState with
  | idle => exact absurd state granted
  | read =>
    have kept : ∀ k, (cpus k).mem.memAccessState = .read → ¬ (ios k).bus.readValid = true →
        (cpus (k + 1)).mem.memAccessState = .read := by
      intro k reading unanswered
      rw [memAccessState_succ runs, MemoryAccess.nextState, reading]
      exact if_neg unanswered
    obtain ⟨m, later, reading, valid⟩ := waits_until (fun cpu => cpu.mem.memAccessState = .read)
      (fun io => io.bus.readValid = true) kept state (answers.reads n state)
    refine ⟨m, later, ?_⟩
    rw [memStall, MemoryAccess.ctrlStallFlag, reading]
    exact (Bool.not_eq_false' _).mpr valid
  | write =>
    have kept : ∀ k, (cpus k).mem.memAccessState = .write → ¬ (ios k).bus.writeValid = true →
        (cpus (k + 1)).mem.memAccessState = .write := by
      intro k writing unanswered
      rw [memAccessState_succ runs, MemoryAccess.nextState, writing]
      exact if_neg unanswered
    obtain ⟨m, later, writing, valid⟩ := waits_until (fun cpu => cpu.mem.memAccessState = .write)
      (fun io => io.bus.writeValid = true) kept state (answers.writes n state)
    refine ⟨m, later, ?_⟩
    rw [memStall, MemoryAccess.ctrlStallFlag, writing]
    exact (Bool.not_eq_false' _).mpr valid

/-- MEM does not wait forever. -/
theorem eventually_running (n : ℕ) : ∃ m ≥ n, memStall (cpus m) (ios m) = false := by
  by_cases idle : (cpus n).mem.memAccessState = .idle
  · by_cases requests : Requests (cpus n)
    · -- first the grant, then the answer of the access that it starts
      have kept : ∀ k, Requests (cpus k) → ¬ (ios k).bus.granted = true →
          Requests (cpus (k + 1)) := by
        intro k waiting refused
        have next := waiting.next runs
        rwa [if_neg refused] at next
      obtain ⟨m, later, waiting, grant⟩ :=
        waits_until Requests (fun io => io.bus.granted = true) kept requests
          (answers.grants n idle requests.2)
      have started := waiting.next runs
      rw [if_pos grant] at started
      obtain ⟨l, after, running⟩ := access_ends runs answers (m + 1) started
      exact ⟨l, by omega, running⟩
    · exact ⟨n, le_rfl, memStall_idle idle requests⟩
  · exact access_ends runs answers n idle

/-! ## Fetch moves on -/

variable (drains : ∀ n, Drains (cpus n) (ios n))

include drains

/-- The stages behind ID stay clear until MEM moves. -/
theorem clearBehind_running {n stages : ℕ} (clear : ClearBehind (cpus n) stages) :
    ∃ m ≥ n, memStall (cpus m) (ios m) = false ∧ ClearBehind (cpus m) stages := by
  obtain ⟨m, later, running, first⟩ := Clocked.first_from (eventually_running runs answers n)
  refine ⟨m, later, running, Clocked.kept_until later clear fun k after before clear => ?_⟩
  have waits := Bool.eq_true_of_not_eq_false (first k after before)
  obtain ⟨predictions, next⟩ := runs k
  have clear' := clear.step predictions (drains k) ((Bool.or_eq_true _ _).mpr (Or.inr waits))
  rwa [waits, if_pos rfl, ← next] at clear'

/-- Fetch moves again and again, once the stages behind ID are clear at the latest. -/
theorem eventually_moves (n : ℕ) : ∃ k ≥ n, fetchStall (cpus k) (ios k) = false := by
  -- by induction on the number of stages that are not clear yet
  suffices clears : ∀ missing n stages, 3 ≤ stages + missing → ClearBehind (cpus n) stages →
      ∃ k ≥ n, fetchStall (cpus k) (ios k) = false from clears 3 n 0 (by decide) clearBehind_none
  intro missing
  induction missing with
  | zero =>
    intro n stages all clear
    obtain ⟨m, later, running, clear⟩ := clearBehind_running runs answers drains clear
    exact ⟨m, later, Bool.or_eq_false_iff.mpr ⟨clear.free all, running⟩⟩
  | succ missing inductionHypothesis =>
    intro n stages all clear
    obtain ⟨m, later, running, clear⟩ := clearBehind_running runs answers drains clear
    cases stalls : fetchStall (cpus m) (ios m) with
    | false => exact ⟨m, later, stalls⟩
    | true =>
      -- this cycle moves the pipeline, so one more stage is clear after it
      obtain ⟨predictions, next⟩ := runs m
      have clear' := clear.step predictions (drains m) stalls
      rw [running, if_neg Bool.false_ne_true, ← next] at clear'
      obtain ⟨k, after, moves⟩ := inductionHypothesis (m + 1) (stages + 1) (by omega) clear'
      exact ⟨k, by omega, moves⟩

end Runs

end MyCpu.PipelinedCPU

namespace MyCpu.System

/-! ## Orderly cycles drain the stages behind ID -/

section Orderly

variable {system : System} {io : PipelinedCPU.Inputs}

/-- A jump that is copied into EX without its `rd` bits naming an operand of its own. -/
theorem copy_unnamed (running : PipelinedCPU.memStall system.cpu io = false)
    (hazard : PipelinedCPU.pcStall system.cpu = true)
    (issues : PipelinedCPU.id2exFlush system.cpu io = false)
    (kept : PipelinedCPU.if2idFlush system.cpu io = false)
    (waits : PipelinedCPU.branchHazard system.cpu = true)
    (unread : InstructionDecode.opcode system.cpu.if2id.instruction = Instructions.jalr →
      Rv32im.rd system.cpu.if2id.instruction ≠ Rv32im.rs1 system.cpu.if2id.instruction)
    (once : PipelinedCPU.copiesItself system.cpu io = false) :
    PipelinedCPU.namesItself system.cpu = false := by
  have stalls : PipelinedCPU.if2idStall system.cpu io = true :=
    (Bool.or_eq_true _ _).mpr (Or.inl hazard)
  have held : PipelinedCPU.copiesHeld system.cpu io = true := by
    rw [PipelinedCPU.copiesHeld, PipelinedCPU.holdsId, PipelinedCPU.issuesId, stalls,
      kept, running, issues]
    rfl
  have jump := branchHazard_jump waits
  simp only [PipelinedCPU.isBranchOrJump, InstructionDecode.ctrlJumpInstruction, Bool.or_eq_true,
    decide_eq_true_eq] at jump
  obtain (jal | jalr) | branch := jump
  · exact absurd jal (branchHazard_notJal waits)
  · -- a JALR reads one register, which an orderly cycle does not let it write
    have second : (PipelinedCPU.ctrl system.cpu).rs2Id = 0#5 := InstructionDecode.reg2_unused (by
      rw [InstructionDecode.usesRs2, jalr]
      rfl)
    have first : (PipelinedCPU.ctrl system.cpu).rs1Id =
        Rv32im.rs1 system.cpu.if2id.instruction := by
      change InstructionDecode.regsReg1ReadAddress system.cpu.if2id.instruction = _
      rw [InstructionDecode.regsReg1ReadAddress, InstructionDecode.usesRs1, jalr]
      rfl
    have other : InstructionDecode.rd system.cpu.if2id.instruction ≠
        Rv32im.rs1 system.cpu.if2id.instruction :=
      unread jalr
    rw [PipelinedCPU.namesItself, Control.names, first, second,
      decide_eq_false other, Bool.false_or]
    simp
  · -- a branch writes no register, but bits 11..7 of its offset may name an operand
    have branch : PipelinedCPU.isBranch system.cpu = true := decide_eq_true branch
    rw [PipelinedCPU.copiesItself, branch, held, Bool.true_and, Bool.and_true] at once
    exact once

/-- In an orderly cycle nothing that causes a hazard for the word in ID enters EX, unless that word
    is a branch that names itself. -/
theorem drains_id
    (issuedOnce : PipelinedCPU.memStall system.cpu io = false →
      PipelinedCPU.pcStall system.cpu = true →
      PipelinedCPU.id2exFlush system.cpu io = false → system.id = .instruction →
      PipelinedCPU.branchHazard system.cpu = true ∧
        (InstructionDecode.opcode system.cpu.if2id.instruction = Instructions.jalr →
          Rv32im.rd system.cpu.if2id.instruction ≠ Rv32im.rs1 system.cpu.if2id.instruction))
    (correctedFreely : PipelinedCPU.memStall system.cpu io = false →
      PipelinedCPU.pcStall system.cpu = true →
      PipelinedCPU.mispredicted system.cpu io = false)
    (other : system.id ≠ .instruction →
      system.cpu.if2id.instruction = InstructionsNop.nop ∨
      system.cpu.if2id.instruction = InstructionsRet.mret)
    (once : PipelinedCPU.copiesItself system.cpu io = false) :
    PipelinedCPU.Drains system.cpu io := by
  refine ⟨fun stalls => PipelinedCPU.unflushed_stalled stalls correctedFreely,
    fun running hazard issues => ?_⟩
  by_cases occupant : system.id = .instruction
  · obtain ⟨waits, unread⟩ := issuedOnce running hazard issues occupant
    have stalls : PipelinedCPU.fetchStall system.cpu io = true :=
      (Bool.or_eq_true _ _).mpr (Or.inl hazard)
    exact ⟨(jump_noAccess (branchHazard_jump waits)).1, copy_unnamed running hazard issues
      (PipelinedCPU.unflushed_stalled stalls correctedFreely) waits unread once⟩
  · -- neither a bubble nor the return of the handler writes a register
    rw [PipelinedCPU.namesItself]
    obtain empty | handler := other occupant
    · rw [empty]
      exact ⟨rfl, rfl⟩
    · rw [handler]
      exact ⟨rfl, rfl⟩

theorem IdHolds.other (holds : IdHolds system) (occupant : system.id ≠ .instruction) :
    system.cpu.if2id.instruction = InstructionsNop.nop ∨ system.cpu.if2id.instruction =
      InstructionsRet.mret := by
  cases held : system.id with
  | bubble => exact Or.inl (holds.bubble held)
  | handler => exact Or.inr (holds.handler held)
  | instruction => exact absurd held occupant
  | reissued => exact absurd held holds.original

end Orderly

end MyCpu.System
