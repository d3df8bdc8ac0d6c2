import MyCpu.Verified.FetchProgress
import MyCpu.Verified.PeriodicRun
import MyCpu.Verified.Phases

/-! # The pipeline and the instruction set

Every run whose cycles are orderly is simulated by the sequential machine, whatever
the predictors answer and however long the bus takes.  So the effects that the
pipeline commits are a prefix of those of the sequential machine, and all of them
when fetch keeps moving: two runs of the same program with different predictions
commit the same instructions. -/

namespace MyCpu.System

open Rv32im (Hart Instr Event BusWrite LegalRun decode)

/-! ## The simulation -/

section Simulation

variable (program : Rv32im.Program)

/-- Where a run stands: in front of the next instruction, or with that instruction in ID. -/
inductive Located (system : System) (hart : Hart) : ℕ → Prop
  | awaiting : Awaiting program system hart hart.pc → Located system hart 0
  | holding {instr : Instr} : Holding program system hart instr → Located system hart 1

/-- The sequential machine has executed what is in flight, and stands at the next instruction. -/
def Related (system : System) (hart : Hart) (pending : List Event) (rank : ℕ) : Prop :=
  pending = pendingEvents system ∧ Located program system hart rank

variable {program} {system : System}

/-- An orderly cycle without an interrupt is simulated, with any answer of the predictors, and a
    cycle in which fetch moves brings the run further. -/
theorem advances (predict : System → Predictions) {stimulus : Stimulus}
    (orderly : Orderly program system stimulus)
    (quiet : PipelinedCPU.interruptEnabled system.cpu (inputs program system stimulus) = false) :
    Clocked.ProgressStep (fun system => stepWith program (predict system) system) (emit program)
      (Rv32im.next program) (Rv32im.emit program) (Related program) 2
      (PipelinedCPU.fetchStall system.cpu (inputs program system stimulus) =
        false) system stimulus := by
  rintro hart _ _ ⟨rfl, awaiting | @⟨instr, holding⟩⟩
  · cases moves : PipelinedCPU.fetchStall system.cpu (inputs program system stimulus) with
    | true =>
      obtain ⟨waiting, events⟩ := awaiting.stalled (predict system) orderly quiet moves
      exact ⟨0, _, 0, ⟨rfl, .awaiting waiting⟩, (List.append_nil _).trans events, le_rfl,
        fun go => Bool.noConfusion go⟩
    | false =>
      obtain ⟨⟨instr, holding⟩, events⟩ := awaiting.captured (predict system) quiet moves
      exact ⟨0, _, 1, ⟨rfl, .holding holding⟩, (List.append_nil _).trans events, Nat.zero_le 1,
        fun _ => Nat.zero_lt_one⟩
  · cases moves : PipelinedCPU.fetchStall system.cpu (inputs program system stimulus) with
    | true =>
      obtain ⟨held, events⟩ := holding.stalled (predict system) orderly quiet moves
      exact ⟨0, _, 1, ⟨rfl, .holding held⟩, (List.append_nil _).trans events, le_rfl,
        fun go => Bool.noConfusion go⟩
    | false =>
      -- The instruction that leaves ID is the one step of the sequential machine.
      obtain ⟨phase, events⟩ := holding.released (predict system) orderly quiet moves
      have located : ∃ rank, Located program (stepWith program (predict system) system stimulus)
          ((Rv32im.next program)^[1] hart) rank := by
        rw [Function.iterate_one, Rv32im.next_decoded holding.decoded]
        obtain awaiting | ⟨following, holding'⟩ := phase
        · exact ⟨0, .awaiting awaiting⟩
        · exact ⟨1, .holding holding'⟩
      obtain ⟨rank, located⟩ := located
      refine ⟨1, _, rank, ⟨rfl, located⟩, ?_, by omega, fun _ => by omega⟩
      rw [Clocked.specLog, Clocked.specLog, List.append_nil, Rv32im.emit_decoded holding.decoded]
      exact events

theorem Located.inFlight {hart : Hart} {rank : ℕ} (located : Located program system hart rank) :
    InFlight system hart := by
  cases located with
  | awaiting awaiting => exact awaiting.inFlight
  | holding holding => exact holding.inFlight

theorem Located.small {hart : Hart} {rank : ℕ} (located : Located program system hart rank) :
    rank < 2 := by
  cases located with
  | awaiting | holding => decide

theorem awaiting_start (setup : Setup) {hart : Hart} (run : LegalRun program hart) :
    Awaiting program (start setup hart) hart hart.pc := by
  refine ⟨⟨⟨steady_start setup hart, rfl⟩, ⟨fun _ => rfl, ?_, ?_, ?_⟩, ?_, ?_⟩, run, rfl,
    ⟨rfl, rfl, rfl, rfl⟩, rfl, rfl, rfl⟩
  · exact fun handler => Occupant.noConfusion handler
  · exact fun program => Occupant.noConfusion program
  · exact Occupant.noConfusion
  · exact (represents_start setup hart).weaken
  · exact fun copy => Occupant.noConfusion copy

theorem interruptEnabled_quiet (latency : Latency) :
    PipelinedCPU.interruptEnabled system.cpu (inputs program system latency.quiet) = false := by
  simp [PipelinedCPU.interruptEnabled, CLINT.interruptEnabled, PipelinedCPU.clintInputs,
    inputs, Latency.quiet]

theorem related_start (setup : Setup) {hart : Hart} (run : LegalRun program hart) :
    Related program (start setup hart) hart [] 0 := ⟨rfl, .awaiting (awaiting_start setup run)⟩

/-- The log of an orderly run is a prefix of the sequential machine's. -/
theorem log_isPrefix (predict : System → Predictions) (setup : Setup) {hart : Hart}
    (run : LegalRun program hart)
    (latencies : ℕ → Latency) (n : ℕ)
    (orderly : ∀ k < n, Orderly program
      (Clocked.stateAt (fun system => stepWith program (predict system) system) (start setup hart)
        (fun k => (latencies k).quiet) k) (latencies k).quiet) :
    ∃ m, Clocked.logAt (fun system => stepWith program (predict system) system)
      (emit program) (start setup hart)
      (fun k => (latencies k).quiet) n <+:
        Clocked.specLog (Rv32im.next program) (Rv32im.emit program) m hart :=
  Clocked.log_prefix_specLog ⟨0, related_start setup run⟩ n fun k bound =>
    (advances predict (orderly k bound) (interruptEnabled_quiet (latencies k))).simulates

end Simulation

/-! ## Completeness -/

section Completeness

variable (program : Rv32im.Program) (systems : ℕ → System) (stimuli : ℕ → Stimulus)

/-- A run that keeps the order of the program and goes on: every cycle is orderly, the bus answers,
    and no branch is copied into EX whose offset bits name one of its own operands. -/
structure Fluent : Prop where
  orderly : ∀ k, Orderly program (systems k) (stimuli k)
  answers : PipelinedCPU.Answered (fun k => (systems k).cpu)
    fun k => inputs program (systems k) (stimuli k)
  once : ∀ k, PipelinedCPU.copiesItself (systems k).cpu
    (inputs program (systems k) (stimuli k)) = false

variable {program systems stimuli}

/-- Fetch keeps moving in a fluent run. -/
theorem Fluent.moves (fluent : Fluent program systems stimuli)
    (runs : ∀ n, ∃ predictions, systems (n + 1) =
      stepWith program predictions (systems n) (stimuli n))
    (holds : ∀ n, IdHolds (systems n)) (n : ℕ) :
    ∃ k ≥ n, PipelinedCPU.fetchStall (systems k).cpu
      (inputs program (systems k) (stimuli k)) = false := by
  refine PipelinedCPU.eventually_moves (fun n => ?_) fluent.answers (fun n => ?_) n
  · obtain ⟨predictions, next⟩ := runs n
    exact ⟨predictions, congrArg cpu next⟩
  · exact drains_id (fluent.orderly n).issuedOnce (fluent.orderly n).correctedFreely
      (holds n).other (fluent.once n)

theorem pendingEvents_length (system : System) : (pendingEvents system).length ≤ 4 := by
  have stores : ∀ io : EX2MEM, io.storeEvents.length ≤ 1 := by
    intro io
    rw [EX2MEM.storeEvents]
    cases io.store with
    | none => exact Nat.zero_le 1
    | some write => exact le_rfl
  have mem : (memEvents system).length ≤ 2 := by
    rw [memEvents]
    split_ifs
    · exact Nat.le_succ 1
    · rw [List.length_append]
      exact Nat.add_le_add_right (stores system.cpu.ex2mem) 1
    · exact Nat.zero_le 2
  have ex : (exEvents system).length ≤ 2 := by
    rw [exEvents]
    split_ifs
    · rw [List.length_append]
      exact Nat.add_le_add_right (stores (executing system)) 1
    · exact Nat.zero_le 2
  rw [pendingEvents, List.length_append]
  exact Nat.add_le_add mem ex

theorem emit_nonempty {hart : Hart} (run : LegalRun program hart) (k : ℕ) :
    Rv32im.emit program ((Rv32im.next program)^[k] hart) ≠ [] := by
  obtain ⟨instr, decoded, _⟩ := run k
  rw [Rv32im.emit_decoded decoded]
  exact List.append_ne_nil_of_right_ne_nil _ (List.cons_ne_nil _ _)

section Predicted

variable (predict : System → Predictions) (setup : Setup) {hart : Hart}
    (run : LegalRun program hart)
  (latencies : ℕ → Latency)

include run

theorem holds_always
    (orderly : ∀ k, Orderly program
      (Clocked.stateAt (fun system => stepWith program (predict system) system) (start setup hart)
        (fun k => (latencies k).quiet) k) (latencies k).quiet) (n : ℕ) :
    IdHolds (Clocked.stateAt (fun system => stepWith program (predict system) system)
      (start setup hart)
      (fun k => (latencies k).quiet) n) := by
  obtain ⟨m, pending, ⟨rank, _, located⟩, _⟩ :=
    Clocked.log_pending_eq_specLog ⟨0, related_start setup run⟩ n fun k _ =>
      (advances predict (orderly k) (interruptEnabled_quiet (latencies k))).simulates
  exact located.inFlight.holds

/-- A fluent run commits everything that the sequential machine does. -/
theorem fluent_complete
    (fluent : Fluent program
      (Clocked.stateAt (fun system => stepWith program (predict system) system) (start setup hart)
        fun k => (latencies k).quiet) fun k => (latencies k).quiet) (l : ℕ) :
    ∃ n, Clocked.specLog (Rv32im.next program) (Rv32im.emit program) l hart <+:
      Clocked.logAt (fun system => stepWith program (predict system) system)
        (emit program) (start setup hart)
        (fun k => (latencies k).quiet) n := by
  have holds := holds_always predict setup run latencies fluent.orderly
  have started : Clocked.Progressed
      (fun system => stepWith program (predict system) system) (emit program)
      (Rv32im.next program) (Rv32im.emit program) (Related program) 2 (start setup hart) hart
      (fun k => (latencies k).quiet) 0 0 := ⟨0, [], 0, related_start setup run, rfl, rfl⟩
  refine Clocked.log_complete 4 (emit_nonempty run) (fun {_ _ _ _} related => ?_) started
    (fun n _ => advances predict (fluent.orderly n) (interruptEnabled_quiet (latencies n)))
    (fluent.moves (fun n => ⟨_, rfl⟩) holds) l
  obtain ⟨rfl, located⟩ := related
  exact ⟨located.small, pendingEvents_length _⟩

end Predicted

end Completeness

/-! ## Committed effects -/

/-- An effect on the architectural state: a register write, not to `x0`, or a write on the data
    bus. -/
inductive Effect where
  | register (rd : RegAddr) (value : Word)
  | bus (write : BusWrite)
deriving DecidableEq, Repr

def effect : Event → Option Effect
  | .busWrite write => some (.bus write)
  | .retire _ (some (rd, value)) => some (.register rd value)
  | .retire _ none => none

/-- The effects of a log, in order. -/
def effects (log : List Event) : List Effect := log.filterMap effect

section Effects

variable (program : Rv32im.Program) (setup : Setup) (hart : Hart) (latencies : ℕ → Latency)

/-- The pipeline after `n` cycles without an interrupt. -/
def stateAt (n : ℕ) : System :=
  Clocked.stateAt (step program) (start setup hart) (fun k => (latencies k).quiet) n

/-- What the pipeline commits in its first `n` cycles. -/
def logAt (n : ℕ) : List Event :=
  Clocked.logAt (step program) (emit program) (start setup hart) (fun k => (latencies k).quiet) n

/-- What the sequential machine commits in its first `m` instructions. -/
def sequentialLog (m : ℕ) : List Event :=
  Clocked.specLog (Rv32im.next program) (Rv32im.emit program) m hart

variable {program setup hart latencies}

/-- The effects of an orderly run are a prefix of the effects of the sequential machine. -/
theorem effects_refine (run : LegalRun program hart) (n : ℕ)
    (orderly : ∀ k < n, Orderly program (stateAt program setup hart latencies k)
      (latencies k).quiet) :
    ∃ m, effects (logAt program setup hart latencies n) <+:
      effects (sequentialLog program hart m) := by
  obtain ⟨m, sequential⟩ :=
    log_isPrefix (fun system => system.cpu.instFetch.predict) setup run latencies n orderly
  exact ⟨m, sequential.filterMap effect⟩

/-- Two sequences of effects that differ within their common length never become prefixes of one
    another. -/
theorem effects_diverge {committed : List Effect} {k : ℕ}
    (notShorter : ¬ committed <+: effects (sequentialLog program hart k))
    (notLonger : ¬ effects (sequentialLog program hart k) <+: committed) (m : ℕ) :
    ¬ committed <+: effects (sequentialLog program hart m) := by
  intro refines
  obtain before | after := Nat.le_total k m
  · have grows :=
      (Clocked.specLog_isPrefix (Rv32im.next program)
        (Rv32im.emit program) hart before).filterMap effect
    obtain shorter | longer := List.prefix_or_prefix_of_prefix refines grows
    · exact notShorter shorter
    · exact notLonger longer
  · have grows :=
      (Clocked.specLog_isPrefix (Rv32im.next program)
        (Rv32im.emit program) hart after).filterMap effect
    exact notShorter (refines.trans grows)

end Effects

/-! ### Runs from reset -/

/-- The state of reset, with all registers and the data memory zero. -/
def resetHart : Hart where
  pc := ProgramCounter.entryAddress
  regs := fun _ => 0#32
  memory := fun _ => 0#8

/-- The bus answers at once. -/
def immediate : ℕ → Latency := fun _ => ⟨true, true, true⟩

/-- `addi x1, x0, 5`, `sw x1, 0(x0)`, `addi x3, x1, 1`, `lw x2, 0(x0)`, `add x4, x2, x3`, `beq x0,
    x0, -20`. -/
def storeSum : Rv32im.Program := .ofWords ProgramCounter.entryAddress
  [0x00500093#32, 0x00102023#32, 0x00108193#32, 0x00002103#32, 0x00310233#32, 0xFE0006E3#32]

theorem storeSum_effects_refine :
    ∃ m, effects (logAt storeSum .reset resetHart immediate 18) <+:
      effects (sequentialLog storeSum resetHart m) :=
  effects_refine (Rv32im.legalRun_ofWords (by decide) resetHart) 18 (by decide +kernel)

/-- `sw x0, 0(x0)`, `lw x2, 0(x0)`, `addi x3, x3, 1`, `addi x4, x0, 1`. -/
def storeLoadCount : Rv32im.Program := .ofWords ProgramCounter.entryAddress
  [0x00002023#32, 0x00002103#32, 0x00118193#32, 0x00100213#32]

/-- The load behind the store holds the first `addi`, which enters EX twice and leaves 2 in `x3`. -/
theorem storeLoadCount_effect_twice :
    LegalRun storeLoadCount resetHart ∧
      ∀ m, ¬ effects (logAt storeLoadCount .reset resetHart immediate 10) <+:
        effects (sequentialLog storeLoadCount resetHart m) :=
  ⟨Rv32im.legalRun_ofWords (by decide) resetHart,
    @effects_diverge storeLoadCount resetHart _ 4 (by decide +kernel) (by decide +kernel)⟩

/-! ## Predictions -/

section Predictions

variable (program : Rv32im.Program) (setup : Setup) (hart : Hart) (latencies : ℕ → Latency)

/-- The pipeline after `n` cycles in which no predictor reports a hit. -/
def unpredictedAt (n : ℕ) : System :=
  Clocked.stateAt (stepUnpredicted program) (start setup hart) (fun k => (latencies k).quiet) n

def unpredictedLogAt (n : ℕ) : List Event :=
  Clocked.logAt (stepUnpredicted program) (emit program) (start setup hart)
    (fun k => (latencies k).quiet) n

variable {program setup hart latencies}

/-- Whatever the predictors hold, an orderly run commits the instructions of every orderly run
    without predictions, each once and in the order of the program: as far as the shorter of the two
    has come, and altogether when both are fluent. -/
theorem predictions_invisible (setup setup' : Setup) (latencies latencies' : ℕ → Latency)
    (run : LegalRun program hart) :
    (∀ n m, (∀ k < n, Orderly program (stateAt program setup hart latencies k)
      (latencies k).quiet) →
        (∀ k < m, Orderly program (unpredictedAt program setup' hart latencies' k)
          (latencies' k).quiet) →
        (logAt program setup hart latencies n <+:
          unpredictedLogAt program setup' hart latencies' m ∨
            unpredictedLogAt program setup' hart latencies' m <+:
              logAt program setup hart latencies n) ∧
          ∃ l, logAt program setup hart latencies n <+: sequentialLog program hart l) ∧
      (Fluent program (stateAt program setup hart latencies) (fun k => (latencies k).quiet) →
        Fluent program (unpredictedAt program setup' hart latencies')
          (fun k => (latencies' k).quiet) →
        (∀ n, ∃ m, logAt program setup hart latencies n <+:
          unpredictedLogAt program setup' hart latencies' m) ∧
          ∀ n, ∃ m, unpredictedLogAt program setup' hart latencies' n <+:
            logAt program setup hart latencies m) := by
  have sequential := log_isPrefix (fun system => system.cpu.instFetch.predict) setup run latencies
  have sequential' := log_isPrefix (fun _ => Predictions.miss) setup' run latencies'
  refine ⟨fun n m orderly unpredicted => ?_, fun fluent unpredicted => ⟨fun n => ?_, fun n => ?_⟩⟩
  · obtain ⟨l, logged⟩ := sequential n orderly
    obtain ⟨l', logged'⟩ := sequential' m unpredicted
    exact ⟨Clocked.prefix_comparable logged logged', l, logged⟩
  · obtain ⟨l, logged⟩ := sequential n fun k _ => fluent.orderly k
    obtain ⟨m, complete⟩ :=
      fluent_complete (fun _ => Predictions.miss) setup' run latencies' unpredicted l
    exact ⟨m, logged.trans complete⟩
  · obtain ⟨l, logged⟩ := sequential' n fun k _ => unpredicted.orderly k
    obtain ⟨m, complete⟩ :=
      fluent_complete (fun system => system.cpu.instFetch.predict) setup run latencies fluent l
    exact ⟨m, logged.trans complete⟩

end Predictions

/-! ### A loop -/

/-- `sw x1, 0(x0)`, `addi x3, x1, 1`, `lw x2, 0(x0)`, `add x4, x2, x3`, `beq x0, x0, -16`. -/
def sumLoop : Rv32im.Program := .ofWords ProgramCounter.entryAddress
  [0x00102023#32, 0x00108193#32, 0x00002103#32, 0x00310233#32, 0xFE0008E3#32]

/-- The loop starts with what a round of it leaves behind. -/
def sumLoopHart : Hart where
  pc := ProgramCounter.entryAddress
  regs := fun r => [0#32, 5#32, 5#32, 6#32, 11#32].getD r.toNat 0#32
  memory := writeWord (fun _ => 0#8) 0#32 5#32 0xF#4

/-- No counter counts, and the BTB predicts the branch of the loop. -/
def sumLoopSetup : Setup :=
  { Setup.reset with
    csrRegs := { CSR.reset with mcountinhibit := 0x3fd#32 }
    btb := { valid := fun index => index = 4#5, tags := fun _ => 0x20#32, targets := fun _ => 0x1000#32,
             counters := fun _ => 3#2 } }

theorem clocks_with (program : Rv32im.Program) (predict : System → Predictions) :
    Clocks (fun system => stepWith program (predict system) system) (inputs program)
      fun stimulus => stimulus :=
  ⟨fun system _ => ⟨predict system, rfl⟩, fun _ _ => rfl⟩

/-- A cycle of a loop that keeps the order of the program and lets the branch in ID go on. -/
def GoesOn (program : Rv32im.Program) (system : System) (stimulus : Stimulus) : Prop :=
  Orderly program system stimulus ∧
    PipelinedCPU.copiesItself system.cpu (inputs program system stimulus) = false

instance (program : Rv32im.Program) (system : System) (stimulus : Stimulus) :
    Decidable (GoesOn program system stimulus) := inferInstanceAs (Decidable (_ ∧ _))

theorem fluent_answered {program : Rv32im.Program} {systems : ℕ → System} {stimuli : ℕ → Stimulus}
    (answers : ∀ k, (stimuli k).granted = true ∧ (stimuli k).readValid = true ∧
      (stimuli k).writeValid = true)
    (goesOn : ∀ k, GoesOn program (systems k) (stimuli k)) : Fluent program systems stimuli where
  orderly := fun k => (goesOn k).1
  answers := ⟨fun n _ _ => ⟨n, le_rfl, (answers n).1⟩, fun n _ => ⟨n, le_rfl, (answers n).2.1⟩,
    fun n _ => ⟨n, le_rfl, (answers n).2.2⟩⟩
  once := fun k => (goesOn k).2

/-- The loop is predicted in every round, and takes eight cycles. -/
theorem sumLoop_fluent :
    Fluent sumLoop (stateAt sumLoop sumLoopSetup sumLoopHart immediate)
      fun k => (immediate k).quiet :=
  fluent_answered (fun _ => ⟨rfl, rfl, rfl⟩)
    (loop_always (start sumLoopSetup sumLoopHart) (fun k => (immediate k).quiet)
      (clocks_with sumLoop fun system => system.cpu.instFetch.predict)
      (GoesOn sumLoop) 8 8 (by decide)
      (fun _ _ => rfl) (writeWord_twice _ _ _ _) (by decide +kernel) (by decide +kernel) (by decide +kernel))

/-- Without predictions the loop takes nine cycles. -/
theorem sumLoop_unpredicted :
    Fluent sumLoop (unpredictedAt sumLoop sumLoopSetup sumLoopHart immediate)
      fun k => (immediate k).quiet :=
  fluent_answered (fun _ => ⟨rfl, rfl, rfl⟩)
    (loop_always (start sumLoopSetup sumLoopHart) (fun k => (immediate k).quiet)
      (clocks_with sumLoop fun _ => Predictions.miss) (GoesOn sumLoop) 8 9 (by decide)
      (fun _ _ => rfl) (writeWord_twice _ _ _ _) (by decide +kernel) (by decide +kernel) (by decide +kernel))

theorem sumLoop_invisible :
    (∀ n, ∃ m, logAt sumLoop sumLoopSetup sumLoopHart immediate n <+:
        unpredictedLogAt sumLoop sumLoopSetup sumLoopHart immediate m) ∧
      ∀ n, ∃ m, unpredictedLogAt sumLoop sumLoopSetup sumLoopHart immediate n <+:
        logAt sumLoop sumLoopSetup sumLoopHart immediate m :=
  (predictions_invisible sumLoopSetup sumLoopSetup immediate immediate
    (Rv32im.legalRun_ofWords (by decide) sumLoopHart)).2 sumLoop_fluent sumLoop_unpredicted

/-- `jal x1, 8`, `addi x3, x3, 1`, `jalr x0, 0(x1)`. -/
def callCount : Rv32im.Program :=
  .ofWords ProgramCounter.entryAddress [0x008000EF#32, 0x00118193#32, 0x00008067#32]

/-- The return address stack predicts the return correctly, and the instruction behind the call is
    executed twice. -/
theorem callCount_visible :
    LegalRun callCount resetHart ∧
      ¬ logAt callCount .reset resetHart immediate 10 <+:
        unpredictedLogAt callCount .reset resetHart immediate 11 ∧
      ¬ unpredictedLogAt callCount .reset resetHart immediate 11 <+:
        logAt callCount .reset resetHart immediate 10 := by
  have predicted : logAt callCount .reset resetHart immediate 10 =
      [.retire 0x1000#32 (some (1#5, 0x1004#32)), .retire 0x1008#32 none,
      .retire 0x1004#32 (some (3#5, 1#32)),
        .retire 0x1004#32 (some (3#5, 2#32))] := by decide +kernel
  have unpredicted : unpredictedLogAt callCount .reset resetHart immediate 11 =
      [.retire 0x1000#32 (some (1#5, 0x1004#32)), .retire 0x1008#32 none,
      .retire 0x1004#32 (some (3#5, 1#32)),
        .retire 0x1008#32 none] := by decide +kernel
  rw [predicted, unpredicted]
  exact ⟨Rv32im.legalRun_ofWords (by decide) resetHart, by decide, by decide⟩

end MyCpu.System
