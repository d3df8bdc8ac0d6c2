import MyCpu.Verified.ValidWords

/-! # Forward progress

With a valid word in every cycle and on a bus that answers, the pipeline commits
everything that the sequential machine does, unless a branch is copied into EX whose
offset bits name one of its own operands: that branch is held for ever, and nothing
behind it is committed. -/

namespace MyCpu.System

open Rv32im (Hart Machine SystemInstr Event)

section Runs

variable {program : Rv32im.Program} {setup : Setup} {hart : Hart} {supplies : ℕ → Supply}

section Moving

variable (masked : setup.csrRegs.mcountinhibit &&& 0x000003fd#32 = setup.csrRegs.mcountinhibit)
  (run : Machine.LegalRun CSR.legal CSR.plain program (startMachine setup hart))
  (sequenced : ∀ k, Sequenced program (suppliedAt program setup hart supplies k) (supplies k))

include masked run sequenced

/-- Fetch always takes a next word. -/
theorem eventually_served (valid : ∀ k, (supplies k).instructionValid = true)
    (answers : BusAnswers program setup hart supplies)
    (once : ∀ k, PipelinedCPU.copiesItself (suppliedAt program setup hart supplies k).cpu
      (suppliedInputs program (suppliedAt program setup hart supplies k) (supplies k)) = false)
      (n : ℕ) :
    ∃ k ≥ n, Served program (suppliedAt program setup hart supplies k) (supplies k) := by
  obtain ⟨k, later, moves⟩ := eventually_moves masked run sequenced answers once n
  exact ⟨k, later, valid k, moves⟩

/-! ## A branch that is never resolved -/

omit masked run in
/-- Behind a branch that waits for its own copy the machine stays where it is. -/
theorem stuck_logged {n k : ℕ} {instr : SystemInstr}
    (waits : PipelinedCPU.WaitsForCopy (suppliedAt program setup hart supplies n).cpu)
    (occupied : Occupied program (suppliedAt program setup hart supplies n)
      (machineAt program setup hart k) instr)
    (logged : suppliedLogAt program setup hart supplies n ++ pendingEvents
      (suppliedAt program setup hart supplies n) =
      machineLog program setup hart k) (m : ℕ) (later : n ≤ m) :
    PipelinedCPU.WaitsForCopy (suppliedAt program setup hart supplies m).cpu ∧
      Occupied program (suppliedAt program setup hart supplies m)
        (machineAt program setup hart k) instr ∧
      suppliedLogAt program setup hart supplies m ++ pendingEvents
        (suppliedAt program setup hart supplies m) =
        machineLog program setup hart k := by
  induction m, later using Nat.le_induction with
  | base => exact ⟨waits, occupied, logged⟩
  | succ m later inductionHypothesis =>
    obtain ⟨waits, occupied, logged⟩ := inductionHypothesis
    obtain ⟨held, moved⟩ := occupied.stalled (sequenced m) (waits.fetchStall _)
    exact ⟨(waits.step _ _).1, held, Clocked.logged_step (k := 0) logged
      ((List.append_nil _).trans moved)⟩

/-- The log stays within the instructions before the branch. -/
theorem stuck_bounded {n : ℕ} (copies : PipelinedCPU.copiesItself
    (suppliedAt program setup hart supplies n).cpu
      (suppliedInputs program (suppliedAt program setup hart supplies n) (supplies n)) = true) :
    ∃ k, ∀ m, suppliedLogAt program setup hart supplies m <+: machineLog program setup hart k := by
  have waits : PipelinedCPU.WaitsForCopy (suppliedAt program setup hart supplies (n + 1)).cpu :=
    (PipelinedCPU.waits_copied _ copies).1
  obtain ⟨k, phase, logged⟩ := supplied_refines masked run (n + 1) fun j _ => sequenced j
  obtain vacated | ⟨instr, occupied⟩ := phase
  · -- a vacant ID holds no branch
    have empty : (suppliedAt program setup hart supplies (n + 1)).cpu.if2id.instruction =
        InstructionsNop.nop :=
      vacated.waiting.vacant.1
    have branch : PipelinedCPU.isBranch
        (suppliedAt program setup hart supplies (n + 1)).cpu = true := waits.branch
    rw [PipelinedCPU.isBranch, empty] at branch
    exact absurd branch (by decide)
  · refine ⟨k, fun m => ?_⟩
    obtain ⟨_, _, logged'⟩ :=
      stuck_logged sequenced waits occupied logged (max m (n + 1)) (le_max_right _ _)
    exact (Clocked.logAt_isPrefix _ _ _ _ (le_max_left m (n + 1))).trans ⟨_, logged'⟩

end Moving

theorem machineLog_grows (run : Machine.LegalRun CSR.legal CSR.plain program
    (startMachine setup hart)) (k : ℕ) :
    (machineLog program setup hart k).length < (machineLog program setup hart (k + 1)).length := by
  obtain ⟨instr, decoded, _⟩ := run k
  rw [machineLog_succ decoded, List.length_append]
  exact Nat.lt_add_of_pos_right (List.length_pos_iff.mpr (events_nonempty _ instr))

/-- On a bus that answers, a run whose cycles keep the order of the program commits everything that
    the sequential machine does, exactly when no branch is copied into EX whose offset bits name one
    of its own operands. -/
theorem completes_iff (masked : setup.csrRegs.mcountinhibit &&& 0x000003fd#32 =
    setup.csrRegs.mcountinhibit)
    (run : Machine.LegalRun CSR.legal CSR.plain program (startMachine setup hart))
    (sequenced : ∀ k, Sequenced program (suppliedAt program setup hart supplies k) (supplies k))
    (valid : ∀ k, (supplies k).instructionValid = true)
    (answers : BusAnswers program setup hart supplies) :
    (∀ l, ∃ n, machineLog program setup hart l <+: suppliedLogAt program setup hart supplies n) ↔
      ∀ k, PipelinedCPU.copiesItself (suppliedAt program setup hart supplies k).cpu
        (suppliedInputs program (suppliedAt program setup hart supplies k) (supplies k)) =
          false := by
  constructor
  · intro completes k
    by_contra copies
    obtain ⟨m, bounded⟩ := stuck_bounded masked run sequenced (Bool.eq_true_of_not_eq_false copies)
    obtain ⟨n, covered⟩ := completes (m + 1)
    have shorter := (covered.trans (bounded n)).length_le
    exact absurd (machineLog_grows run m) (Nat.not_lt.mpr shorter)
  · intro once
    exact log_complete masked run sequenced
      (eventually_served masked run sequenced valid answers once)

theorem clocks_supplied (program : Rv32im.Program) :
    Clocks (stepSupplied program) (suppliedInputs program) fun supply => supply.quiet :=
  ⟨fun system _ => ⟨system.cpu.instFetch.predict, rfl⟩, fun _ _ => rfl⟩

/-- The loop has a store, a load and a branch. -/
theorem sumLoop_sequenced (k : ℕ) :
    Sequenced sumLoop (suppliedAt sumLoop sumLoopSetup sumLoopHart (validWhen fun _ => true) k)
        (validWhen (fun _ => true) k) ∧
      PipelinedCPU.copiesItself (suppliedAt sumLoop sumLoopSetup sumLoopHart
        (validWhen fun _ => true) k).cpu
        (suppliedInputs sumLoop (suppliedAt sumLoop sumLoopSetup sumLoopHart
          (validWhen fun _ => true) k)
          (validWhen (fun _ => true) k)) = false :=
  loop_always (start sumLoopSetup sumLoopHart) (validWhen fun _ => true) (clocks_supplied sumLoop)
    (fun system supply => Sequenced sumLoop system supply ∧
      PipelinedCPU.copiesItself system.cpu (suppliedInputs sumLoop system supply) = false) 8 8
        (by decide)
    (fun _ _ => rfl) (writeWord_twice _ _ _ _) (by decide +kernel)
    (by decide +kernel) (by decide +kernel) k

/-- In the first round the load gets what the store has written; each later round comes as well. -/
theorem sumLoop_completes :
    Event.retire 0x1008#32 (some (2#5, 5#32)) ∈
        suppliedLogAt sumLoop sumLoopSetup sumLoopHart (validWhen fun _ => true) 12 ∧
      ∀ l, ∃ n, machineLog sumLoop sumLoopSetup sumLoopHart l <+:
        suppliedLogAt sumLoop sumLoopSetup sumLoopHart (validWhen fun _ => true) n := by
  have answers : BusAnswers sumLoop sumLoopSetup sumLoopHart (validWhen fun _ => true) :=
    ⟨fun n _ _ => ⟨n, le_rfl, rfl⟩, fun n _ => ⟨n, le_rfl, rfl⟩, fun n _ => ⟨n, le_rfl, rfl⟩⟩
  refine ⟨by decide +kernel, ?_⟩
  exact (completes_iff (by decide) (Machine.legalRun_ofWords (by decide) _)
    (fun k => (sumLoop_sequenced k).1)
    (fun _ => rfl) answers).mpr fun k => (sumLoop_sequenced k).2

end Runs

end MyCpu.System
