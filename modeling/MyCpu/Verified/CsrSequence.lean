import MyCpu.Verified.Refinement
import MyCpu.Verified.Supply

/-! # CSR instructions behave sequentially

ID reads a CSR that EX may be about to write, and the read has no bypass.  Apart from
the cycles in which this happens, and those that disturb any program, every CSR
instruction reads what the older ones leave, and the CSR file is that of the
sequential machine whenever EX holds no CSR write. -/

namespace MyCpu.System

open Rv32im (Hart Machine Event)

section Sequence

variable {program : Rv32im.Program} {setup : Setup} {hart : Hart} {supplies : ℕ → Supply}

theorem Phase.ahead {system : System} {m : Machine} (phase : Phase program system m) :
    Ahead system m := by
  obtain vacated | ⟨_, occupied⟩ := phase
  · exact vacated.ahead
  · exact occupied.ahead

theorem pendingEvents_drained {system : System} (ex : system.ex ≠ .instruction)
    (mem : system.mem ≠ .instruction) :
    pendingEvents system = [] := by
  rw [pendingEvents, memEvents, if_neg mem, exEvents_other ex, List.append_nil]

/-- The register and bus writes are those of the sequential machine, and so is the CSR file: of the
    machine that has executed what has left ID. -/
theorem csrs_sequential (setup : Setup) (hart : Hart) (supplies : ℕ → Supply)
    (masked : setup.csrRegs.mcountinhibit &&& 0x000003fd#32 = setup.csrRegs.mcountinhibit)
    (run : Machine.LegalRun CSR.legal CSR.plain program (startMachine setup hart)) (n : ℕ)
    (sequenced : ∀ k < n, Sequenced program
      (suppliedAt program setup hart supplies k) (supplies k)) :
    ∃ m, suppliedLogAt program setup hart supplies n <+: machineLog program setup hart m ∧
      ((suppliedAt program setup hart supplies n).cpu.id2ex.csrWriteEnable = false →
        ∀ address, CSR.plain address = true →
          (suppliedAt program setup hart supplies n).cpu.csrRegs.regLUT address =
            (machineAt program setup hart m).csr address) ∧
      ((suppliedAt program setup hart supplies n).ex ≠ .instruction →
        (suppliedAt program setup hart supplies n).mem ≠ .instruction →
          suppliedLogAt program setup hart supplies n = machineLog program setup hart m) := by
  obtain ⟨m, phase, logged⟩ := supplied_refines masked run n sequenced
  refine ⟨m, ⟨_, logged⟩, fun disabled address isPlain => ?_, fun ex mem => ?_⟩
  · rw [← phase.ahead.csrs.agrees address isPlain, csrAfterEx_disabled disabled,
      CSR.contents, if_pos isPlain]
  · rw [← logged, pendingEvents_drained ex mem, List.append_nil]

end Sequence

/-! ## Two runs -/

/-- The bus answers at once, and the fetched word is valid in the first cycles. -/
def validFor (cycles : ℕ) (k : ℕ) : Supply := { immediate k with instructionValid := k < cycles }

/-- `csrrwi x0, mscratch, 5`, `addi x1, x0, 3`, `csrrs x2, mscratch, x1`, `csrrw x3, mtvec, x2` and
    `csrrc x4, mscratch, x1`. -/
def scratchProgram : Rv32im.Program := .ofWords ProgramCounter.entryAddress
  [0x3402D073#32, 0x00300093#32, 0x3400A173#32, 0x305111F3#32, 0x3400B273#32]

/-- The CSR instructions on `mscratch` have another instruction between them, and all is done in
    cycle 10. -/
theorem scratch_sequential :
    ∃ m, suppliedLogAt scratchProgram .reset resetHart (validFor 5) 10 =
      machineLog scratchProgram .reset resetHart m ∧
      (suppliedAt scratchProgram .reset resetHart (validFor 5) 10).cpu.csrRegs.mscratch =
        (machineAt scratchProgram .reset resetHart m).csr CSRRegister.MSCRATCH := by
  have run : Machine.LegalRun CSR.legal CSR.plain scratchProgram (startMachine .reset resetHart) :=
    Machine.legalRun_ofWords (by decide) _
  obtain ⟨m, _, registers, drained⟩ :=
    csrs_sequential .reset resetHart (validFor 5) (by decide) run 10 (by decide +kernel)
  refine ⟨m, drained (by decide +kernel) (by decide +kernel), ?_⟩
  exact registers (by decide +kernel) CSRRegister.MSCRATCH (by decide)

/-- `csrrwi x0, mscratch, 5` and `csrrs x1, mscratch, x0`. -/
def scratchPair : Rv32im.Program :=
  .ofWords ProgramCounter.entryAddress [0x3402D073#32, 0x340020F3#32]

/-- The second instruction reads `mscratch` in the cycle in which the first one writes it. -/
theorem scratchPair_stale :
    Machine.LegalRun CSR.legal CSR.plain scratchPair (startMachine .reset resetHart) ∧
      ∀ m, ¬ suppliedLogAt scratchPair .reset resetHart (validFor 8) 7 <+:
        machineLog scratchPair .reset resetHart m := by
  have notShorter : ¬ suppliedLogAt scratchPair .reset resetHart (validFor 8) 7 <+:
      machineLog scratchPair .reset resetHart 2 := by decide +kernel
  have notLonger : ¬ machineLog scratchPair .reset resetHart 2 <+:
      suppliedLogAt scratchPair .reset resetHart (validFor 8) 7 := by decide +kernel
  exact ⟨Machine.legalRun_ofWords (by decide) _, Clocked.diverges notShorter notLonger⟩

end MyCpu.System
