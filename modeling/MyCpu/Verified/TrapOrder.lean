import MyCpu.Core.PipelinedCpu

/-! # The pipeline's write comes before the trap

In one cycle the instruction in EX writes a CSR and CLINT enters or leaves a trap.  Here the two are
done one after the other on the trap registers: first the write, then the trap step on what the
write has left.  The bypasses that CLINT reads through and the priority of its write-back have the
same effect. -/

namespace MyCpu

/-- The CSRs that a trap reads or writes, and those beside them that only the pipeline writes. -/
structure MachineRegisters where
  mstatus : Word
  mie : Word
  mtvec : Word
  mscratch : Word
  mepc : Word
  mcause : Word
  mcountinhibit : Word
deriving DecidableEq, Repr

namespace MachineRegisters

/-- The pipeline's write on its own. -/
def afterWrite (registers : MachineRegisters) (write : CsrWrite) : MachineRegisters :=
  if write.enable then
    if write.address = CSRRegister.MSTATUS then { registers with mstatus := write.data }
    else if write.address = CSRRegister.MIE then { registers with mie := write.data }
    else if write.address = CSRRegister.MTVEC then { registers with mtvec := write.data }
    else if write.address = CSRRegister.MSCRATCH then { registers with mscratch := write.data }
    else if write.address = CSRRegister.MEPC then { registers with mepc := write.data }
    else if write.address = CSRRegister.MCAUSE then { registers with mcause := write.data }
    else if write.address = CSRRegister.MCOUNTINHIBIT then
      { registers with mcountinhibit := write.data &&& 0x000003fd#32 }
    else registers
  else registers

/-- What CLINT reads when nothing is written. -/
def view (registers : MachineRegisters) : TrapView where
  mstatus := registers.mstatus
  mepc := registers.mepc
  mcause := registers.mcause
  mtvec := registers.mtvec
  mie := registers.mie

/-- The trap decided on these registers. -/
def trap (registers : MachineRegisters) (io : CLINT.Inputs) : TrapAction :=
  CLINT.outputs io registers.view

/-- The trap step on its own. -/
def afterTrap (registers : MachineRegisters) (io : CLINT.Inputs) : MachineRegisters :=
  let action := registers.trap io
  if action.directWriteEnable then
    { registers with
      mstatus := action.mstatusWriteData
      mepc := action.mepcWriteData
      mcause := action.mcauseWriteData }
  else registers

end MachineRegisters

namespace CSR

variable (csr : CSR) (write : CsrWrite)

def registers : MachineRegisters where
  mstatus := csr.mstatus
  mie := csr.mie
  mtvec := csr.mtvec
  mscratch := csr.mscratch
  mepc := csr.mepc
  mcause := csr.mcause
  mcountinhibit := csr.mcountinhibit

/-- Each register takes the write that addresses it. -/
theorem registers_afterWrite : csr.registers.afterWrite write =
    { mstatus := bypass write CSRRegister.MSTATUS csr.mstatus
      mie := bypass write CSRRegister.MIE csr.mie
      mtvec := bypass write CSRRegister.MTVEC csr.mtvec
      mscratch := bypass write CSRRegister.MSCRATCH csr.mscratch
      mepc := bypass write CSRRegister.MEPC csr.mepc
      mcause := bypass write CSRRegister.MCAUSE csr.mcause
      mcountinhibit := if write.enable && write.address = CSRRegister.MCOUNTINHIBIT
        then write.data &&& 0x000003fd#32 else csr.mcountinhibit } := by
  obtain ⟨enable, address, data⟩ := write
  cases enable with
  | false => rfl
  | true =>
    rw [MachineRegisters.afterWrite, if_pos rfl]
    simp only [bypass, Bool.true_and, decide_eq_true_eq, registers]
    by_cases mstatus : address = CSRRegister.MSTATUS
    · subst mstatus
      rfl
    by_cases mie : address = CSRRegister.MIE
    · subst mie
      rfl
    by_cases mtvec : address = CSRRegister.MTVEC
    · subst mtvec
      rfl
    by_cases mscratch : address = CSRRegister.MSCRATCH
    · subst mscratch
      rfl
    by_cases mepc : address = CSRRegister.MEPC
    · subst mepc
      rfl
    by_cases mcause : address = CSRRegister.MCAUSE
    · subst mcause
      rfl
    simp only [mstatus, mie, mtvec, mscratch, mepc, mcause, if_false]
    split_ifs <;> rfl

/-- CLINT reads the registers that the write leaves. -/
theorem clintAccessBundle_afterWrite :
    csr.clintAccessBundle write = (csr.registers.afterWrite write).view := by
  rw [registers_afterWrite]
  rfl

theorem registers_step (readAddress : CsrAddr) (io : CLINT.Inputs) (event : Counter → Bool) :
    (csr.step readAddress write (CLINT.outputs io (csr.clintAccessBundle write)) event).registers =
      (csr.registers.afterWrite write).afterTrap io := by
  rw [MachineRegisters.afterTrap, MachineRegisters.trap,
    ← clintAccessBundle_afterWrite, registers_afterWrite]
  cases direct : (CLINT.outputs io (csr.clintAccessBundle write)).directWriteEnable with
  | true => simp only [registers, step, direct, if_true]
  | false => simp only [registers, step, direct, Bool.false_eq_true, if_false]

/-- A write and a trap in one cycle are the write followed by the trap. -/
theorem write_then_trap (csr : CSR) (readAddress : CsrAddr) (write : CsrWrite) (io : CLINT.Inputs)
    (event : Counter → Bool) :
    CLINT.outputs io (csr.clintAccessBundle write) = (csr.registers.afterWrite write).trap io ∧
      (csr.step readAddress write
        (CLINT.outputs io (csr.clintAccessBundle write)) event).registers =
        (csr.registers.afterWrite write).afterTrap io :=
  ⟨congrArg (CLINT.outputs io) (clintAccessBundle_afterWrite csr write),
  registers_step csr write readAddress io event⟩

end CSR

/-- In every cycle of the core, the trap follows the write of the instruction in EX. -/
theorem PipelinedCPU.registers_step (cpu : PipelinedCPU) (io : PipelinedCPU.Inputs) :
    (PipelinedCPU.step cpu io).csrRegs.registers =
      (cpu.csrRegs.registers.afterWrite (csrWrite cpu io)).afterTrap (clintInputs cpu io) :=
  CSR.registers_step _ _ _ _ _

end MyCpu
