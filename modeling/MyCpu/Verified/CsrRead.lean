import MyCpu.Verified.CounterPair

/-! # A pure CSR read writes back what it read

The write enable of a CSR instruction is decoded from its opcode and `funct3` alone,
so a `csrr` in EX writes the word that it read in ID.  This changes nothing as long as
the word is still there, and as long as the write does not take the place of a count.

The core is compared with one in which a `csrr` in EX does not write; the two differ
only in the write enable, which nothing but the CSR file and CLINT look at. -/

namespace MyCpu

/-! ## Writes to the CSR file -/

namespace CSR

/-- The word that a write to an address replaces. -/
def stored (csr : CSR) (address : CsrAddr) : Option Word :=
  if address = CSRRegister.MSTATUS then some csr.mstatus
  else if address = CSRRegister.MIE then some csr.mie
  else if address = CSRRegister.MTVEC then some csr.mtvec
  else if address = CSRRegister.MSCRATCH then some csr.mscratch
  else if address = CSRRegister.MEPC then some csr.mepc
  else if address = CSRRegister.MCAUSE then some csr.mcause
  else if address = CSRRegister.MCOUNTINHIBIT then some csr.mcountinhibit
  else match Counter.all.find? (fun c => address = c.lowAddress) with
    | some c => some ((csr.counters c).extractLsb' 0 32)
    | none => match Counter.all.find? (fun c => address = c.highAddress) with
      | some c => some ((csr.counters c).extractLsb' 32 32)
      | none => none

/-- The counter counts in this cycle. -/
def counts (csr : CSR) (event : Counter → Bool) (counter : Counter) : Bool :=
  event counter && !csr.mcountinhibit.getLsbD counter.number

/-- The write gives every register back its own word. -/
def WritesBack (csr : CSR) (write : CsrWrite) : Prop :=
  ∀ word, csr.stored write.address = some word → write.data = word

def disabled (write : CsrWrite) : CsrWrite := { write with enable := false }

section WriteBack

variable {csr : CSR} {write : CsrWrite}

theorem bypass_back {address : CsrAddr} {register : Word} (back : csr.WritesBack write)
    (stored : csr.stored address = some register) : bypass write address register = register := by
  rw [bypass]
  by_cases addressed : (write.enable && write.address = address) = true
  · rw [if_pos addressed]
    rw [Bool.and_eq_true, decide_eq_true_eq] at addressed
    exact back register (addressed.2 ▸ stored)
  · rw [if_neg addressed]

theorem clintAccessBundle_back (back : csr.WritesBack write) :
    csr.clintAccessBundle (disabled write) = csr.clintAccessBundle write := by
  simp only [clintAccessBundle, bypass_back back (show csr.stored CSRRegister.MSTATUS = _ from rfl),
    bypass_back back (show csr.stored CSRRegister.MEPC = _ from rfl),
    bypass_back back (show csr.stored CSRRegister.MCAUSE = _ from rfl),
    bypass_back back (show csr.stored CSRRegister.MTVEC = _ from rfl),
    bypass_back back (show csr.stored CSRRegister.MIE = _ from rfl)]
  rfl

theorem nextCounter_back {event : Counter → Bool} {counter : Counter} (back : csr.WritesBack write)
    (still : write.address = counter.lowAddress ∨ write.address = counter.highAddress →
      csr.counts event counter = false) :
    csr.nextCounter write event counter = csr.nextCounter (disabled write) event counter := by
  have ordinary : csr.nextCounter (disabled write) event counter =
      if csr.counts event counter then csr.counters counter + 1#64 else csr.counters counter := rfl
  rw [ordinary, nextCounter]
  by_cases low : (write.enable && write.address = counter.lowAddress) = true
  · rw [if_pos low]
    rw [Bool.and_eq_true, decide_eq_true_eq] at low
    have data :=
      back ((csr.counters counter).extractLsb' 0 32) (by rw [low.2]; cases counter <;> rfl)
    rw [still (.inl low.2), if_neg Bool.false_ne_true, data, counter_halves]
  · rw [if_neg low]
    by_cases high : (write.enable && write.address = counter.highAddress) = true
    · rw [if_pos high]
      rw [Bool.and_eq_true, decide_eq_true_eq] at high
      have data :=
        back ((csr.counters counter).extractLsb' 32 32) (by rw [high.2]; cases counter <;> rfl)
      rw [still (.inr high.2), if_neg Bool.false_ne_true, data, counter_halves]
    · rw [if_neg high]
      rfl

/-- One edge with the write is one edge without it. -/
theorem step_back {address : CsrAddr} {trap : TrapAction} {event : Counter → Bool}
    (back : csr.WritesBack write)
    (still : ∀ counter, write.address = counter.lowAddress ∨ write.address = counter.highAddress →
      csr.counts event counter = false)
    (masked : csr.mcountinhibit &&& 0x000003fd#32 = csr.mcountinhibit) :
    csr.step address (disabled write) trap event = csr.step address write trap event := by
  have inhibit : (if write.enable && write.address = CSRRegister.MCOUNTINHIBIT then
      write.data &&& 0x000003fd#32
      else csr.mcountinhibit) = csr.mcountinhibit := by
    by_cases addressed : (write.enable && write.address = CSRRegister.MCOUNTINHIBIT) = true
    · rw [if_pos addressed]
      rw [Bool.and_eq_true, decide_eq_true_eq] at addressed
      rw [back csr.mcountinhibit (by rw [addressed.2]; rfl), masked]
    · rw [if_neg addressed]
  have counters : csr.nextCounter write event = csr.nextCounter (disabled write) event :=
    funext fun counter => nextCounter_back back (still counter)
  simp only [step, counters, inhibit, bypass_back back
    (show csr.stored CSRRegister.MSTATUS = _ from rfl), bypass_back back
      (show csr.stored CSRRegister.MEPC = _ from rfl),
    bypass_back back (show csr.stored CSRRegister.MCAUSE = _ from rfl),
    bypass_back back (show csr.stored CSRRegister.MTVEC = _ from rfl),
    bypass_back back (show csr.stored CSRRegister.MSCRATCH = _ from rfl),
    bypass_back back (show csr.stored CSRRegister.MIE = _ from rfl)]
  rfl

end WriteBack

end CSR

namespace PipelinedCPU

/-! ## The core without the write of a `csrr` -/

/-- The CSR write enable of EX is low. -/
def unwritten (cpu : PipelinedCPU) : PipelinedCPU :=
  { cpu with id2ex := { cpu.id2ex with csrWriteEnable := false } }

/-- A `csrr` in EX does not write. -/
def silenced (cpu : PipelinedCPU) : PipelinedCPU :=
  if isCsrr cpu.id2ex.instruction then cpu.unwritten else cpu

/-- One clock edge of the core in which a `csrr` does not write. -/
def stepSilenced (cpu : PipelinedCPU) (io : Inputs) : PipelinedCPU := step (silenced cpu) io

/-- The core in which a `csrr` does not write, after `n` clock edges. -/
def silencedAt (contents : PowerUp) (inputs : ℕ → Inputs) : ℕ → PipelinedCPU :=
  Clocked.stateAt stepSilenced (powerUp contents) inputs

/-- The CSR file is the one that there would be if no `csrr` had written. -/
def ReadsChangeNothing (contents : PowerUp) (inputs : ℕ → Inputs) : Prop :=
  ∀ n, (stateAt contents inputs n).csrRegs = (silencedAt contents inputs n).csrRegs

/-- A `csrr` in EX carries the word that is still in the CSR, and the CSR is not a counter that
    counts in this cycle. -/
structure CarriesCurrent (cpu : PipelinedCPU) (io : Inputs) : Prop where
  current : ∀ word, cpu.csrRegs.stored cpu.id2ex.csrAddress = some word →
    cpu.id2ex.csrReadData = word
  still : ∀ counter : Counter, cpu.id2ex.csrAddress = counter.lowAddress ∨
    cpu.id2ex.csrAddress = counter.highAddress →
    cpu.csrRegs.counts (counterEvent cpu io) counter = false

section Wires

variable {cpu : PipelinedCPU} {io : Inputs}

/-! ### What depends on the write -/

theorem trap_unwritten (same : trapView cpu.unwritten io = trapView cpu io) :
    trap cpu.unwritten io = trap cpu io := by
  rw [trap, same]
  rfl

theorem actualTaken_unwritten (same : trapView cpu.unwritten io = trapView cpu io) :
    actualTaken cpu.unwritten io = actualTaken cpu io := by
  rw [actualTaken, interruptAssert, trap_unwritten same]
  rfl

theorem actualTarget_unwritten (same : trapView cpu.unwritten io = trapView cpu io) :
    actualTarget cpu.unwritten io = actualTarget cpu io := by
  rw [actualTarget, interruptAssert, trap_unwritten same]
  rfl

theorem btbMispredictRaw_unwritten (same : trapView cpu.unwritten io = trapView cpu io) :
    btbMispredictRaw cpu.unwritten io = btbMispredictRaw cpu io := by
  rw [btbMispredictRaw, btbWrongDirection, btbWrongTarget, actualTaken_unwritten same,
    actualTarget_unwritten same]
  rfl

theorem btbCorrectionAddrRaw_unwritten (same : trapView cpu.unwritten io = trapView cpu io) :
    btbCorrectionAddrRaw cpu.unwritten io = btbCorrectionAddrRaw cpu io := by
  rw [btbCorrectionAddrRaw, btbWrongTarget, actualTaken_unwritten same, actualTarget_unwritten same]
  rfl

theorem mispredicted_unwritten (same : trapView cpu.unwritten io = trapView cpu io) :
    mispredicted cpu.unwritten io = mispredicted cpu io := by
  rw [mispredicted, btbMispredict, btbMispredictRaw_unwritten same, rasWrongTarget, ibtbWrongTarget,
    actualTarget_unwritten same]
  rfl

theorem needIfFlush_unwritten (same : trapView cpu.unwritten io = trapView cpu io) :
    needIfFlush cpu.unwritten io = needIfFlush cpu io := by
  rw [needIfFlush, predictionCorrect, btbCorrectPrediction, rasCorrectPredict, ibtbCorrectPredict,
    actualTaken_unwritten same, actualTarget_unwritten same, mispredicted_unwritten same]
  rfl

theorem fetchInputs_unwritten (same : trapView cpu.unwritten io = trapView cpu io) :
    fetchInputs cpu.unwritten io = fetchInputs cpu io := by
  rw [fetchInputs, btbMispredict, btbCorrectionAddr, btbCorrectPrediction,
    actualTaken_unwritten same, actualTarget_unwritten same, btbMispredictRaw_unwritten same,
    btbCorrectionAddrRaw_unwritten same]
  rfl

theorem counterEvent_unwritten (same : trapView cpu.unwritten io = trapView cpu io) :
    counterEvent cpu.unwritten io = counterEvent cpu io := by
  funext counter
  have flush : controlFlushEvent cpu.unwritten io = controlFlushEvent cpu io := by
    rw [controlFlushEvent, needIfFlush_unwritten same, mispredicted_unwritten same]
    rfl
  cases counter with
  | mhpmcounter3 =>
    rw [counterEvent, mispredicted_unwritten same]
    rfl
  | mhpmcounter4 =>
    rw [counterEvent, flush]
    rfl
  | mhpmcounter6 => exact flush
  | mhpmcounter7 =>
    rw [counterEvent, btbMissPenalty, btbWrongTarget, actualTaken_unwritten same,
      actualTarget_unwritten same]
    rfl
  | mcycle | minstret | mhpmcounter5 | mhpmcounter8 | mhpmcounter9 => rfl

theorem step_unwritten (same : trapView cpu.unwritten io = trapView cpu io)
    (back : cpu.csrRegs.step (csrAddressId cpu) (csrWrite cpu.unwritten io) (trap cpu io)
      (counterEvent cpu io) =
      cpu.csrRegs.step (csrAddressId cpu) (csrWrite cpu io) (trap cpu io) (counterEvent cpu io)) :
    step cpu.unwritten io =
      { step cpu io with
        id2ex := pipelineRegister ID2EX.bubble (memStall cpu io)
          (id2exFlush cpu io) (id2exInput cpu io)
          cpu.unwritten.id2ex } := by
  have pending : nextBtbMispredictPending cpu.unwritten io = nextBtbMispredictPending cpu io := by
    rw [nextBtbMispredictPending, btbMispredictRaw_unwritten same]
    rfl
  have address : nextBtbCorrectionAddrPending cpu.unwritten io =
      nextBtbCorrectionAddrPending cpu io := by
    rw [nextBtbCorrectionAddrPending, btbMispredictRaw_unwritten same,
      btbCorrectionAddrRaw_unwritten same]
    rfl
  have fetched : if2idInput cpu.unwritten.instFetch.predict cpu.unwritten io =
      if2idInput cpu.instFetch.predict cpu io := by
    rw [if2idInput, fetchInputs_unwritten same]
    rfl
  have registers : cpu.unwritten.csrRegs.step
      (InstructionDecode.exCsrAddress cpu.unwritten.if2id.instruction)
      (csrWrite cpu.unwritten io) (trap cpu io) (counterEvent cpu io) =
        (step cpu io).csrRegs := back
  have flush : if2idFlush cpu.unwritten io = if2idFlush cpu io := by
    rw [if2idFlush, needIfFlush_unwritten same]
    rfl
  rw [step, stepWith, fetched, fetchInputs_unwritten same, trap_unwritten same,
    counterEvent_unwritten same, pending, address, flush, registers]
  rfl

end Wires

/-! ## What a `csrr` carries -/

/-- A `csrr` in EX reads no register, and the reserved bits of `mcountinhibit` are zero. -/
structure CsrrReads (cpu : PipelinedCPU) : Prop where
  source : isCsrr cpu.id2ex.instruction = true → cpu.id2ex.regsReg1ReadAddress = 0#5 ∧
    cpu.id2ex.reg1Data = 0#32
  masked : cpu.csrRegs.mcountinhibit &&& 0x000003fd#32 = cpu.csrRegs.mcountinhibit

section Reads

variable {cpu : PipelinedCPU} {io : Inputs}

theorem forwarding_zero : forwarding cpu 0#5 = .noForward := by
  rw [forwarding, Forwarding.select, if_neg fun forwarded => forwarded.2.2 forwarded.2.1.symm,
    if_neg fun forwarded => forwarded.2.2 forwarded.2.1.symm]

theorem csrrReads_step (reads : CsrrReads cpu) (io : Inputs) : CsrrReads (step cpu io) := by
  constructor
  · intro csrr
    have bubble : isCsrr ID2EX.bubble.instruction = false := by decide
    simp only [step, stepWith, pipelineRegister] at csrr ⊢
    cases flushed : id2exFlush cpu io with
    | true =>
      rw [flushed, if_pos rfl, bubble] at csrr
      cases csrr
    | false =>
      rw [flushed, if_neg Bool.false_ne_true] at csrr
      rw [if_neg Bool.false_ne_true]
      cases stalled : memStall cpu io with
      | true =>
        rw [stalled, Bool.not_true, if_neg Bool.false_ne_true] at csrr
        rw [Bool.not_true, if_neg Bool.false_ne_true]
        exact reads.source csrr
      | false =>
        -- a `csrr` that enters EX reads `x0`, whose forwarded value is zero
        rw [stalled, Bool.not_false, if_pos rfl] at csrr
        rw [Bool.not_false, if_pos rfl]
        have zero : rs1Id cpu = 0#5 := by
          simp only [id2exInput, isCsrr, Bool.and_eq_true] at csrr
          have source := of_decide_eq_true csrr.2
          rw [rs1Id, InstructionDecode.regsReg1ReadAddress, source, ite_self]
        refine ⟨zero, ?_⟩
        simp only [id2exInput, zero, idRegDataForwarded, forwarding_zero,
          Forwarding.mux, regsReadData, RegisterFile.readData, if_true]
  · simp only [step, stepWith, CSR.step]
    split
    · rw [BitVec.and_assoc, BitVec.and_self]
    · exact reads.masked

/-- A `csrr` in EX writes the word that it carries. -/
theorem csrWrite_csrr (reads : CsrrReads cpu) (csrr : isCsrr cpu.id2ex.instruction = true) :
    (csrWrite cpu io).data = cpu.id2ex.csrReadData := by
  obtain ⟨address, data⟩ := reads.source csrr
  have operand : exReg1Data cpu io = 0#32 := by
    rw [exReg1Data, address, forwarding_zero, data]
    rfl
  simp only [isCsrr, Bool.and_eq_true, Bool.or_eq_true, decide_eq_true_eq] at csrr
  obtain ⟨⟨_, op⟩, source⟩ := csrr
  have immediate : Execute.uimm cpu.id2ex.instruction = 0#32 :=
    congrArg (BitVec.zeroExtend 32) source
  have cleared : ∀ word : Word, word &&& ~~~0#32 = word := fun word => BitVec.and_allOnes
  have set : ∀ word : Word, word ||| 0#32 = word := fun word => BitVec.or_zero
  simp only [csrWrite, Execute.csrWriteData, operand, immediate]
  obtain ((csrrs | csrrc) | csrrsi) | csrrci := op
  · rw [csrrs, if_neg (by decide), if_neg (by decide), if_pos rfl, set]
  · rw [csrrc, if_neg (by decide), if_pos rfl, cleared]
  · rw [csrrsi, if_neg (by decide), if_neg (by decide), if_neg (by decide),
      if_neg (by decide), if_neg (by decide), if_pos rfl, set]
  · rw [csrrci, if_neg (by decide), if_neg (by decide), if_neg (by decide),
      if_neg (by decide), if_pos rfl, cleared]

end Reads

/-! ## The run -/

section Silenced

variable {cpu : PipelinedCPU} {io : Inputs}

@[simp] theorem csrRegs_silenced : (silenced cpu).csrRegs = cpu.csrRegs := by
  rw [silenced]
  split <;> rfl

theorem silenced_csrr (csrr : isCsrr cpu.id2ex.instruction = true) : silenced cpu = cpu.unwritten :=
  if_pos csrr

theorem silenced_other (other : isCsrr cpu.id2ex.instruction = false) : silenced cpu = cpu := by
  rw [silenced, other, if_neg Bool.false_ne_true]

/-- One cycle: up to the write enable of a `csrr` in EX, the core without the write goes where the
    core goes. -/
theorem silenced_step (reads : CsrrReads cpu)
    (carries : isCsrr cpu.id2ex.instruction = true → CarriesCurrent cpu io) :
    (stepSilenced cpu io).csrRegs = (step cpu io).csrRegs ∧
      silenced (stepSilenced cpu io) = silenced (step cpu io) := by
  cases csrr : isCsrr cpu.id2ex.instruction with
  | false => rw [stepSilenced, silenced_other csrr]; exact ⟨rfl, rfl⟩
  | true =>
    obtain ⟨current, still⟩ := carries csrr
    have back : cpu.csrRegs.WritesBack (csrWrite cpu io) := fun word stored =>
      (csrWrite_csrr reads csrr).trans (current word stored)
    have write : csrWrite cpu.unwritten io = CSR.disabled (csrWrite cpu io) := rfl
    have view : trapView cpu.unwritten io = trapView cpu io := by
      rw [trapView, write]
      exact CSR.clintAccessBundle_back back
    have edge := step_unwritten view (by rw [write]; exact CSR.step_back back still reads.masked)
    rw [stepSilenced, silenced_csrr csrr, edge]
    refine ⟨rfl, ?_⟩
    -- only a `csrr` that stays in EX has another write enable
    have held : (step cpu io).id2ex =
        pipelineRegister ID2EX.bubble (memStall cpu io) (id2exFlush cpu io)
          (id2exInput cpu io) cpu.id2ex := rfl
    cases flushed : id2exFlush cpu io with
    | true =>
      rw [flushed, pipelineRegister_flush] at held
      rw [pipelineRegister_flush, ← held]
    | false =>
      cases stalled : memStall cpu io with
      | false =>
        rw [flushed, stalled, pipelineRegister_capture] at held
        rw [pipelineRegister_capture, ← held]
      | true =>
        rw [flushed, stalled, pipelineRegister_stall] at held
        rw [pipelineRegister_stall, silenced_csrr
          (show isCsrr (step cpu io).id2ex.instruction = true by
          rw [held]; exact csrr)]
        rw [silenced, if_pos (show isCsrr cpu.unwritten.id2ex.instruction = true from csrr),
          unwritten, unwritten, unwritten, held]

end Silenced

variable {contents : PowerUp} {inputs : ℕ → Inputs}

theorem csrrReads_always (n : ℕ) : CsrrReads (stateAt contents inputs n) := by
  have start : CsrrReads (powerUp contents) :=
    ⟨fun csrr => absurd csrr Bool.false_ne_true, BitVec.zero_and⟩
  exact Clocked.invariant_always start (fun _ io reads => csrrReads_step reads io) n

/-- Up to the write enable of a `csrr` in EX, the two runs are one. -/
theorem silencedAt_eq
    (carries : ∀ n, isCsrr (stateAt contents inputs n).id2ex.instruction = true →
      CarriesCurrent (stateAt contents inputs n) (inputs n)) (n : ℕ) :
    silenced (silencedAt contents inputs n) = silenced (stateAt contents inputs n) := by
  induction n with
  | zero => rfl
  | succ n inductionHypothesis =>
    have next : silencedAt contents inputs (n + 1) =
        stepSilenced (stateAt contents inputs n) (inputs n) := by
      rw [stepSilenced, ← inductionHypothesis]
      rfl
    rw [next, stateAt_succ]
    exact (silenced_step (csrrReads_always n) (carries n)).2

/-- As long as every `csrr` in EX carries the word that is in the CSR, and the CSR does not count
    meanwhile, pure reads change nothing. -/
theorem reads_change_nothing (contents : PowerUp) (inputs : ℕ → Inputs)
    (carries : ∀ n, isCsrr (stateAt contents inputs n).id2ex.instruction = true →
      CarriesCurrent (stateAt contents inputs n) (inputs n)) :
      ReadsChangeNothing contents inputs := by
  intro n
  have same := congrArg PipelinedCPU.csrRegs (silencedAt_eq carries n)
  rw [csrRegs_silenced, csrRegs_silenced] at same
  exact same.symm

/-! ## Behind the last `csrr` -/

/-- Where no `csrr` is fetched, in ID or in EX, none gets there. -/
theorem csrr_leaves {cpu : PipelinedCPU} {io : Inputs} (fetched : isCsrr io.instruction = false)
    (inId : isCsrr cpu.if2id.instruction = false) (inEx : isCsrr cpu.id2ex.instruction = false) :
    isCsrr (step cpu io).if2id.instruction = false ∧
      isCsrr (step cpu io).id2ex.instruction = false := by
  have nop : isCsrr InstructionsNop.nop = false := by decide
  have idEdge : (step cpu io).if2id =
      pipelineRegister IF2ID.bubble (if2idStall cpu io) (if2idFlush cpu io)
      (if2idInput cpu.instFetch.predict cpu io) cpu.if2id := rfl
  have exEdge : (step cpu io).id2ex =
      pipelineRegister ID2EX.bubble (memStall cpu io) (id2exFlush cpu io)
        (id2exInput cpu io) cpu.id2ex := rfl
  rw [idEdge, exEdge]
  constructor
  · cases if2idFlush cpu io with
    | true => exact nop
    | false =>
      cases if2idStall cpu io with
      | true => exact inId
      | false =>
        rw [pipelineRegister_capture, if2idInput, InstructionFetch.idInstruction]
        split
        · exact fetched
        · exact nop
  · cases id2exFlush cpu io with
    | true => exact nop
    | false =>
      cases memStall cpu io with
      | true => exact inEx
      | false => exact inId

/-- Once no `csrr` is fetched, in ID or in EX, none is in EX any more. -/
theorem csrr_gone {last : ℕ} (fetched : ∀ n, last ≤ n → isCsrr (inputs n).instruction = false)
    (inId : isCsrr (stateAt contents inputs last).if2id.instruction = false)
    (inEx : isCsrr (stateAt contents inputs last).id2ex.instruction = false)
    {n : ℕ} (after : last ≤ n) :
    isCsrr (stateAt contents inputs n).id2ex.instruction = false := by
  suffices both : isCsrr (stateAt contents inputs n).if2id.instruction = false ∧
      isCsrr (stateAt contents inputs n).id2ex.instruction = false from both.2
  induction n, after using Nat.le_induction with
  | base => exact ⟨inId, inEx⟩
  | succ n after inductionHypothesis =>
    rw [stateAt_succ]
    exact csrr_leaves (fetched n after) inductionHypothesis.1 inductionHypothesis.2

/-! ## Two runs -/

/-- `csrrsi x0, mcountinhibit, 1`, `nop` and `csrrs x1, mcycle, x0`. -/
def inhibitedRead : ℕ → Inputs := .script [0x3200e073#32, 0x00000013#32, 0xb00020f3#32]

theorem inhibitedRead_carries :
    CarriesCurrent (stateAt .zero inhibitedRead 4) (inhibitedRead 4) := by
  constructor
  · intro word stored
    have kept : (stateAt .zero inhibitedRead 4).csrRegs.stored
        (stateAt .zero inhibitedRead 4).id2ex.csrAddress =
        some (stateAt .zero inhibitedRead 4).id2ex.csrReadData := by decide +kernel
    exact Option.some.inj (kept.symm.trans stored)
  · have only : ∀ counter ∈ Counter.all,
        (stateAt .zero inhibitedRead 4).id2ex.csrAddress = counter.lowAddress ∨
            (stateAt .zero inhibitedRead 4).id2ex.csrAddress = counter.highAddress →
          counter = .mcycle := by decide +kernel
    intro counter addressed
    obtain rfl := only counter (by cases counter <;> decide) addressed
    decide +kernel

/-- `mcycle` is inhibited before it is read. -/
theorem inhibitedRead_changes_nothing :
    isCsrr (stateAt .zero inhibitedRead 4).id2ex.instruction = true ∧
      ReadsChangeNothing .zero inhibitedRead := by
  refine ⟨by decide +kernel, reads_change_nothing .zero inhibitedRead fun n csrr => ?_⟩
  by_cases early : n < 5
  · have only : ∀ k < 5, isCsrr (stateAt .zero inhibitedRead k).id2ex.instruction = true →
        k = 4 := by
      decide +kernel
    obtain rfl := only n early csrr
    exact inhibitedRead_carries
  · have fetched : ∀ k, 5 ≤ k → isCsrr (inhibitedRead k).instruction = false := fun k after => by
      have word : (inhibitedRead k).instruction = InstructionsNop.nop := by
        obtain ⟨rest, rfl⟩ := Nat.exists_eq_add_of_le after
        rw [Nat.add_comm]
        rfl
      rw [word]
      decide
    have gone : isCsrr (stateAt .zero inhibitedRead n).id2ex.instruction = false :=
      csrr_gone fetched (by decide +kernel) (by decide +kernel) (Nat.le_of_not_lt early)
    rw [gone] at csrr
    cases csrr

/-- `csrrs x1, mcycle, x0`. -/
def countingRead : ℕ → Inputs := .script [0xb00020f3#32]

/-- The read in EX puts `mcycle` back to the word of the cycle before. -/
theorem countingRead_loses :
    ¬ ReadsChangeNothing .zero countingRead ∧
      (stateAt .zero countingRead 3).csrRegs.counters .mcycle = 1#64 ∧
      (silencedAt .zero countingRead 3).csrRegs.counters .mcycle = 3#64 := by
  have written : (stateAt .zero countingRead 3).csrRegs.counters .mcycle = 1#64 := by decide +kernel
  have counted : (silencedAt .zero countingRead 3).csrRegs.counters .mcycle =
      3#64 := by decide +kernel
  refine ⟨fun nothing => ?_, written, counted⟩
  have same : (stateAt .zero countingRead 3).csrRegs.counters .mcycle =
      (silencedAt .zero countingRead 3).csrRegs.counters .mcycle := by rw [nothing 3]
  rw [written, counted] at same
  exact absurd same (by decide)

end PipelinedCPU

end MyCpu
