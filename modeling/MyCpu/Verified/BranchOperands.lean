import MyCpu.Verified.Bypass

/-! # The operands of branches and jumps

ID resolves a branch or jump as soon as `branch_hazard` is low, with operands of its own bypass
network.  An observer of the run keeps what the instructions before the one in ID leave in the
registers, and the operands are compared with that.

A hazard that holds ID without flushing ID/EX lets a copy of the held instruction into EX.  The
copies of a `jalr` that links into its own base register write that register, and the held `jalr`
then jumps relative to its own link.  A flush of ID/EX that drops the instruction itself leaves the
later instructions with the register as it was. -/

namespace MyCpu.PipelinedCPU

open InstructionDecode (exRegWriteEnable exRegWriteAddress)

/-! ## The instructions ahead of ID -/

/-- What the place of a stage behind ID is to the instruction in ID: an instruction before it, the
    instruction itself, or an instruction before it that has been dropped on the way to its register
    `rd`. -/
inductive Place where
  | older
  | copy
  | dropped (rd : RegAddr)
deriving DecidableEq, Repr

/-- The instruction writes a register other than `x0`. -/
def writesRegister (enabled : Bool) (target : RegAddr) : Bool := enabled && target ≠ 0#5

/-- The registers with what the instructions ahead of ID write; `none` for a value that is not
    there. -/
abbrev Expected := RegAddr → Option Word

namespace Place

/-- The registers after the stage, in program order before ID. -/
def apply (place : Place) (enabled : Bool) (target : RegAddr) (value : Option Word)
    (regs : Expected) : Expected :=
  fun rs => match place with
    | .older => if enabled = true ∧ rs = target then value else regs rs
    | .copy => regs rs
    | .dropped rd => if rs = rd then none else regs rs

/-- The instruction in ID leaves, so that its copies are before the next one. -/
def release : Place → Place
  | .copy => .older
  | place => place

/-- The stage is flushed while its instruction waits there. -/
def drop (place : Place) (enabled : Bool) (target : RegAddr) : Place :=
  match place with
  | .older => if writesRegister enabled target then .dropped target else .older
  | .copy => .older
  | .dropped rd => .dropped rd

end Place

/-- What the observer remembers. -/
structure Ahead where
  ex : Place
  mem : Place
  wb : Place
  /-- The registers as the instructions behind WB have left them. -/
  written : Expected
  /-- The registers as they would be without the copies of the instruction in ID. -/
  older : Expected
  /-- A copy of the instruction in ID has been let into EX. -/
  issued : Bool

namespace Ahead

variable (ahead : Ahead) (cpu : PipelinedCPU) (io : Inputs)

/-- The place of ID/EX after the edge, as long as the instruction in ID stays. -/
def nextEx : Place :=
  if id2exFlush cpu io then
    if memStall cpu io then ahead.ex.drop cpu.id2ex.regsWriteEnable cpu.id2ex.regsWriteAddress
    else if holdsId cpu io || ahead.issued then .older
    else Place.drop .older (exRegWriteEnable cpu.if2id.instruction)
      (exRegWriteAddress cpu.if2id.instruction)
  else if memStall cpu io then ahead.ex
  else .copy

def nextMem : Place := if memStall cpu io then ahead.mem else ahead.ex

def nextWb : Place := if memStall cpu io then ahead.wb else ahead.mem

def afterWb (place : Place) (regs : Expected) : Expected :=
  place.apply cpu.mem2wb.regsWriteEnable cpu.mem2wb.regsWriteAddress (some (regsWriteData cpu)) regs

def next : Ahead :=
  if holdsId cpu io then
    { ex := nextEx ahead cpu io
      mem := nextMem ahead cpu io
      wb := nextWb ahead cpu io
      written := afterWb cpu ahead.wb.release ahead.written
      older := afterWb cpu ahead.wb ahead.older
      issued := ahead.issued || issuesId cpu io }
  else
    { ex := (nextEx ahead cpu io).release
      mem := (nextMem ahead cpu io).release
      wb := (nextWb ahead cpu io).release
      written := afterWb cpu ahead.wb.release ahead.written
      older := afterWb cpu ahead.wb.release ahead.written
      issued := false }

/-- What the instruction in MEM brings, in the case of a load once the bus has answered. -/
def memValue : Option Word :=
  if cpu.ex2mem.memoryReadEnable && !MemoryAccess.readCompletes cpu.mem io.bus then none
    else some (produced cpu io)

def afterMem : Expected :=
  ahead.mem.apply cpu.ex2mem.regsWriteEnable cpu.ex2mem.regsWriteAddress (memValue cpu io)
    (afterWb cpu ahead.wb ahead.older)

/-- The register that the instructions before the one in ID leave.  The result of EX is not there
    yet. -/
def register (rs : RegAddr) : Option Word :=
  if rs = 0#5 then some 0#32
  else ahead.ex.apply cpu.id2ex.regsWriteEnable cpu.id2ex.regsWriteAddress none
    (afterMem ahead cpu io) rs

def start (contents : PowerUp) : Ahead where
  ex := .older
  mem := .older
  wb := .older
  written := fun rs => some (contents.regs rs)
  older := fun rs => some (contents.regs rs)
  issued := false

end Ahead

def aheadAt (contents : PowerUp) (inputs : ℕ → Inputs) : ℕ → Ahead :=
  Clocked.observedAt step Ahead.next (powerUp contents) (Ahead.start contents) inputs

/-! ## The condition on a cycle -/

/-- A `jalr` that links into its own base register. -/
def linksBase (instruction : Word) : Bool :=
  InstructionFetch.isJalr instruction && InstructionDecode.rd instruction =
    InstructionDecode.rs1 instruction &&
    InstructionDecode.rd instruction ≠ 0#5

structure KeepsOrder (cpu : PipelinedCPU) (io : Inputs) : Prop where
  /-- No copy of a `jalr` that links into its own base is let into EX. -/
  linking : linksBase cpu.if2id.instruction = true → holdsId cpu io = true → issuesId cpu io = false
  /-- EX is not flushed while its instruction waits there for MEM. -/
  executing : memStall cpu io = true → id2exFlush cpu io = true →
    writesRegister cpu.id2ex.regsWriteEnable cpu.id2ex.regsWriteAddress = false
  /-- The instruction that leaves ID is not flushed out of the pipeline. -/
  decoded : holdsId cpu io = false → id2exFlush cpu io = true →
    writesRegister (exRegWriteEnable cpu.if2id.instruction)
      (exRegWriteAddress cpu.if2id.instruction) = false

instance (cpu : PipelinedCPU) (io : Inputs) : Decidable (KeepsOrder cpu io) :=
  decidable_of_iff
    ((linksBase cpu.if2id.instruction = true → holdsId cpu io = true → issuesId cpu io = false) ∧
      (memStall cpu io = true → id2exFlush cpu io = true →
        writesRegister cpu.id2ex.regsWriteEnable cpu.id2ex.regsWriteAddress = false) ∧
      (holdsId cpu io = false → id2exFlush cpu io = true →
      writesRegister (exRegWriteEnable cpu.if2id.instruction)
        (exRegWriteAddress cpu.if2id.instruction) = false))
    ⟨fun ⟨linking, executing, decoded⟩ => ⟨linking, executing, decoded⟩,
      fun keeps => ⟨keeps.linking, keeps.executing, keeps.decoded⟩⟩

/-! ## Copies -/

/-- The copies of the instruction leave the register alone. -/
def Spares (instruction : Word) (rs : RegAddr) : Prop :=
  linksBase instruction = true ∨
    ¬ (exRegWriteEnable instruction = true ∧ rs = exRegWriteAddress instruction)

section Operands

variable {instruction : Word}

theorem ctrlJumpInstruction_cases
    (transfer : InstructionDecode.ctrlJumpInstruction instruction = true) :
    InstructionDecode.opcode instruction = Instructions.jal ∨
      InstructionDecode.opcode instruction = Instructions.jalr ∨
        InstructionDecode.opcode instruction = InstructionTypes.B := by
  simpa [InstructionDecode.ctrlJumpInstruction, or_assoc] using transfer

theorem spares_branch (code : InstructionDecode.opcode instruction = InstructionTypes.B)
    (rs : RegAddr) :
    Spares instruction rs := by
  have noWrite : exRegWriteEnable instruction = false := by
    rw [exRegWriteEnable, code]
    rfl
  exact Or.inr fun writes => Bool.noConfusion (noWrite.symm.trans writes.1)

/-- A branch or jump reads no register that its copies write, unless it is a `jalr` that links into
    its own base. -/
theorem spares_rs1 (transfer : InstructionDecode.ctrlJumpInstruction instruction = true)
    (nonzero : InstructionDecode.regsReg1ReadAddress instruction ≠ 0#5) :
    Spares instruction (InstructionDecode.regsReg1ReadAddress instruction) := by
  obtain code | code | code := ctrlJumpInstruction_cases transfer
  · have unused : InstructionDecode.usesRs1 instruction = false := by
      rw [InstructionDecode.usesRs1, code]
      rfl
    exact absurd (InstructionDecode.reg1_unused unused) nonzero
  · have used : InstructionDecode.usesRs1 instruction = true := by
      rw [InstructionDecode.usesRs1, code]
      rfl
    have jalr : InstructionFetch.isJalr instruction = true := decide_eq_true code
    rw [InstructionDecode.regsReg1ReadAddress, used, if_pos rfl] at nonzero ⊢
    by_cases same : InstructionDecode.rd instruction = InstructionDecode.rs1 instruction
    · refine Or.inl ?_
      rw [← same] at nonzero
      simp [linksBase, jalr, same, same ▸ nonzero]
    · exact Or.inr fun writes => same writes.2.symm
  · exact spares_branch code _

theorem spares_rs2 (transfer : InstructionDecode.ctrlJumpInstruction instruction = true)
    (nonzero : InstructionDecode.regsReg2ReadAddress instruction ≠ 0#5) :
    Spares instruction (InstructionDecode.regsReg2ReadAddress instruction) := by
  have jumpReads : ∀ code, InstructionDecode.opcode instruction = code → code ≠ InstructionTypes.B →
      code = Instructions.jal ∨ code = Instructions.jalr →
      InstructionDecode.usesRs2 instruction = false := by
    rintro _ code - (rfl | rfl) <;>
    · rw [InstructionDecode.usesRs2, code]
      rfl
  obtain code | code | code := ctrlJumpInstruction_cases transfer
  · exact absurd (InstructionDecode.reg2_unused (jumpReads _ code (by decide) (Or.inl rfl))) nonzero
  · exact absurd (InstructionDecode.reg2_unused (jumpReads _ code (by decide) (Or.inr rfl))) nonzero
  · exact spares_branch code _

end Operands

/-- What a stage holds, by its place. -/
def Follows (place : Place) (instruction : Word) (enabled : Bool) (target : RegAddr) : Prop :=
  match place with
  | .older => True
  | .copy => linksBase instruction = false ∧ enabled = exRegWriteEnable instruction ∧
      target = exRegWriteAddress instruction
  | .dropped _ => False

namespace Follows

variable {place : Place} {instruction : Word} {enabled : Bool} {target rs : RegAddr}

theorem apply (follows : Follows place instruction enabled target) (spares : Spares instruction rs)
    (value : Option Word) (regs : Expected) :
    place.apply enabled target value regs rs = if enabled = true ∧ rs = target then
      value else regs rs := by
  cases place with
  | older => rfl
  | copy =>
    obtain ⟨notLinking, rfl, rfl⟩ := follows
    have unwritten := spares.resolve_left (by simp [notLinking])
    rw [if_neg unwritten]
    rfl
  | dropped rd => exact follows.elim

theorem apply_release (follows : Follows place instruction enabled target)
    (value : Option Word) (regs : Expected) :
    place.release.apply enabled target value regs rs = if enabled = true ∧ rs = target then
      value else regs rs := by
  cases place with
  | older | copy => rfl
  | dropped rd => exact follows.elim

theorem present (follows : Follows place instruction enabled target) (rd : RegAddr) :
    place ≠ .dropped rd := by
  rintro rfl
  exact follows

theorem released (present : ∀ rd, place ≠ .dropped rd) :
    Follows place.release instruction enabled target := by
  cases place with
  | older | copy => trivial
  | dropped rd => exact absurd rfl (present rd)

end Follows

theorem drop_spared {place : Place} {enabled : Bool} {target : RegAddr}
    (present : ∀ rd, place ≠ .dropped rd)
    (spared : writesRegister enabled target = false) : place.drop enabled target = .older := by
  cases place with
  | older => rw [Place.drop, spared, if_neg Bool.false_ne_true]
  | copy => rfl
  | dropped rd => exact absurd rfl (present rd)

/-! ## What the observer knows -/

/-- In a run that keeps the order the observer knows the registers. -/
structure Tracked (cpu : PipelinedCPU) (ahead : Ahead) : Prop where
  bypassed : Bypassed cpu
  ex : Follows ahead.ex cpu.if2id.instruction cpu.id2ex.regsWriteEnable cpu.id2ex.regsWriteAddress
  mem : Follows ahead.mem cpu.if2id.instruction cpu.ex2mem.regsWriteEnable cpu.ex2mem.regsWriteAddress
  wb : Follows ahead.wb cpu.if2id.instruction cpu.mem2wb.regsWriteEnable cpu.mem2wb.regsWriteAddress
  written : ∀ rs, rs ≠ 0#5 → ahead.written rs = some (cpu.regs.get rs)
  older : ∀ rs, rs ≠ 0#5 → Spares cpu.if2id.instruction rs → ahead.older rs = some (cpu.regs.get rs)

theorem some_get_write {rs : RegAddr} (nonzero : rs ≠ 0#5) (regs : RegisterFile)
    (enabled : Bool) (target : RegAddr)
    (data : Word) : some ((RegisterFile.write regs enabled target data).get rs) =
      if enabled = true ∧ rs = target then some data else some (regs.get rs) := by
  rw [RegisterFile.get_write]
  simp only [nonzero, ne_eq, not_false_eq_true, and_true]
  exact apply_ite some _ _ _

namespace Tracked

variable {cpu : PipelinedCPU} {ahead : Ahead} {io : Inputs}
    (tracked : Tracked cpu ahead) {rs : RegAddr}
  (nonzero : rs ≠ 0#5)

include tracked nonzero

theorem afterWb_older (spares : Spares cpu.if2id.instruction rs) :
    Ahead.afterWb cpu ahead.wb ahead.older rs = some ((writtenBack cpu).get rs) := by
  rw [Ahead.afterWb, tracked.wb.apply spares, tracked.older rs nonzero spares, writtenBack,
    some_get_write nonzero]

theorem afterWb_written :
    Ahead.afterWb cpu ahead.wb.release ahead.written rs = some ((writtenBack cpu).get rs) := by
  rw [Ahead.afterWb, tracked.wb.apply_release, tracked.written rs nonzero, writtenBack,
    some_get_write nonzero]

/-- Without a writer in EX and without a load of the register in MEM, the register is that after WB
    and MEM. -/
theorem register_drained (spares : Spares cpu.if2id.instruction rs)
    (notEx : rs ≠ cpu.id2ex.regsWriteAddress)
    (notLoad : cpu.ex2mem.memoryReadEnable = true → rs ≠ cpu.ex2mem.regsWriteAddress) :
    ahead.register cpu io rs = some ((drained cpu io).get rs) := by
  rw [Ahead.register, if_neg nonzero, tracked.ex.apply spares,
    if_neg fun writes => notEx writes.2, Ahead.afterMem, tracked.mem.apply spares,
    tracked.afterWb_older nonzero spares, drained, some_get_write nonzero]
  by_cases writes : cpu.ex2mem.regsWriteEnable = true ∧ rs = cpu.ex2mem.regsWriteAddress
  · have noLoad : cpu.ex2mem.memoryReadEnable = false := by
      by_contra load
      exact notLoad (Bool.of_not_eq_false load) writes.2
    rw [if_pos writes, if_pos writes, Ahead.memValue, noLoad, Bool.false_and,
      if_neg Bool.false_ne_true]
  · rw [if_neg writes, if_neg writes]

end Tracked

/-! ## One edge -/

section Step

variable {cpu : PipelinedCPU} {ahead : Ahead} {io : Inputs}

/-- ID/EX is left empty, waits, or takes a copy of the instruction in ID. -/
theorem nextEx_cases (present : ∀ rd, ahead.ex ≠ .dropped rd) (keeps : KeepsOrder cpu io) :
    ahead.nextEx cpu io = .older ∨
      (memStall cpu io = true ∧ ahead.nextEx cpu io = ahead.ex ∧ (step cpu io).id2ex = cpu.id2ex) ∨
        issuesId cpu io = true ∧ ahead.nextEx cpu io = .copy ∧
        (step cpu io).id2ex = id2exInput cpu io := by
  rw [Ahead.nextEx]
  cases flush : id2exFlush cpu io with
  | true =>
    refine Or.inl ?_
    rw [if_pos rfl]
    cases stalled : memStall cpu io with
    | true => exact drop_spared present (keeps.executing stalled flush)
    | false =>
      rw [if_neg Bool.false_ne_true]
      cases holds : holdsId cpu io with
      | true => rfl
      | false =>
        rw [drop_spared (fun rd => Place.noConfusion) (keeps.decoded holds flush)]
        exact ite_self _
  | false =>
    rw [if_neg Bool.false_ne_true]
    cases stalled : memStall cpu io with
    | true =>
      refine Or.inr (Or.inl ⟨rfl, rfl, ?_⟩)
      simp only [step, stepWith, stalled, flush, pipelineRegister_stall]
    | false =>
      refine Or.inr (Or.inr ⟨?_, rfl, ?_⟩)
      · rw [issuesId, stalled, flush]
        rfl
      · simp only [step, stepWith, stalled, flush, pipelineRegister_capture]

theorem follows_nextMem (tracked : Tracked cpu ahead) :
    Follows (ahead.nextMem cpu io) cpu.if2id.instruction (step cpu io).ex2mem.regsWriteEnable
      (step cpu io).ex2mem.regsWriteAddress := by
  rw [Ahead.nextMem]
  cases stalled : memStall cpu io with
  | true =>
    simp only [step, stepWith, stalled, pipelineRegister_stall]
    exact tracked.mem
  | false =>
    simp only [step, stepWith, stalled, pipelineRegister_capture]
    exact tracked.ex

theorem follows_nextWb (tracked : Tracked cpu ahead) :
    Follows (ahead.nextWb cpu io) cpu.if2id.instruction (step cpu io).mem2wb.regsWriteEnable
      (step cpu io).mem2wb.regsWriteAddress := by
  rw [Ahead.nextWb]
  cases stalled : memStall cpu io with
  | true =>
    simp only [step, stepWith, stalled, pipelineRegister_stall]
    exact tracked.wb
  | false =>
    obtain ⟨enable, address, _⟩ := mem2wbInput_produced tracked.bypassed.toAccessing stalled
    simp only [step, stepWith, stalled, pipelineRegister_capture, enable, address]
    exact tracked.mem

theorem tracked_held (tracked : Tracked cpu ahead) (keeps : KeepsOrder cpu io)
    (holds : holdsId cpu io = true) :
    Tracked (step cpu io) (ahead.next cpu io) := by
  have instruction : (step cpu io).if2id = cpu.if2id := if2id_held cpu io holds
  rw [Ahead.next, if_pos holds]
  refine ⟨bypassed_step tracked.bypassed, ?_, ?_, ?_,
    fun rs nonzero => tracked.afterWb_written nonzero, ?_⟩
  all_goals rw [instruction]
  · obtain empty | ⟨_, waits, kept⟩ | ⟨issues, copied, captured⟩ :=
      nextEx_cases tracked.ex.present keeps
    · simp only [empty]
      trivial
    · simp only [waits, kept]
      exact tracked.ex
    · simp only [copied, captured]
      refine ⟨?_, rfl, rfl⟩
      by_contra linking
      exact Bool.noConfusion
        (issues.symm.trans (keeps.linking (Bool.of_not_eq_false linking) holds))
  · exact follows_nextMem tracked
  · exact follows_nextWb tracked
  · exact fun rs nonzero spares => tracked.afterWb_older nonzero spares

theorem tracked_released (tracked : Tracked cpu ahead) (keeps : KeepsOrder cpu io)
    (leaves : holdsId cpu io = false) :
    Tracked (step cpu io) (ahead.next cpu io) := by
  have present : ∀ rd, ahead.nextEx cpu io ≠ .dropped rd := by
    intro rd
    obtain empty | ⟨_, waits, _⟩ | ⟨_, copied, _⟩ := nextEx_cases tracked.ex.present keeps
    · rw [empty]
      exact Place.noConfusion
    · rw [waits]
      exact tracked.ex.present rd
    · rw [copied]
      exact Place.noConfusion
  rw [Ahead.next, if_neg (Bool.not_eq_true _ ▸ leaves)]
  exact ⟨bypassed_step tracked.bypassed, Follows.released present, Follows.released
    (follows_nextMem tracked).present, Follows.released (follows_nextWb tracked).present,
    fun rs nonzero => tracked.afterWb_written nonzero,
    fun rs nonzero _ => tracked.afterWb_written nonzero⟩

theorem tracked_step (tracked : Tracked cpu ahead) (keeps : KeepsOrder cpu io) :
    Tracked (step cpu io) (ahead.next cpu io) := by
  cases holds : holdsId cpu io with
  | true => exact tracked_held tracked keeps holds
  | false => exact tracked_released tracked keeps holds

/-- The operands of a branch or jump that may resolve. -/
theorem operands_tracked (tracked : Tracked cpu ahead) (jump : isBranchOrJump cpu = true)
    (ready : branchHazard cpu = false) :
    ahead.register cpu io (rs1Id cpu) = some (idReg1Data cpu io) ∧
      ahead.register cpu io (rs2Id cpu) = some (idReg2Data cpu io) := by
  have accessing := tracked.bypassed.toAccessing
  obtain ⟨notEx, notLoad⟩ := branchHazard_false ready jump
  have read : ∀ rs, rs = rs1Id cpu ∨ rs = rs2Id cpu → (rs ≠ 0#5 → Spares cpu.if2id.instruction rs) →
      ahead.register cpu io rs = some ((drained cpu io).get rs) := by
    intro rs source spares
    by_cases zero : rs = 0#5
    · rw [Ahead.register, RegisterFile.get, if_pos zero, if_pos zero]
    · exact tracked.register_drained zero (spares zero) (not_names notEx source zero)
        fun load => not_names (notLoad load) source zero
  rw [idReg1Data_drained accessing ready jump, idReg2Data_drained accessing ready jump]
  exact ⟨read _ (Or.inl rfl) (spares_rs1 jump), read _ (Or.inr rfl) (spares_rs2 jump)⟩

end Step

/-! ## The run -/

section Run

variable (contents : PowerUp) (inputs : ℕ → Inputs)

theorem tracked_powerUp : Tracked (powerUp contents) (Ahead.start contents) where
  bypassed := bypassed_powerUp contents
  ex := trivial
  mem := trivial
  wb := trivial
  written := fun rs nonzero => by
    rw [RegisterFile.get, if_neg nonzero]
    rfl
  older := fun rs nonzero _ => by
    rw [RegisterFile.get, if_neg nonzero]
    rfl

theorem tracked_stateAt (n : ℕ)
    (keeps : ∀ k < n, KeepsOrder (stateAt contents inputs k) (inputs k)) :
    Tracked (stateAt contents inputs n) (aheadAt contents inputs n) :=
  Clocked.invariant_observedAt (tracked_powerUp contents) (fun _ _ _ => tracked_step) n keeps

/-- The operands of a branch or jump that may resolve are the registers as the instructions before
    it leave them, in a run that keeps the order. -/
theorem transfer_operands (n : ℕ)
    (keeps : ∀ k < n, KeepsOrder (stateAt contents inputs k) (inputs k))
    (jump : isBranchOrJump (stateAt contents inputs n) = true)
    (ready : branchHazard (stateAt contents inputs n) = false) :
    (aheadAt contents inputs n).register (stateAt contents inputs n) (inputs n)
    (rs1Id (stateAt contents inputs n)) =
        some (idReg1Data (stateAt contents inputs n) (inputs n)) ∧
      (aheadAt contents inputs n).register (stateAt contents inputs n) (inputs n)
      (rs2Id (stateAt contents inputs n)) =
        some (idReg2Data (stateAt contents inputs n) (inputs n)) :=
  operands_tracked (tracked_stateAt contents inputs n keeps) jump ready

/-- `auipc x1, 0` and `jalr x5, 16(x1)`: the `jalr` resolves with its base in MEM and its own copy
    in EX. -/
theorem transfer_operands_copied :
    let inputs := Inputs.script [0x00000097#32, 0x010082e7#32]
    let cpu := stateAt .zero inputs 3
    (aheadAt .zero inputs 3).register cpu (inputs 3) (rs1Id cpu) =
      some (idReg1Data cpu (inputs 3)) ∧
      (aheadAt .zero inputs 3).register cpu (inputs 3) (rs2Id cpu) =
        some (idReg2Data cpu (inputs 3)) :=
  transfer_operands .zero (.script [0x00000097#32, 0x010082e7#32]) 3
    (by decide +kernel) (by decide +kernel)
    (by decide +kernel)

/-- `auipc x1, 0` and `jalr x1, 16(x1)` at `0x1004`: the base is `0x1000`, and the `jalr` resolves
    with its own link `0x1008`. -/
theorem jalr_reads_own_link :
    let inputs := Inputs.script [0x00000097#32, 0x010080e7#32]
    let cpu := stateAt .zero inputs 4
    isBranchOrJump cpu = true ∧ branchHazard cpu = false ∧ actualTaken cpu (inputs 4) = true ∧
      (aheadAt .zero inputs 4).register cpu (inputs 4) (rs1Id cpu) = some 0x1000#32 ∧
      idReg1Data cpu (inputs 4) = 0x1008#32 ∧ actualTarget cpu (inputs 4) = 0x1018#32 := by
  decide +kernel

end Run

end MyCpu.PipelinedCPU
