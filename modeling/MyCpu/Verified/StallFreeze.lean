import MyCpu.Verified.PipelineRun

/-! # A memory stall freezes the pipeline

While MEM waits for the bus every boundary holds its contents.  The one flush that
is not masked by the stall is the flush of ID/EX for a JAL or JALR hazard: it is
meant to keep the instruction of ID out of EX, but in a stalled cycle ID/EX still
holds the instruction that waits in EX, so the flush loses that instruction unless
EX is empty. -/

namespace MyCpu.PipelinedCPU

variable (cpu : PipelinedCPU) (io : Inputs)

/-- In a stalled cycle a JAL or JALR hazard meets an empty EX. -/
def FlushesBubble : Prop :=
  memStall cpu io = true → Control.isJalJalrHazard (ctrl cpu) = true → cpu.id2ex = ID2EX.bubble

instance : Decidable (FlushesBubble cpu io) := inferInstanceAs (Decidable (_ → _))

/-! ## One stalled cycle -/

section Cycle

variable {cpu io} (stalled : memStall cpu io = true)

include stalled

theorem ex2mem_stalled : (step cpu io).ex2mem = cpu.ex2mem := by
  simp only [step, stepWith, stalled, pipelineRegister_stall]

theorem mem2wb_stalled : (step cpu io).mem2wb = cpu.mem2wb := by
  simp only [step, stepWith, stalled, pipelineRegister_stall]

theorem if2id_stalled : (step cpu io).if2id = cpu.if2id := by
  simp only [step, stepWith, if2idStall_memStall cpu io stalled, if2idFlush_memStall cpu io stalled,
    pipelineRegister_stall]

theorem id2exFlush_stalled : id2exFlush cpu io = Control.isJalJalrHazard (ctrl cpu) := by
  -- among the hazards that flush ID/EX only the JAL and JALR hazards are not masked
  -- The three terms of `is_jal_jalr_hazard` are terms of the stall condition as well.
  have holds : Control.isJalJalrHazard (ctrl cpu) = true → Control.hazard (ctrl cpu) = true := by
    intro jump
    simp only [Control.isJalJalrHazard, Bool.or_eq_true] at jump
    obtain (ex | mem) | wb := jump
    · simp [Control.hazard, ex]
    · simp [Control.hazard, mem]
    · simp [Control.hazard, wb]
  rw [id2exFlush, stalled, Control.idFlush, Control.jalJalrHazard]
  cases jump : Control.isJalJalrHazard (ctrl cpu) with
  | true => simp [holds jump]
  | false => simp

theorem id2ex_stalled : (step cpu io).id2ex = cpu.id2ex ↔ FlushesBubble cpu io := by
  have captured : (step cpu io).id2ex =
      if Control.isJalJalrHazard (ctrl cpu) then ID2EX.bubble else cpu.id2ex := by
    rw [step, stepWith, stalled, id2exFlush_stalled stalled, pipelineRegister]
    rfl
  rw [captured, FlushesBubble]
  cases jump : Control.isJalJalrHazard (ctrl cpu) with
  | true =>
    rw [if_pos rfl]
    exact ⟨fun same _ _ => same.symm, fun empty => (empty stalled rfl).symm⟩
  | false => simp

end Cycle

/-! ## A whole stall -/

/-- MEM stalls in every cycle from `n` up to and excluding `m`. -/
def StallsThrough (contents : PowerUp) (inputs : ℕ → Inputs) (n m : ℕ) : Prop :=
  ∀ k, n ≤ k → k < m → memStall (stateAt contents inputs k) (inputs k) = true

/-- The instructions of ID, EX, MEM and WB are those of cycle `n` in cycle `m`, and when the stall
    is over, EX and MEM each pass theirs to the next stage. -/
structure Frozen (contents : PowerUp) (inputs : ℕ → Inputs) (n m : ℕ) : Prop where
  if2id : (stateAt contents inputs m).if2id = (stateAt contents inputs n).if2id
  id2ex : (stateAt contents inputs m).id2ex = (stateAt contents inputs n).id2ex
  ex2mem : (stateAt contents inputs m).ex2mem = (stateAt contents inputs n).ex2mem
  mem2wb : (stateAt contents inputs m).mem2wb = (stateAt contents inputs n).mem2wb
  handover : memStall (stateAt contents inputs m) (inputs m) = false →
    (stateAt contents inputs (m + 1)).ex2mem.instructionAddress =
        (stateAt contents inputs n).id2ex.instructionAddress ∧
      (stateAt contents inputs (m + 1)).mem2wb.instructionAddress =
        (stateAt contents inputs n).ex2mem.instructionAddress

section Stall

variable {contents : PowerUp} {inputs : ℕ → Inputs}

theorem handover_released {m : ℕ}
    (released : memStall (stateAt contents inputs m) (inputs m) = false) :
    (stateAt contents inputs (m + 1)).ex2mem.instructionAddress =
        (stateAt contents inputs m).id2ex.instructionAddress ∧
      (stateAt contents inputs (m + 1)).mem2wb.instructionAddress =
        (stateAt contents inputs m).ex2mem.instructionAddress := by
  constructor
  · simp only [stateAt_succ, step, stepWith, released, pipelineRegister_capture, ex2memInput]
  · simp only [stateAt_succ, step, stepWith, released, pipelineRegister_capture, mem2wbInput]

theorem Frozen.refl (n : ℕ) : Frozen contents inputs n n := ⟨rfl, rfl, rfl, rfl, handover_released⟩

theorem Frozen.succ {n m : ℕ} (frozen : Frozen contents inputs n m)
    (stalled : memStall (stateAt contents inputs m) (inputs m) = true)
    (empty : FlushesBubble (stateAt contents inputs m) (inputs m)) :
    Frozen contents inputs n (m + 1) := by
  have id2ex := (id2ex_stalled stalled).mpr empty
  have ex2mem := ex2mem_stalled stalled
  refine ⟨?_, ?_, ?_, ?_, ?_⟩
  · rw [stateAt_succ, if2id_stalled stalled, frozen.if2id]
  · rw [stateAt_succ, id2ex, frozen.id2ex]
  · rw [stateAt_succ, ex2mem, frozen.ex2mem]
  · rw [stateAt_succ, mem2wb_stalled stalled, frozen.mem2wb]
  · intro released
    have passed := handover_released released
    rw [stateAt_succ contents inputs m, id2ex, ex2mem, frozen.id2ex, frozen.ex2mem] at passed
    exact passed

/-- A run freezes in all its stalls exactly when its stalled JAL and JALR hazards meet an empty
    EX. -/
theorem stall_freezes (contents : PowerUp) (inputs : ℕ → Inputs) :
    (∀ n m, n ≤ m → StallsThrough contents inputs n m → Frozen contents inputs n m) ↔
      ∀ k, FlushesBubble (stateAt contents inputs k) (inputs k) := by
  constructor
  · intro freezes k stalled
    have oneCycle : StallsThrough contents inputs k (k + 1) := by
      intro i after before
      obtain rfl : i = k := by omega
      exact stalled
    exact (id2ex_stalled stalled).mp (freezes k (k + 1) (Nat.le_succ k) oneCycle).id2ex stalled
  · intro empty n m later stalls
    refine Clocked.kept_until later (Frozen.refl n) fun k after before frozen => ?_
    exact frozen.succ (stalls k after before) (empty k)

end Stall

/-! ## A lost instruction -/

/-- The loop `jal x1, 8`, `lw x2, 0(x0)`, `addi x3, x0, 1`, `addi x4, x1, 0`, `jal x0, -20` from the
    entry address, as the core fetches it in its first thirteen cycles. -/
def linkLoopInputs : ℕ → Inputs := .script
  [0x008000EF#32, InstructionsNop.nop, 0x00002103#32, 0x00100193#32, 0x00008213#32,
  0xFEDFF06F#32, 0xFEDFF06F#32,
    InstructionsNop.nop, 0x008000EF#32, 0x00002103#32, 0x00100193#32, 0x00008213#32, 0xFEDFF06F#32]

/-- The second time round the BTB removes the bubble behind `jal`; while the load stalls in cycle
    12, the hazard between `jal` in WB and `addi x4, x1, 0` in ID flushes `addi x3, x0, 1` out of
    EX. -/
theorem linkLoop_not_frozen :
    StallsThrough .zero linkLoopInputs 12 13 ∧ ¬ Frozen .zero linkLoopInputs 12 13 := by
  constructor
  · intro k after before
    obtain rfl : k = 12 := by omega
    decide +kernel
  · intro frozen
    have lost : (stateAt .zero linkLoopInputs 13).id2ex ≠
        (stateAt .zero linkLoopInputs 12).id2ex := by
      decide +kernel
    exact lost frozen.id2ex

end MyCpu.PipelinedCPU
