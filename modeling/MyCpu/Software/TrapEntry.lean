import MyCpu.Isa.Zicsr
import MyCpu.Core.Csr

/-! # The trap wrapper

`__trap_entry` of `init.S`: the stack pointer is kept in `mscratch`, the stack is
checked against its limit, the other registers are saved below the stack pointer
around the call of `trap_handler`, and `mret` goes back to the interrupted code.

The limit is loaded into `t0` before `t0` is saved. -/

namespace MyCpu.TrapEntry

open Rv32im

/-! ## Code -/

def ra : Reg := 1#5
def sp : Reg := 2#5
def gp : Reg := 3#5
def tp : Reg := 4#5
def t0 : Reg := 5#5
def a0 : Reg := 10#5
def a1 : Reg := 11#5

/-- `STACK_LIMIT`. -/
def stackLimit : Word := 0x00200000#32

/-- The lines `sw reg, offset(sp)`, and the lines `lw reg, offset(sp)` in the same order. -/
def slots : List Slot :=
  [⟨ra, 4#32⟩, ⟨gp, 12#32⟩, ⟨tp, 16#32⟩,
    -- t0, t1, t2
    ⟨t0, 20#32⟩, ⟨6#5, 24#32⟩, ⟨7#5, 28#32⟩,
    -- s0, s1
    ⟨8#5, 32#32⟩, ⟨9#5, 36#32⟩,
    -- a0 to a7
    ⟨a0, 40#32⟩, ⟨a1, 44#32⟩, ⟨12#5, 48#32⟩, ⟨13#5, 52#32⟩, ⟨14#5, 56#32⟩,
    ⟨15#5, 60#32⟩, ⟨16#5, 64#32⟩, ⟨17#5, 68#32⟩,
    -- s2 to s11
    ⟨18#5, 72#32⟩, ⟨19#5, 76#32⟩, ⟨20#5, 80#32⟩, ⟨21#5, 84#32⟩, ⟨22#5, 88#32⟩,
    ⟨23#5, 92#32⟩, ⟨24#5, 96#32⟩, ⟨25#5, 100#32⟩, ⟨26#5, 104#32⟩, ⟨27#5, 108#32⟩,
    -- t3 to t6
    ⟨28#5, 112#32⟩, ⟨29#5, 116#32⟩, ⟨30#5, 120#32⟩, ⟨31#5, 124#32⟩]

/-- `csrr rd, csr` -/
def csrr (rd : Reg) (address : Rv32im.CsrAddr) : SystemInstr := .csr .rs rd (.reg 0#5) address

/-- The call is to this distance from its `auipc`. -/
def callOffset (base handlerAddress : Word) : Word := handlerAddress - addressOf base 36

def callLow (offset : Word) : Word := (offset.extractLsb' 0 12).signExtend 32

/-- Up to the stack check. -/
def entry : List SystemInstr :=
  [ -- csrw mscratch, sp
    .csr .rw 0#5 (.reg sp) CSRRegister.MSCRATCH,
    -- addi sp, sp, -128
    .base (.opImm .add sp sp (-128#32)),
    -- li t0, STACK_LIMIT
    .base (.lui t0 stackLimit)]

/-- `bltu sp, t0, __stack_overflow_trap`, which stands behind the `mret`. -/
def stackCheck : SystemInstr := .base (.branch .ltu sp t0 268#32)

/-- `csrr a0, mepc`, `csrr a1, mcause` and the `auipc` of `call trap_handler`. -/
def arguments (offset : Word) : List SystemInstr :=
  [csrr a0 CSRRegister.MEPC, csrr a1 CSRRegister.MCAUSE,
  .base (.auipc ra (offset - callLow offset))]

/-- The `jalr` of `call trap_handler`. -/
def call (offset : Word) : SystemInstr := .base (.jalr ra ra (callLow offset))

/-- The instructions from `__trap_entry` to `mret`. -/
def code (offset : Word) : List SystemInstr :=
  entry ++ (stackCheck :: (saves sp slots ++ (arguments offset ++
    (call offset :: (restores sp slots ++ [csrr sp CSRRegister.MSCRATCH, .mret])))))

/-! ## Execution -/

/-- What a CSR keeps of what is written to it. -/
def kept (address : Rv32im.CsrAddr) (value : Word) : Word :=
  if address = CSRRegister.MCOUNTINHIBIT then value &&& 0x000003fd#32 else value

section Execution

variable (base handlerAddress : Word) (handler : Machine → Machine)

def fetched (m : Machine) : Option SystemInstr :=
  fetch base (code (callOffset base handlerAddress)) m.hart.pc

/-- One instruction of the wrapper; the whole run of `trap_handler` is one step. -/
def step (m : Machine) : Machine :=
  if m.hart.pc = handlerAddress then handler m
  else
    match fetched base handlerAddress m with
    | some instr => instr.exec kept m
    | none => m

/-- The run goes on until `mret` has been executed. -/
inductive Returns : Machine → Machine → Prop where
  | mret {m : Machine} (outside : m.hart.pc ≠ handlerAddress)
      (last : fetched base handlerAddress m = some .mret) :
    Returns m (SystemInstr.mret.exec kept m)
  | step {m final : Machine} (before : m.hart.pc = handlerAddress ∨
      fetched base handlerAddress m ≠ some .mret)
    (rest : Returns (step base handlerAddress handler m) final) : Returns m final

theorem Returns.unique {m final final' : Machine}
    (returns : Returns base handlerAddress handler m final)
    (returns' : Returns base handlerAddress handler m final') : final = final' := by
  induction returns generalizing final' with
  | mret outside last =>
    cases returns' with
    | mret => rfl
    | step before =>
      cases before with
      | inl handled => exact absurd handled outside
      | inr other => exact absurd last other
  | step before rest inductionHypothesis =>
    cases returns' with
    | mret outside last =>
      cases before with
      | inl handled => exact absurd handled outside
      | inr other => exact absurd last other
    | step _ rest' => exact inductionHypothesis rest'

end Execution

/-- The registers that a function preserves: `sp`, `gp`, `tp` and `s0` to `s11`. -/
def preserved : List Reg :=
  [sp, gp, tp, 8#5, 9#5, 18#5, 19#5, 20#5, 21#5, 22#5, 23#5, 24#5, 25#5, 26#5, 27#5]

/-- `trap_handler` returns, keeps the preserved registers, and leaves the save area, `mscratch` and
    `mepc` alone. -/
structure ObeysConvention (handlerAddress : Word) (handler : Machine → Machine) : Prop where
  returns : ∀ m, m.hart.pc = handlerAddress → (handler m).hart.pc = m.hart.get ra
  registers : ∀ m, m.hart.pc = handlerAddress →
    ∀ r ∈ preserved, (handler m).hart.get r = m.hart.get r
  saveArea : ∀ m, m.hart.pc = handlerAddress → ∀ k < 128,
    (handler m).hart.memory (m.hart.get sp + BitVec.ofNat 32 k) =
      m.hart.memory (m.hart.get sp + BitVec.ofNat 32 k)
  csrs : ∀ m, m.hart.pc = handlerAddress →
    (handler m).csr CSRRegister.MSCRATCH = m.csr CSRRegister.MSCRATCH ∧
      (handler m).csr CSRRegister.MEPC = m.csr CSRRegister.MEPC

/-- `trap_handler` is an instruction address that is not one of the wrapper. -/
structure Placed (base handlerAddress : Word) : Prop where
  even : handlerAddress &&& 1#32 = 0#32
  outside : ∀ index < 70, handlerAddress ≠ addressOf base index

/-- The wrapper ends at `mepc` with every register as it was. -/
def Transparent (base handlerAddress : Word) (handler : Machine → Machine) (m : Machine) : Prop :=
  ∃ final, Returns base handlerAddress handler m final ∧ final.hart.pc = m.csr CSRRegister.MEPC ∧
    ∀ r, final.hart.get r = m.hart.get r

/-! ## Straight lines -/

section Run

variable {base handlerAddress : Word} {handler : Machine → Machine}

theorem code_length (offset : Word) : (code offset).length = 70 := rfl

/-- The instruction at the head of what is left of the code. -/
theorem fetched_split {m : Machine} {before after : List SystemInstr} {instr : SystemInstr}
    (split : code (callOffset base handlerAddress) = before ++ instr :: after)
    (position : m.hart.pc = addressOf base before.length) :
    fetched base handlerAddress m = some instr ∧ before.length < 70 := by
  have total := congrArg List.length split
  rw [code_length, List.length_append, List.length_cons] at total
  refine ⟨?_, by omega⟩
  rw [fetched, position, fetch_addressOf base _ _ (by omega), split,
    List.getElem?_append_right (Nat.le_refl _), Nat.sub_self]
  rfl

theorem outside_split (placed : Placed base handlerAddress) {m : Machine}
    {before after : List SystemInstr}
    {instr : SystemInstr} (split : code (callOffset base handlerAddress) = before ++ instr :: after)
    (position : m.hart.pc = addressOf base before.length) : m.hart.pc ≠ handlerAddress := by
  rw [position]
  exact (placed.outside _ (fetched_split split position).2).symm

/-- An instruction other than `mret` is executed, and the run goes on. -/
theorem Returns.instr (placed : Placed base handlerAddress) {m final : Machine}
    {before after : List SystemInstr}
    {instr : SystemInstr} (split : code (callOffset base handlerAddress) = before ++ instr :: after)
    (position : m.hart.pc = addressOf base before.length) (other : instr ≠ .mret)
    (rest : Returns base handlerAddress handler (instr.exec kept m) final) :
    Returns base handlerAddress handler m final := by
  obtain ⟨here, _⟩ := fetched_split split position
  refine .step (Or.inr fun last => other (Option.some.inj (here.symm.trans last))) ?_
  rw [TrapEntry.step, if_neg (outside_split placed split position), here]
  exact rest

/-- A straight line is executed as a whole. -/
theorem Returns.line (placed : Placed base handlerAddress) {m final : Machine}
    {before segment after : List SystemInstr}
    (split : code (callOffset base handlerAddress) = before ++ (segment ++ after))
    (position : m.hart.pc = addressOf base before.length)
    (sequential : segment.all SystemInstr.Sequential = true)
    (rest : Returns base handlerAddress handler (Rv32im.line kept m segment) final) :
    Returns base handlerAddress handler m final := by
  induction segment generalizing m before with
  | nil => exact rest
  | cons instr segment inductionHypothesis =>
    simp only [List.all_cons, Bool.and_eq_true] at sequential
    have other : instr ≠ .mret := by
      rintro rfl
      exact Bool.noConfusion sequential.1
    have moved : (instr.exec kept m).hart.pc = addressOf base (before ++ [instr]).length := by
      rw [exec_sequential kept m sequential.1, position, addressOf_succ, List.length_append]
      rfl
    refine .instr placed split position other (inductionHypothesis ?_ moved sequential.2 rest)
    rw [split, List.append_assoc]
    rfl

end Run

/-! ## What each part leaves -/

theorem csrr_get (m : Machine) (rd r : Reg) (address : Rv32im.CsrAddr) :
    ((csrr rd address).exec kept m).hart.get r =
      if r = 0#5 then 0#32 else if r = rd then m.csr address else m.hart.get r :=
  Hart.get_set m.hart rd r (m.csr address)

theorem mret_get (m : Machine) (r : Reg) : (SystemInstr.mret.exec kept m).hart.get r =
    m.hart.get r := rfl

/-- After `entry` the stack pointer is in `mscratch`, and the limit in `t0`. -/
structure Entered (m m' : Machine) : Prop where
  registers : ∀ r, m'.hart.get r =
    if r = sp then m.hart.get sp - 128#32 else if r = t0 then stackLimit else m.hart.get r
  mscratch : m'.csr CSRRegister.MSCRATCH = m.hart.get sp
  mepc : m'.csr CSRRegister.MEPC = m.csr CSRRegister.MEPC

theorem entered (m : Machine) : Entered m (line kept m entry) := by
  let m₁ := SystemInstr.exec kept m (.csr .rw 0#5 (.reg sp) CSRRegister.MSCRATCH)
  let m₂ := SystemInstr.exec kept m₁ (.base (.opImm .add sp sp (-128#32)))
  have kept₁ : ∀ r, m₁.hart.get r = m.hart.get r := fun r => rfl
  have pointer : ∀ r, m₂.hart.get r =
      if r = 0#5 then 0#32 else if r = sp then m₁.hart.get sp + -128#32 else m₁.hart.get r :=
    fun r => @exec_get m₁.hart (.opImm .add sp sp (-128#32)) _ _ rfl r
  have limit : ∀ r, (SystemInstr.exec kept m₂ (.base (.lui t0 stackLimit))).hart.get r =
      if r = 0#5 then 0#32 else if r = t0 then stackLimit else m₂.hart.get r :=
    fun r => @exec_get m₂.hart (.lui t0 stackLimit) _ _ rfl r
  refine ⟨fun r => ?_, rfl, rfl⟩
  refine (limit r).trans ?_
  rw [pointer, kept₁, kept₁, sub_eq_add_neg]
  by_cases zero : r = 0#5
  · have different : r ≠ sp ∧ r ≠ t0 := by
      rw [zero]
      decide
    rw [if_pos zero, if_neg different.1, if_neg different.2, zero]
    rfl
  · by_cases limited : r = t0
    · have different : r ≠ sp := by
        rw [limited]
        decide
      rw [if_neg zero, if_pos limited, if_neg different, if_pos limited]
    · rw [if_neg zero, if_neg limited, if_neg zero, if_neg limited]

/-- With enough stack the check goes on to the saves. -/
theorem stackCheck_exec {m m' : Machine} (entered : Entered m m')
    (room : stackLimit.toNat ≤ (m.hart.get sp - 128#32).toNat) :
    stackCheck.exec kept m' = { m' with hart := { m'.hart with pc := m'.hart.pc + 4#32 } } := by
  have pointer : m'.hart.get sp = m.hart.get sp - 128#32 :=
    (entered.registers sp).trans (if_pos rfl)
  have limit : m'.hart.get t0 = stackLimit := (entered.registers t0).trans rfl
  have enough : Condition.ltu.eval (m'.hart.get sp) (m'.hart.get t0) = false := by
    rw [pointer, limit, Condition.eval, decide_eq_false (Nat.not_lt.mpr room)]
  simp only [stackCheck, SystemInstr.exec, Instr.exec, Instr.nextPc, enough]
  rfl

theorem slots_apart : slots.Pairwise fun s t => Apart s.offset t.offset := by decide

theorem slots_distinct : (sp :: slots.map Slot.reg).Nodup := by decide

theorem slots_proper : ∀ slot ∈ slots, slot.reg ≠ 0#5 := by decide

/-- Every register but `x0` and `sp` has a slot, inside the save area. -/
theorem slots_complete (r : Reg) (proper : r ≠ 0#5) (other : r ≠ sp) :
    ∃ slot ∈ slots, slot.reg = r ∧ slot.offset.toNat + 4 ≤ 128 := by
  revert r
  decide

/-- After the saves every slot holds the register that `entry` left. -/
theorem saved (m : Machine) :
    (line kept m (saves sp slots)).hart.regs = m.hart.regs ∧
      (line kept m (saves sp slots)).csr = m.csr ∧
      ∀ slot ∈ slots, LoadOp.lw.eval (line kept m (saves sp slots)).hart.memory
        (m.hart.get sp + slot.offset) =
        m.hart.get slot.reg :=
  ⟨(saves_frame kept sp m slots).1, (saves_frame kept sp m slots).2,
  saves_stored kept sp m slots slots_apart⟩

theorem clear_even {address : Word} (even : address &&& 1#32 = 0#32) :
    address &&& ~~~1#32 = address := by
  apply BitVec.eq_of_getLsbD_eq
  intro i bound
  have low := congrArg (fun x : Word => x.getLsbD i) even
  simp only [BitVec.getLsbD_and, BitVec.getLsbD_not, BitVec.getLsbD_zero] at low ⊢
  cases here : address.getLsbD i <;> simp_all

/-- The call passes the stack pointer, the memory and the CSRs on to `trap_handler`, which is to
    return behind it. -/
structure Called (base handlerAddress : Word) (m m' : Machine) : Prop where
  position : m'.hart.pc = handlerAddress
  link : m'.hart.get ra = addressOf base 38
  pointer : m'.hart.get sp = m.hart.get sp
  memory : m'.hart.memory = m.hart.memory
  csr : m'.csr = m.csr

theorem called {base handlerAddress : Word} (placed : Placed base handlerAddress) (m : Machine)
    (position : m.hart.pc = addressOf base 34) :
    Called base handlerAddress m ((call (callOffset base handlerAddress)).exec kept
      (line kept m (arguments (callOffset base handlerAddress)))) := by
  generalize distance : callOffset base handlerAddress = offset
  let m₁ := (csrr a0 CSRRegister.MEPC).exec kept m
  let m₂ := (csrr a1 CSRRegister.MCAUSE).exec kept m₁
  let m₃ := SystemInstr.exec kept m₂ (.base (.auipc ra (offset - callLow offset)))
  have position₂ : m₂.hart.pc = addressOf base 36 := by
    change m.hart.pc + 4#32 + 4#32 = _
    rw [position, addressOf_succ, addressOf_succ]
  have pointer₂ : m₂.hart.get sp = m.hart.get sp := by
    have first : m₁.hart.get sp = m.hart.get sp := csrr_get m a0 sp CSRRegister.MEPC
    have second : m₂.hart.get sp = m₁.hart.get sp := csrr_get m₁ a1 sp CSRRegister.MCAUSE
    rw [second, first]
  have registers₃ : ∀ r, m₃.hart.get r =
      if r = 0#5 then 0#32 else if r = ra then
        m₂.hart.pc + (offset - callLow offset) else m₂.hart.get r :=
    fun r => @exec_get m₂.hart (.auipc ra (offset - callLow offset)) _ _ rfl r
  have registers₄ : ∀ r, ((call offset).exec kept m₃).hart.get r =
      if r = 0#5 then 0#32 else if r = ra then m₃.hart.pc + 4#32 else m₃.hart.get r :=
    fun r => @exec_get m₃.hart (.jalr ra ra (callLow offset)) _ _ rfl r
  refine ⟨?_, ?_, ?_, rfl, rfl⟩
  · change (m₃.hart.get ra + callLow offset) &&& ~~~1#32 = handlerAddress
    have target : m₃.hart.get ra + callLow offset = handlerAddress := by
      rw [registers₃ ra, if_neg (by decide), if_pos rfl, position₂, add_assoc,
        sub_add_cancel, ← distance, callOffset, add_sub_cancel]
    rw [target]
    exact clear_even placed.even
  · refine (registers₄ ra).trans ?_
    rw [if_neg (by decide), if_pos rfl]
    change m₂.hart.pc + 4#32 + 4#32 = _
    rw [position₂, addressOf_succ, addressOf_succ]
  · refine (registers₄ sp).trans ?_
    rw [if_neg (by decide), if_neg (by decide), registers₃ sp, if_neg (by decide),
      if_neg (by decide), pointer₂]

/-- The words of the save area survive the handler. -/
theorem handled_words {handlerAddress : Word} {handler : Machine → Machine}
    (obeys : ObeysConvention handlerAddress handler) {m : Machine}
    (position : m.hart.pc = handlerAddress)
    {offset : Word} (inside : offset.toNat + 4 ≤ 128) :
    LoadOp.lw.eval (handler m).hart.memory (m.hart.get sp + offset) =
      LoadOp.lw.eval m.hart.memory (m.hart.get sp + offset) := by
  refine lw_congr fun k bound => ?_
  have place : m.hart.get sp + offset + BitVec.ofNat 32 k =
      m.hart.get sp + BitVec.ofNat 32 (offset.toNat + k) := by
    rw [BitVec.add_assoc, BitVec.ofNat_add, BitVec.ofNat_toNat, BitVec.setWidth_eq]
  rw [place]
  exact obeys.saveArea m position _ (by omega)

/-! ## The whole wrapper -/

section Wrapper

variable {base handlerAddress : Word} {handler : Machine → Machine}

/-- What the restores load, up to the call back in the wrapper. -/
theorem restored (obeys : ObeysConvention handlerAddress handler) {m m₁ m₂ m₄ : Machine}
    (entered : Entered m m₁)
    (checked : m₂.hart.regs = m₁.hart.regs)
    (same : Called base handlerAddress (line kept m₂ (saves sp slots)) m₄)
    (r : Reg) (other : r ≠ sp) :
    (line kept (handler m₄) (restores sp slots)).hart.get r = if r = t0 then stackLimit
      else m.hart.get r := by
  have registers : ∀ r, m₂.hart.get r = m₁.hart.get r :=
    fun r => by rw [Hart.get, Hart.get, checked]
  by_cases zero : r = 0#5
  · subst zero
    rfl
  · obtain ⟨slot, member, rfl, inside⟩ := slots_complete r zero other
    obtain ⟨regs, csr, stored⟩ := saved m₂
    have pointer : (handler m₄).hart.get sp = m₂.hart.get sp := by
      rw [obeys.registers m₄ same.position sp (by decide), same.pointer, Hart.get, Hart.get, regs]
    have there : m₄.hart.get sp = m₂.hart.get sp := by rw [same.pointer, Hart.get, Hart.get, regs]
    have loaded :=
      restores_loaded kept sp (handler m₄) slots slots_distinct slots_proper slot member
    have survived := handled_words obeys same.position inside
    rw [loaded, pointer, ← there, survived, same.memory, there, stored slot member,
      registers, entered.registers, if_neg other]

theorem wrapper_returns (placed : Placed base handlerAddress)
    (obeys : ObeysConvention handlerAddress handler)
    (m : Machine) (start : m.hart.pc = base)
    (room : stackLimit.toNat ≤ (m.hart.get sp - 128#32).toNat) :
    ∃ final, Returns base handlerAddress handler m final ∧ final.hart.pc = m.csr CSRRegister.MEPC ∧
      ∀ r, final.hart.get r = if r = t0 then stackLimit else m.hart.get r := by
  let offset := callOffset base handlerAddress
  let m₁ := line kept m entry
  let m₂ := stackCheck.exec kept m₁
  let m₃ := line kept m₂ (saves sp slots)
  let m₄ := (call offset).exec kept (line kept m₃ (arguments offset))
  let m₆ := line kept (handler m₄) (restores sp slots)
  let m₇ := (csrr sp CSRRegister.MSCRATCH).exec kept m₆
  have entered : Entered m m₁ := entered m
  have position₁ : m₁.hart.pc = addressOf base 3 :=
    line_pc kept base m entry 0 (start.trans (BitVec.add_zero base).symm) rfl
  have checked : m₂ = { m₁ with hart := { m₁.hart with pc := m₁.hart.pc + 4#32 } } :=
    stackCheck_exec entered room
  have position₂ : m₂.hart.pc = addressOf base 4 := by
    rw [checked, ← addressOf_succ, ← position₁]
  have position₃ : m₃.hart.pc = addressOf base 34 :=
    line_pc kept base m₂ (saves sp slots) 4 position₂ (by decide)
  have called : Called base handlerAddress m₃ m₄ := called placed m₃ position₃
  have position₅ : (handler m₄).hart.pc = addressOf base 38 :=
    (obeys.returns m₄ called.position).trans called.link
  have position₆ : m₆.hart.pc = addressOf base 68 :=
    line_pc kept base (handler m₄) (restores sp slots) 38 position₅ (by decide)
  have position₇ : m₇.hart.pc = addressOf base 69 := by
    change m₆.hart.pc + 4#32 = _
    rw [position₆, addressOf_succ]
  -- `mscratch` and `mepc` are what they were after `entry`
  have csrs : m₆.csr CSRRegister.MSCRATCH = m.hart.get sp ∧ m₆.csr CSRRegister.MEPC =
      m.csr CSRRegister.MEPC := by
    have unchanged : m₄.csr = m₁.csr := by
      rw [called.csr, (saved m₂).2.1, checked]
    have through := obeys.csrs m₄ called.position
    rw [unchanged] at through
    rw [(restores_frame kept sp (handler m₄) slots).2.1, through.1, through.2]
    exact ⟨entered.mscratch, entered.mepc⟩
  refine ⟨SystemInstr.mret.exec kept m₇, ?_, csrs.2, fun r => ?_⟩
  · have position₀ : m.hart.pc = addressOf base 0 := start.trans (BitVec.add_zero base).symm
    have positionCall : (line kept m₃ (arguments offset)).hart.pc = addressOf base 37 :=
      line_pc kept base m₃ (arguments offset) 34 position₃ rfl
    have splitEntry : code offset = [] ++ (entry ++ (code offset).drop 3) := rfl
    have splitCheck : code offset = (code offset).take 3 ++ stackCheck :: (code offset).drop 4 :=
      rfl
    have splitSaves : code offset =
        (code offset).take 4 ++ (saves sp slots ++ (code offset).drop 34) := rfl
    have splitArguments : code offset =
        (code offset).take 34 ++ (arguments offset ++ (code offset).drop 37) := rfl
    have splitCall : code offset = (code offset).take 37 ++ call offset :: (code offset).drop 38 :=
      rfl
    have splitRestores : code offset =
        (code offset).take 38 ++ (restores sp slots ++ (code offset).drop 68) := rfl
    have splitPointer : code offset =
        (code offset).take 68 ++ csrr sp CSRRegister.MSCRATCH :: (code offset).drop 69 := rfl
    have splitMret : code offset = (code offset).take 69 ++ SystemInstr.mret :: [] := rfl
    have last : Returns base handlerAddress handler m₇ (SystemInstr.mret.exec kept m₇) :=
      .mret (outside_split placed splitMret position₇) (fetched_split splitMret position₇).1
    have handled : Returns base handlerAddress handler (handler m₄)
        (SystemInstr.mret.exec kept m₇) :=
      .line placed splitRestores position₅ (by decide)
        (.instr placed splitPointer position₆ (by decide) last)
    have calling : Returns base handlerAddress handler m₄ (SystemInstr.mret.exec kept m₇) := by
      refine .step (Or.inl called.position) ?_
      rw [step, if_pos called.position]
      exact handled
    exact .line placed splitEntry position₀ rfl (.instr placed splitCheck position₁ (by decide)
      (.line placed splitSaves position₂ (by decide) (.line placed splitArguments position₃ rfl
        (.instr placed splitCall positionCall (by simp [call]) calling))))
  · rw [mret_get, csrr_get]
    by_cases pointer : r = sp
    · rw [pointer, csrs.1, if_neg (by decide), if_pos rfl, if_neg (by decide)]
    · rw [if_neg pointer, restored obeys entered (by rw [checked]) called r pointer]
      by_cases zero : r = 0#5
      · rw [if_pos zero, zero]
        rfl
      · rw [if_neg zero]

/-- The limit that was loaded into `t0` is what `t0` holds in the end. -/
theorem transparent_limit (placed : Placed base handlerAddress)
    (obeys : ObeysConvention handlerAddress handler)
    {m : Machine} (start : m.hart.pc = base)
    (room : stackLimit.toNat ≤ (m.hart.get sp - 128#32).toNat)
    (transparent : Transparent base handlerAddress handler m) : m.hart.get t0 = stackLimit := by
  obtain ⟨final, returns, _, same⟩ := transparent
  obtain ⟨final', returns', _, registers⟩ := wrapper_returns placed obeys m start room
  rw [← same t0, returns.unique base handlerAddress handler returns', registers t0, if_pos rfl]

/-- The wrapper is transparent exactly when `t0` held the stack limit. -/
theorem transparent_iff (base handlerAddress : Word) (handler : Machine → Machine) (m : Machine)
    (placed : Placed base handlerAddress) (obeys : ObeysConvention handlerAddress handler)
    (start : m.hart.pc = base) (room : stackLimit.toNat ≤ (m.hart.get sp - 128#32).toNat) :
    Transparent base handlerAddress handler m ↔ m.hart.get t0 = stackLimit := by
  refine ⟨transparent_limit placed obeys start room, fun limit => ?_⟩
  obtain ⟨final, returns, position, registers⟩ := wrapper_returns placed obeys m start room
  refine ⟨final, returns, position, fun r => ?_⟩
  rw [registers r]
  by_cases temporary : r = t0
  · rw [if_pos temporary, temporary, limit]
  · rw [if_neg temporary]

end Wrapper

/-! ### The handler that returns at once -/

/-- The weak `trap_handler`, a single `ret`. -/
def weakHandler (m : Machine) : Machine := { m with hart := { m.hart with pc := m.hart.get ra } }

theorem weakHandler_obeys (handlerAddress : Word) : ObeysConvention handlerAddress weakHandler where
  returns := fun _ _ => rfl
  registers := fun _ _ _ _ => rfl
  saveArea := fun _ _ _ _ => rfl
  csrs := fun _ _ => ⟨rfl, rfl⟩

/-- `trap_handler` stands right before `__trap_entry`. -/
theorem weakHandler_placed : Placed 0x1004#32 0x1000#32 where
  even := by decide
  outside := by decide

/-- A machine at `__trap_entry` with a fresh stack, and a value in `t0`. -/
def trapped (value : Word) : Machine where
  hart :=
    { pc := 0x1004#32
      regs := fun r => if r = sp then 0x00400000#32 else if r = t0 then value else 0#32
      memory := fun _ => 0#8 }
  csr := fun address => if address = CSRRegister.MEPC then 0x2000#32 else 0#32

theorem trapped_limit_transparent :
    Transparent 0x1004#32 0x1000#32 weakHandler (trapped stackLimit) :=
  (transparent_iff _ _ _ _ weakHandler_placed (weakHandler_obeys _) rfl (by decide)).mpr rfl

/-- `t0` was zero in the interrupted code, and is the stack limit afterwards. -/
theorem trapped_zero_clobbered :
    Placed 0x1004#32 0x1000#32 ∧ ObeysConvention 0x1000#32 weakHandler ∧
      (trapped 0#32).hart.pc = 0x1004#32 ∧
      stackLimit.toNat ≤ ((trapped 0#32).hart.get sp - 128#32).toNat ∧
      ¬ Transparent 0x1004#32 0x1000#32 weakHandler (trapped 0#32) := by
  refine ⟨weakHandler_placed, weakHandler_obeys _, rfl, by decide, fun transparent => ?_⟩
  have limit :=
    transparent_limit weakHandler_placed (weakHandler_obeys _) rfl (by decide) transparent
  exact absurd limit (by decide)

end MyCpu.TrapEntry
