import MyCpu.Isa.Rv32im
import Mathlib.Logic.Function.Basic

/-! # Zicsr and the return from a trap

The CSR instructions and `MRET` over the unprivileged machine of `Rv32im`, and
straight-line code: instructions at consecutive addresses, and the word accesses
with which such code saves and restores registers. -/

namespace Rv32im

abbrev CsrAddr := BitVec 12

/-! ## Instructions -/

inductive CsrOp where
  | rw | rs | rc
deriving DecidableEq, Repr

/-- The source of the written value: a register, or the five-bit immediate in its place. -/
inductive CsrOperand where
  | reg (rs1 : Reg)
  | imm (value : BitVec 5)
deriving DecidableEq, Repr

inductive SystemInstr where
  | base (instr : Instr)
  | csr (op : CsrOp) (rd : Reg) (operand : CsrOperand) (address : CsrAddr)
  | mret
deriving DecidableEq, Repr

def CsrOp.eval (op : CsrOp) (old operand : Word) : Word :=
  match op with
  | .rw => operand
  | .rs => old ||| operand
  | .rc => old &&& ~~~operand

/-- `CSRRS` and `CSRRC` do not write when their source is `x0` or a zero immediate. -/
def CsrOp.writes (op : CsrOp) (operand : CsrOperand) : Bool :=
  op = .rw || (operand ≠ .reg 0#5 && operand ≠ .imm 0#5)

/-! ## Machine -/

def mstatusAddr : CsrAddr := 0x300#12
def mepcAddr : CsrAddr := 0x341#12

/-- A hart with its CSRs. -/
structure Machine where
  hart : Hart
  csr : CsrAddr → Word

/-- Trap return on `mstatus`: MIE takes MPIE, MPIE is set. -/
def mstatusReturn (mstatus : Word) : Word :=
  mstatus.extractLsb' 8 24 ++ 1#1 ++ mstatus.extractLsb' 4 3 ++ mstatus.extractLsb' 7 1 ++
    mstatus.extractLsb' 0 3

namespace Hart

def set (hart : Hart) (rd : Reg) (value : Word) : Hart :=
  if rd = 0#5 then hart else { hart with regs := Function.update hart.regs rd value }

theorem get_set (hart : Hart) (rd r : Reg) (value : Word) :
    (hart.set rd value).get r = if r = 0#5 then 0#32 else if r = rd then value else hart.get r := by
  by_cases zero : r = 0#5
  · simp [get, zero]
  · by_cases discarded : rd = 0#5
    · have other : r ≠ rd := fun same => zero (same.trans discarded)
      simp [get, set, zero, discarded]
    · by_cases same : r = rd
      · simp [get, set, same, discarded]
      · simp [get, set, zero, discarded, same]

end Hart

/-- The registers after an instruction that writes one. -/
theorem exec_get {hart : Hart} {instr : Instr} {rd : Reg} {value : Word}
    (written : instr.regWrite hart = some (rd, value)) (r : Reg) :
    (instr.exec hart).get r = if r = 0#5 then 0#32 else if r = rd then value else hart.get r := by
  by_cases zero : r = 0#5
  · simp [Hart.get, zero]
  · by_cases discarded : rd = 0#5
    · have other : r ≠ rd := fun same => zero (same.trans discarded)
      simp [Hart.get, Instr.exec, Instr.effectiveWrite, written, Option.filter, discarded, zero]
    · by_cases same : r = rd
      · simp [Hart.get, Instr.exec, Instr.effectiveWrite, written, Option.filter, discarded, same]
      · simp [Hart.get, Instr.exec, Instr.effectiveWrite, written, Option.filter,
          discarded, zero, same]

def CsrOperand.value (operand : CsrOperand) (hart : Hart) : Word :=
  match operand with
  | .reg rs1 => hart.get rs1
  | .imm value => value.zeroExtend 32

/-- One instruction; `legal` is the value that a CSR keeps of what is written to it. -/
def SystemInstr.exec (legal : CsrAddr → Word → Word) (m : Machine) : SystemInstr → Machine
  | .base instr => { m with hart := instr.exec m.hart }
  | .csr op rd operand address =>
    { hart := { m.hart.set rd (m.csr address) with pc := m.hart.pc + 4#32 }
      csr :=
        if op.writes operand then
          Function.update m.csr address
            (legal address (op.eval (m.csr address) (operand.value m.hart)))
        else m.csr }
  | .mret =>
    { hart := { m.hart with pc := m.csr mepcAddr }
      csr := Function.update m.csr mstatusAddr (mstatusReturn (m.csr mstatusAddr)) }

/-! ## Code at consecutive addresses -/

/-- Instructions from an address on, four bytes each. -/
def fetch (base : Word) (code : List SystemInstr) (pc : Word) : Option SystemInstr :=
  if (pc - base).toNat % 4 = 0 then code[(pc - base).toNat / 4]? else none

/-- The address of an instruction. -/
def addressOf (base : Word) (index : ℕ) : Word := base + BitVec.ofNat 32 (4 * index)

theorem addressOf_succ (base : Word) (index : ℕ) :
    addressOf base index + 4#32 = addressOf base (index + 1) := by
  rw [addressOf, addressOf, BitVec.add_assoc, show (4#32 : Word) = BitVec.ofNat 32 4 from rfl,
    BitVec.ofNat_add_ofNat, Nat.mul_succ]

theorem fetch_addressOf (base : Word) (code : List SystemInstr) (index : ℕ)
    (inside : 4 * index < 2 ^ 32) :
    fetch base code (addressOf base index) = code[index]? := by
  have offset : (addressOf base index - base).toNat = 4 * index := by
    rw [addressOf, BitVec.add_comm, BitVec.add_sub_cancel, BitVec.toNat_ofNat,
      Nat.mod_eq_of_lt inside]
  rw [fetch, offset, if_pos (Nat.mul_mod_right 4 index), Nat.mul_div_cancel_left index (by decide)]

/-- The instruction goes on to the next address. -/
def SystemInstr.Sequential : SystemInstr → Bool
  | .base (.jal _ _) | .base (.jalr _ _ _) | .base (.branch _ _ _ _) | .mret => false
  | _ => true

theorem exec_sequential (legal : CsrAddr → Word → Word) (m : Machine) {instr : SystemInstr}
    (sequential : instr.Sequential = true) : (instr.exec legal m).hart.pc = m.hart.pc + 4#32 := by
  cases instr with
  | base instr => cases instr <;> first | rfl | exact Bool.noConfusion sequential
  | csr op rd operand address => rfl
  | mret => exact Bool.noConfusion sequential

/-- The effect of a straight line of instructions. -/
def line (legal : CsrAddr → Word → Word) (m : Machine) (code : List SystemInstr) : Machine :=
  code.foldl (SystemInstr.exec legal) m

theorem line_pc (legal : CsrAddr → Word → Word) (base : Word) (m : Machine)
    (code : List SystemInstr) (index : ℕ)
    (start : m.hart.pc = addressOf base index)
    (sequential : code.all SystemInstr.Sequential = true) :
    (line legal m code).hart.pc = addressOf base (index + code.length) := by
  induction code generalizing m index with
  | nil => exact start
  | cons instr code inductionHypothesis =>
    simp only [List.all_cons, Bool.and_eq_true] at sequential
    have moved : (instr.exec legal m).hart.pc = addressOf base (index + 1) := by
      rw [exec_sequential legal m sequential.1, start, addressOf_succ]
    rw [List.length_cons, Nat.add_comm code.length, ← Nat.add_assoc]
    exact inductionHypothesis _ (index + 1) moved sequential.2

/-! ## Words in memory -/

/-- The words at two addresses do not overlap. -/
def Apart (a b : Word) : Prop := 4 ≤ (a - b).toNat ∧ 4 ≤ (b - a).toNat

instance (a b : Word) : Decidable (Apart a b) := inferInstanceAs (Decidable (_ ∧ _))

theorem Apart.symm {a b : Word} (apart : Apart a b) : Apart b a := And.symm apart

theorem Apart.add_left {a b : Word} (base : Word) (apart : Apart a b) :
    Apart (base + a) (base + b) := by
  rw [Apart, add_sub_add_left_eq_sub, add_sub_add_left_eq_sub]
  exact apart

theorem sw_byte (memory : Memory) (a value : Word) (k : ℕ) (inside : k < 4) :
    StoreOp.sw.eval memory a value (a + BitVec.ofNat 32 k) = value.extractLsb' (8 * k) 8 := by
  have offset : (a + BitVec.ofNat 32 k - a).toNat = k := by
    rw [BitVec.add_comm, BitVec.add_sub_cancel, BitVec.toNat_ofNat]
    omega
  rw [StoreOp.eval, offset, if_pos (show k < StoreOp.sw.size from inside)]

theorem sw_byte_apart (memory : Memory) {a b : Word} (value : Word) (k : ℕ)
    (inside : k < 4) (apart : Apart a b) :
    StoreOp.sw.eval memory b value (a + BitVec.ofNat 32 k) = memory (a + BitVec.ofNat 32 k) := by
  obtain ⟨above, below⟩ := apart
  have far : ¬ (a + BitVec.ofNat 32 k - b).toNat < StoreOp.sw.size := by
    simp only [BitVec.toNat_sub, BitVec.toNat_add, BitVec.toNat_ofNat,
      StoreOp.size] at above below ⊢
    have := a.isLt
    have := b.isLt
    omega
  rw [StoreOp.eval, if_neg far]

theorem lw_bytes (memory : Memory) (a : Word) :
    LoadOp.lw.eval memory a =
      memory (a + BitVec.ofNat 32 3) ++ memory (a + BitVec.ofNat 32 2) ++ memory
        (a + BitVec.ofNat 32 1) ++
        memory (a + BitVec.ofNat 32 0) := by
  rw [show a + BitVec.ofNat 32 0 = a from BitVec.add_zero a]
  rfl

/-- A word that has been stored is loaded again. -/
theorem lw_sw (memory : Memory) (a value : Word) :
    LoadOp.lw.eval (StoreOp.sw.eval memory a value) a = value := by
  rw [lw_bytes, sw_byte _ _ _ 3 (by decide), sw_byte _ _ _ 2 (by decide),
    sw_byte _ _ _ 1 (by decide), sw_byte _ _ _ 0 (by decide)]
  rw [BitVec.extractLsb'_append_extractLsb'_eq_extractLsb' (show 8 * 3 = 8 * 2 + 8 from rfl),
    BitVec.extractLsb'_append_extractLsb'_eq_extractLsb' (show 8 * 2 = 8 * 1 + 8 from rfl),
    BitVec.extractLsb'_append_extractLsb'_eq_extractLsb' (show 8 * 1 = 8 * 0 + 8 from rfl)]
  exact BitVec.extractLsb'_eq_self

theorem lw_sw_apart (memory : Memory) {a b : Word} (value : Word) (apart : Apart a b) :
    LoadOp.lw.eval (StoreOp.sw.eval memory b value) a = LoadOp.lw.eval memory a := by
  rw [lw_bytes, lw_bytes, sw_byte_apart _ _ 3 (by decide) apart,
    sw_byte_apart _ _ 2 (by decide) apart, sw_byte_apart _ _ 1 (by decide) apart,
    sw_byte_apart _ _ 0 (by decide) apart]

/-- The word at an address depends on its four bytes only. -/
theorem lw_congr {memory memory' : Memory} {a : Word}
    (agree : ∀ k < 4, memory' (a + BitVec.ofNat 32 k) = memory (a + BitVec.ofNat 32 k)) :
    LoadOp.lw.eval memory' a = LoadOp.lw.eval memory a := by
  rw [lw_bytes, lw_bytes, agree 3 (by decide), agree 2 (by decide),
    agree 1 (by decide), agree 0 (by decide)]

/-! ## Saving and restoring registers -/

/-- A register and its place in the save area. -/
structure Slot where
  reg : Reg
  offset : Word
deriving DecidableEq, Repr

/-- `sw reg, offset(sp)` for each slot. -/
def saves (sp : Reg) (slots : List Slot) : List SystemInstr :=
  slots.map fun slot => .base (.store .sw sp slot.reg slot.offset)

/-- `lw reg, offset(sp)` for each slot. -/
def restores (sp : Reg) (slots : List Slot) : List SystemInstr :=
  slots.map fun slot => .base (.load .lw slot.reg sp slot.offset)

section SaveArea

variable (legal : CsrAddr → Word → Word) (sp : Reg) (m : Machine)

theorem saves_frame (slots : List Slot) :
    (line legal m (saves sp slots)).hart.regs = m.hart.regs ∧
      (line legal m (saves sp slots)).csr = m.csr := by
  induction slots generalizing m with
  | nil => exact ⟨rfl, rfl⟩
  | cons slot slots inductionHypothesis => exact inductionHypothesis _

theorem saves_apart (slots : List Slot) (a : Word)
    (apart : ∀ slot ∈ slots, Apart a (m.hart.get sp + slot.offset)) :
    LoadOp.lw.eval (line legal m (saves sp slots)).hart.memory a =
      LoadOp.lw.eval m.hart.memory a := by
  induction slots generalizing m with
  | nil => rfl
  | cons slot slots inductionHypothesis =>
    have rest :=
      inductionHypothesis (SystemInstr.exec legal m (.base (.store .sw sp slot.reg slot.offset)))
        fun other member => apart other (List.mem_cons_of_mem slot member)
    exact rest.trans (lw_sw_apart _ _ (apart slot List.mem_cons_self))

/-- Every register is found in its slot. -/
theorem saves_stored (slots : List Slot)
    (disjoint : slots.Pairwise fun s t => Apart s.offset t.offset) :
    ∀ slot ∈ slots, LoadOp.lw.eval (line legal m (saves sp slots)).hart.memory
      (m.hart.get sp + slot.offset) =
      m.hart.get slot.reg := by
  induction slots generalizing m with
  | nil => exact fun slot member => nomatch member
  | cons slot slots inductionHypothesis =>
    rw [List.pairwise_cons] at disjoint
    have stored :=
      inductionHypothesis
        (SystemInstr.exec legal m (.base (.store .sw sp slot.reg slot.offset))) disjoint.2
    intro other member
    cases List.mem_cons.mp member with
    | inl same =>
      subst same
      -- the later stores miss the slot of the first one
      have kept := saves_apart legal sp
        (SystemInstr.exec legal m (.base (.store .sw sp other.reg other.offset))) slots
        (m.hart.get sp + other.offset) fun later present => (disjoint.1 later present).add_left _
      exact kept.trans (lw_sw _ _ _)
    | inr present => exact stored other present

variable {legal} {sp} in
theorem lw_get_other {rd r : Reg} {offset : Word} (other : r ≠ rd) :
    (SystemInstr.exec legal m (.base (.load .lw rd sp offset))).hart.get r = m.hart.get r := by
  refine (exec_get rfl r).trans ?_
  rw [if_neg other]
  by_cases zero : r = 0#5
  · rw [if_pos zero, zero]
    rfl
  · rw [if_neg zero]

variable {legal} {sp} in
theorem lw_get {rd : Reg} {offset : Word} (proper : rd ≠ 0#5) :
    (SystemInstr.exec legal m (.base (.load .lw rd sp offset))).hart.get rd =
      LoadOp.lw.eval m.hart.memory (m.hart.get sp + offset) := by
  refine (exec_get rfl rd).trans ?_
  rw [if_neg proper, if_pos rfl]

theorem restores_frame (slots : List Slot) :
    (line legal m (restores sp slots)).hart.memory = m.hart.memory ∧
      (line legal m (restores sp slots)).csr = m.csr ∧
      ∀ r ∉ slots.map Slot.reg, (line legal m (restores sp slots)).hart.get r = m.hart.get r := by
  induction slots generalizing m with
  | nil => exact ⟨rfl, rfl, fun _ _ => rfl⟩
  | cons slot slots inductionHypothesis =>
    obtain ⟨memory, csr, kept⟩ :=
      inductionHypothesis (SystemInstr.exec legal m (.base (.load .lw slot.reg sp slot.offset)))
    refine ⟨memory, csr, fun r absent => ?_⟩
    rw [List.map_cons, List.mem_cons, not_or] at absent
    exact (kept r absent.2).trans (lw_get_other m absent.1)

/-- Every register takes the word of its slot. -/
theorem restores_loaded (slots : List Slot) (distinct : (sp :: slots.map Slot.reg).Nodup)
    (proper : ∀ slot ∈ slots, slot.reg ≠ 0#5) :
    ∀ slot ∈ slots, (line legal m (restores sp slots)).hart.get slot.reg =
      LoadOp.lw.eval m.hart.memory (m.hart.get sp + slot.offset) := by
  induction slots generalizing m with
  | nil => exact fun slot member => nomatch member
  | cons slot slots inductionHypothesis =>
    rw [List.map_cons, List.nodup_cons, List.nodup_cons, List.mem_cons, not_or] at distinct
    obtain ⟨⟨other, absent⟩, unique, nodup⟩ := distinct
    have loaded :=
      inductionHypothesis (SystemInstr.exec legal m (.base (.load .lw slot.reg sp slot.offset)))
        (List.nodup_cons.mpr ⟨absent, nodup⟩)
          fun later present => proper later (List.mem_cons_of_mem slot present)
    rw [lw_get_other m other] at loaded
    intro target member
    cases List.mem_cons.mp member with
    | inl same =>
      subst same
      have kept :=
        (restores_frame legal sp
          (SystemInstr.exec legal m (.base (.load .lw target.reg sp target.offset)))
          slots).2.2 target.reg unique
      exact kept.trans (lw_get m (proper target member))
    | inr present => exact loaded target present

end SaveArea

end Rv32im
