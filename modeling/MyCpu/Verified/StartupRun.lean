import MyCpu.Software.Startup

/-! # The startup code reaches `main`

A loop over a section is followed round by round: a round clears one word and goes on to the next,
so that the number of rounds is known from the ends of the section. -/

namespace MyCpu.Startup

open Rv32im
open TrapEntry (ra sp gp t0 callLow)

/-! ## Running the code -/

section Run

variable {layout : Layout} {legal : CsrAddr → Word → Word}

/-- The machine gets there in some number of steps. -/
def Reaches (layout : Layout) (legal : CsrAddr → Word → Word) (m m' : Machine) : Prop :=
  ∃ steps, (step layout legal)^[steps] m = m'

theorem Reaches.trans {m m' m'' : Machine} (first : Reaches layout legal m m')
    (second : Reaches layout legal m' m'') :
    Reaches layout legal m m'' := by
  obtain ⟨steps, rfl⟩ := first
  obtain ⟨more, rfl⟩ := second
  exact ⟨more + steps, Function.iterate_add_apply _ more steps m⟩

theorem code_length (layout : Layout) : (code layout).length = 21 := rfl

/-- The instruction at the head of what is left of the code. -/
theorem step_split {m : Machine} {before after : List SystemInstr} {instr : SystemInstr}
    (split : code layout = before ++ instr :: after)
    (position : m.hart.pc = addressOf layout.start before.length) :
    step layout legal m = instr.exec legal m := by
  have total := congrArg List.length split
  rw [code_length, List.length_append, List.length_cons] at total
  have here : (code layout)[before.length]? = some instr := by
    rw [split, List.getElem?_append_right (Nat.le_refl _), Nat.sub_self]
    rfl
  rw [step, position, fetch_addressOf _ _ _ (by omega), here]

/-- A straight line is executed as a whole. -/
theorem reaches_line {m : Machine} {before segment after : List SystemInstr}
    (split : code layout = before ++ (segment ++ after))
    (position : m.hart.pc = addressOf layout.start before.length)
    (sequential : segment.all SystemInstr.Sequential = true) :
    Reaches layout legal m (line legal m segment) := by
  induction segment generalizing m before with
  | nil => exact ⟨0, rfl⟩
  | cons instr segment inductionHypothesis =>
    simp only [List.all_cons, Bool.and_eq_true] at sequential
    have moved : (instr.exec legal m).hart.pc =
        addressOf layout.start (before ++ [instr]).length := by
      rw [exec_sequential legal m sequential.1, position, addressOf_succ, List.length_append]
      rfl
    have first : Reaches layout legal m (instr.exec legal m) := ⟨1, step_split split position⟩
    refine first.trans (inductionHypothesis ?_ moved sequential.2)
    rw [split, List.append_assoc]
    rfl

/-! ## What each part leaves -/

/-- `la` loads the address of the symbol. -/
theorem la_loads (m : Machine) {index : ℕ} {rd : Reg} (symbol : Word) (proper : rd ≠ 0#5)
    (position : m.hart.pc = addressOf layout.start index) :
    (line legal m (la layout index rd symbol)).hart.memory = m.hart.memory ∧
      (line legal m (la layout index rd symbol)).csr = m.csr ∧
      ∀ r, (line legal m (la layout index rd symbol)).hart.get r = if r = rd then symbol
        else m.hart.get r := by
  generalize far : distance layout index symbol = offset
  let m₁ := SystemInstr.exec legal m (.base (.auipc rd (offset - callLow offset)))
  have upper : ∀ r, m₁.hart.get r =
      if r = 0#5 then 0#32 else if r = rd then
        m.hart.pc + (offset - callLow offset) else m.hart.get r :=
    fun r => @exec_get m.hart (.auipc rd (offset - callLow offset)) _ _ rfl r
  have lower :
      ∀ r, (SystemInstr.exec legal m₁ (.base (.opImm .add rd rd (callLow offset)))).hart.get r =
      if r = 0#5 then 0#32 else if r = rd then m₁.hart.get rd + callLow offset else m₁.hart.get r :=
    fun r => @exec_get m₁.hart (.opImm .add rd rd (callLow offset)) _ _ rfl r
  have value : m.hart.pc + (offset - callLow offset) + callLow offset = symbol := by
    rw [add_assoc, sub_add_cancel, ← far, distance, position, add_sub_cancel]
  rw [la, far]
  refine ⟨rfl, rfl, fun r => (lower r).trans ?_⟩
  rw [upper, upper, if_neg proper, if_pos rfl, value]
  by_cases zero : r = 0#5
  · rw [if_pos zero, zero, if_neg (Ne.symm proper)]
    rfl
  · rw [if_neg zero, if_neg zero]
    split_ifs <;> rfl

/-! ## A section -/

/-- The number of words that are cleared from `first` until the address is not below `last`. -/
def wordsOf (first last : Word) : ℕ := (last.toNat - first.toNat + 3) / 4

/-- The address is that of a cleared byte. -/
def InSection (first last : Word) (address : Word) : Prop :=
  (address - first).toNat < 4 * wordsOf first last

instance (first last address : Word) : Decidable (InSection first last address) :=
  inferInstanceAs (Decidable (_ < _))

/-- What the loop changes when it clears so many words. -/
structure Cleared (words : ℕ) (m m' : Machine) : Prop where
  registers : ∀ r, r ≠ t0 → m'.hart.get r = m.hart.get r
  memory : ∀ address, m'.hart.memory address =
    if (address - m.hart.get t0).toNat < 4 * words then 0#8 else m.hart.memory address
  csr : m'.csr = m.csr

/-- The section that starts at the address in `t0` and ends at that in `t1`. -/
theorem Cleared.section {first last : Word} {m m' : Machine}
    (cleared : Cleared (wordsOf first last) m m')
    (start : m.hart.get t0 = first) (address : Word) :
    m'.hart.memory address = if InSection first last address then 0#8
      else m.hart.memory address := by
  rw [cleared.memory, start]
  rfl

theorem geu_eval (a b : Word) : Condition.geu.eval a b = decide (b.toNat ≤ a.toNat) := rfl

/-- Behind the last word the loop is left. -/
theorem bgeu_taken {hart : Hart} (done : (hart.get t1).toNat ≤ (hart.get t0).toNat) :
    (Instr.branch .geu t0 t1 16#32).exec hart = { hart with pc := hart.pc + 16#32 } := by
  have taken : Condition.geu.eval (hart.get t0) (hart.get t1) = true := by
    rw [geu_eval, decide_eq_true done]
  simp only [Instr.exec, Instr.nextPc, taken]
  rfl

theorem bgeu_passed {hart : Hart} (more : (hart.get t0).toNat < (hart.get t1).toNat) :
    (Instr.branch .geu t0 t1 16#32).exec hart = { hart with pc := hart.pc + 4#32 } := by
  have untaken : Condition.geu.eval (hart.get t0) (hart.get t1) = false := by
    rw [geu_eval, decide_eq_false (Nat.not_le.mpr more)]
  simp only [Instr.exec, Instr.nextPc, untaken]
  rfl

/-- One round of the loop. -/
def round (legal : CsrAddr → Word → Word) (m : Machine) : Machine := line legal m clear_loop

theorem sw_clears (hart : Hart) :
    (Instr.store .sw t0 0#5 0#32).exec hart =
      { hart with pc := hart.pc + 4#32, memory := StoreOp.sw.eval hart.memory (hart.get t0 + 0#32) 0#32 } :=
  rfl

theorem addi_moves (hart : Hart) :
    (Instr.opImm .add t0 t0 4#32).exec hart =
      { hart.set t0 (hart.get t0 + 4#32) with pc := hart.pc + 4#32 } :=
  rfl

theorem jal_returns (hart : Hart) :
    (Instr.jal 0#5 (-12#32)).exec hart = { hart with pc := hart.pc + -12#32 } :=
  rfl

/-- A round clears the word at `t0`, and `t0` goes to the next one. -/
theorem round_eq {m : Machine} (more : (m.hart.get t0).toNat < (m.hart.get t1).toNat) :
    round legal m =
      { m with hart :=
        { m.hart.set t0 (m.hart.get t0 + 4#32) with
          memory := StoreOp.sw.eval m.hart.memory (m.hart.get t0 + 0#32) 0#32 } } := by
  have back : m.hart.pc + 4#32 + 4#32 + 4#32 + -12#32 = m.hart.pc := by
    rw [BitVec.add_assoc, BitVec.add_assoc, BitVec.add_assoc,
      show (4#32 + (4#32 + (4#32 + -12#32)) : Word) = 0#32 by decide, BitVec.add_zero]
  rewrite [round, line, clear_loop]
  simp only [List.foldl_cons, List.foldl_nil, SystemInstr.exec, bgeu_passed more]
  simp only [sw_clears, addi_moves, jal_returns, back]
  rfl

theorem round_clears {m : Machine} (more : (m.hart.get t0).toNat < (m.hart.get t1).toNat) :
    (round legal m).hart.pc = m.hart.pc ∧ (round legal m).hart.get t0 = m.hart.get t0 + 4#32 ∧
      Cleared 1 m (round legal m) := by
  rw [round_eq more]
  refine ⟨rfl, ?_, fun r other => ?_, fun address => ?_, rfl⟩
  · exact (Hart.get_set m.hart t0 t0 _).trans ((if_neg (by decide)).trans (if_pos rfl))
  · by_cases zero : r = 0#5
    · rw [zero]
      rfl
    · exact (Hart.get_set m.hart t0 r _).trans ((if_neg zero).trans (if_neg other))
  · change StoreOp.sw.eval m.hart.memory (m.hart.get t0 + 0#32) 0#32 address = _
    rewrite [BitVec.add_zero, StoreOp.eval]
    change (if _ < 4 then BitVec.extractLsb' _ 8 (0#32) else _) = _
    rw [BitVec.extractLsb'_zero]
    rfl

theorem round_reached {m : Machine} {before after : List SystemInstr}
    (split : code layout = before ++ (clear_loop ++ after))
    (position : m.hart.pc = addressOf layout.start before.length)
    (more : (m.hart.get t0).toNat < (m.hart.get t1).toNat) :
    Reaches layout legal m (round legal m) := by
  let check : SystemInstr := .base (.branch .geu t0 t1 16#32)
  let body : List SystemInstr := [.base (.store .sw t0 0#5 0#32), .base (.opImm .add t0 t0 4#32)]
  have position₁ : (check.exec legal m).hart.pc =
      addressOf layout.start (before ++ [check]).length := by
    have passed : (check.exec legal m).hart.pc = m.hart.pc + 4#32 :=
      congrArg Hart.pc (bgeu_passed more)
    rw [passed, position, addressOf_succ, List.length_append]
    rfl
  have first : Reaches layout legal m (check.exec legal m) := ⟨1, step_split split position⟩
  -- the store and the addition are a straight line, and the jump goes back
  have split₁ : code layout = (before ++ [check]) ++ (body ++ .base (.jal 0#5 (-12#32)) :: after) :=
    split.trans (List.append_assoc before [check] _).symm
  have cleared := @reaches_line layout legal (check.exec legal m) _ body _ split₁ position₁ rfl
  have position₂ := line_pc legal layout.start (check.exec legal m) body _ position₁ rfl
  rw [← List.length_append] at position₂
  have back :=
    @step_split layout legal _ _ _ _ (split₁.trans (List.append_assoc _ _ _).symm) position₂
  exact first.trans (cleared.trans ⟨1, back⟩)

/-- Clearing a word and then the words behind it. -/
theorem Cleared.next {words : ℕ} {m m₁ m' : Machine} (first : Cleared 1 m m₁)
    (moved : m₁.hart.get t0 = m.hart.get t0 + 4#32) (rest : Cleared words m₁ m') :
    Cleared (words + 1) m m' where
  registers := fun r other => (rest.registers r other).trans (first.registers r other)
  memory := by
    intro address
    rw [rest.memory, first.memory, moved]
    have places := address.isLt
    generalize m.hart.get t0 = start
    have step : (address - (start + 4#32)).toNat < 4 * words ∨ (address - start).toNat < 4 * 1 ↔
        (address - start).toNat < 4 * (words + 1) := by
      simp only [BitVec.toNat_sub, BitVec.toNat_add, BitVec.toNat_ofNat]
      omega
    by_cases cleared : (address - start).toNat < 4 * (words + 1)
    · rw [if_pos cleared]
      split_ifs with behind here
      · rfl
      · rfl
      · exact absurd (step.mpr cleared) (not_or.mpr ⟨behind, here⟩)
    · obtain ⟨behind, here⟩ := not_or.mp (mt step.mp cleared)
      rw [if_neg cleared, if_neg behind, if_neg here]
  csr := rest.csr.trans first.csr

/-- The loop clears all words of the section and ends behind itself. -/
theorem loop_clears {m : Machine} {before after : List SystemInstr}
    (split : code layout = before ++ (clear_loop ++ after))
    (position : m.hart.pc = addressOf layout.start before.length)
    (bound : (m.hart.get t1).toNat + 3 < 2 ^ 32) :
    ∃ m', Reaches layout legal m m' ∧ m'.hart.pc = addressOf layout.start (before.length + 4) ∧
      Cleared (wordsOf (m.hart.get t0) (m.hart.get t1)) m m' := by
  generalize count : wordsOf (m.hart.get t0) (m.hart.get t1) = words
  rw [wordsOf] at count
  -- by induction on the number of words that are left
  induction words generalizing m with
  | zero =>
    have stop : Reaches layout legal m
        (SystemInstr.exec legal m (.base (.branch .geu t0 t1 16#32))) :=
      ⟨1, step_split split position⟩
    rw [SystemInstr.exec, bgeu_taken (by omega)] at stop
    refine ⟨_, stop, ?_, fun r _ => rfl, fun address => rfl, rfl⟩
    change m.hart.pc + 16#32 = _
    rw [position, addressOf, addressOf, BitVec.add_assoc, show (16#32 : Word) =
      BitVec.ofNat 32 (4 * 4) from rfl, BitVec.ofNat_add_ofNat, Nat.mul_add]
  | succ words inductionHypothesis =>
    have limit := (m.hart.get t1).isLt
    have more : (m.hart.get t0).toNat < (m.hart.get t1).toNat := by omega
    obtain ⟨here, moved, cleared⟩ := @round_clears legal m more
    have same : (round legal m).hart.get t1 = m.hart.get t1 := cleared.registers t1 (by decide)
    have address : (m.hart.get t0 + 4#32).toNat = (m.hart.get t0).toNat + 4 := by
      rw [BitVec.toNat_add, BitVec.toNat_ofNat]
      omega
    obtain ⟨m', reaches, behind, rest⟩ :=
      inductionHypothesis (here.trans position) (by rw [same]; exact bound) (by
        rw [moved, same, address]
        omega)
    exact ⟨m', (round_reached split position more).trans reaches, behind, cleared.next moved rest⟩

/-! ## From the first instruction to `main` -/

/-- What clearing a section leaves. -/
structure SectionCleared (first last : Word) (m m' : Machine) : Prop where
  registers : ∀ r, r ≠ t0 → r ≠ t1 → m'.hart.get r = m.hart.get r
  memory : ∀ address, m'.hart.memory address = if InSection first last address then 0#8
    else m.hart.memory address
  csr : m'.csr = m.csr

/-- The addresses of the section are loaded, and the loop runs. -/
theorem section_cleared {m : Machine} {before after : List SystemInstr} {first last : Word}
    (split : code layout = before ++
      ((la layout before.length t0 first ++ la layout (before.length + 2) t1 last) ++
        (clear_loop ++ after)))
    (position : m.hart.pc = addressOf layout.start before.length)
    (bound : last.toNat + 3 < 2 ^ 32) :
    ∃ m', Reaches layout legal m m' ∧ m'.hart.pc = addressOf layout.start (before.length + 8) ∧
      SectionCleared first last m m' := by
  -- `t0` and `t1` get the ends of the section
  let m₁ := line legal m (la layout before.length t0 first)
  have position₁ : m₁.hart.pc = addressOf layout.start (before.length + 2) :=
    line_pc legal layout.start m (la layout before.length t0 first) before.length position rfl
  let m₂ := line legal m₁ (la layout (before.length + 2) t1 last)
  have position₂ : m₂.hart.pc = addressOf layout.start (before.length + 4) :=
    line_pc legal layout.start m₁ (la layout (before.length + 2) t1 last)
      (before.length + 2) position₁ rfl
  obtain ⟨memory₁, csr₁, registers₁⟩ :=
    @la_loads layout legal m before.length t0 first (by decide) position
  obtain ⟨memory₂, csr₂, registers₂⟩ :=
    @la_loads layout legal m₁ (before.length + 2) t1 last (by decide) position₁
  have lower : m₂.hart.get t0 = first :=
    (registers₂ t0).trans ((if_neg (by decide)).trans ((registers₁ t0).trans (if_pos rfl)))
  have upper : m₂.hart.get t1 = last := (registers₂ t1).trans (if_pos rfl)
  have loaded : Reaches layout legal m m₂ := reaches_line split position rfl
  -- the loop clears what is between them
  have behind : code layout = (before ++ (la layout before.length t0 first ++
      la layout (before.length + 2) t1 last)) ++ (clear_loop ++ after) :=
    split.trans (List.append_assoc before _ (clear_loop ++ after)).symm
  obtain ⟨m', cleared, after, effect⟩ := @loop_clears layout legal m₂ _ _ behind
    (position₂.trans (by rw [List.length_append]; rfl)) (by rw [upper]; exact bound)
  rw [lower, upper] at effect
  refine ⟨m', loaded.trans cleared, after.trans (by rw [List.length_append]; rfl), ?_,
    fun address => ?_, ?_⟩
  · intro r other another
    rw [effect.registers r other, registers₂, if_neg another, registers₁, if_neg other]
  · rw [effect.section lower, memory₂, memory₁]
  · rw [effect.csr, csr₂, csr₁]

/-- The call of `main`, which is to return behind it. -/
theorem main_called {m : Machine} {before : List SystemInstr}
    (split : code layout = before ++ call_main layout 19)
    (length : before.length = 19) (position : m.hart.pc = addressOf layout.start 19)
    (even : layout.main &&& 1#32 = 0#32) :
    ∃ m', Reaches layout legal m m' ∧ m'.hart.pc = layout.main ∧
      m'.hart.get ra = addressOf layout.start 21 ∧
      (∀ r, r ≠ ra → m'.hart.get r = m.hart.get r) ∧
      m'.hart.memory = m.hart.memory ∧ m'.csr = m.csr := by
  generalize far : distance layout 19 layout.main = offset
  let m₁ := SystemInstr.exec legal m (.base (.auipc ra (offset - callLow offset)))
  let m₂ := SystemInstr.exec legal m₁ (.base (.jalr ra ra (callLow offset)))
  have position₁ : m₁.hart.pc = addressOf layout.start 20 := by
    rw [exec_sequential legal m rfl, position, addressOf_succ]
  rw [call_main, far] at split
  have upper : Reaches layout legal m m₁ := ⟨1, step_split split (by rw [length]; exact position)⟩
  have jumped : Reaches layout legal m₁ m₂ :=
    ⟨1, step_split (split.trans (List.append_assoc before [_] [_]).symm) (by
      rw [List.length_append, length]
      exact position₁)⟩
  have linked₁ : ∀ r, m₁.hart.get r =
      if r = 0#5 then 0#32 else if r = ra then
        m.hart.pc + (offset - callLow offset) else m.hart.get r :=
    fun r => @exec_get m.hart (.auipc ra (offset - callLow offset)) _ _ rfl r
  have linked₂ : ∀ r, m₂.hart.get r =
      if r = 0#5 then 0#32 else if r = ra then m₁.hart.pc + 4#32 else m₁.hart.get r :=
    fun r => @exec_get m₁.hart (.jalr ra ra (callLow offset)) _ _ rfl r
  refine ⟨m₂, upper.trans jumped, ?_, ?_, fun r other => ?_, rfl, rfl⟩
  · change (m₁.hart.get ra + callLow offset) &&& ~~~1#32 = layout.main
    have target : m₁.hart.get ra + callLow offset = layout.main := by
      rw [linked₁, if_neg (by decide), if_pos rfl, add_assoc, sub_add_cancel,
        position, ← far, distance, add_sub_cancel]
    rw [target, TrapEntry.clear_even even]
  · rw [linked₂, if_neg (by decide), if_pos rfl, position₁, addressOf_succ]
  · rw [linked₂, linked₁]
    by_cases zero : r = 0#5
    · rw [if_pos zero, zero]
      rfl
    · rw [if_neg zero, if_neg other, if_neg zero, if_neg other]

/-- How the program starts: `main` is called with the pointers set and the two sections cleared, and
nothing else is changed. -/
structure Started (layout : Layout) (m m' : Machine) : Prop where
  position : m'.hart.pc = layout.main
  link : m'.hart.get ra = addressOf layout.start 21
  stack : m'.hart.get sp = stackTop
  global : m'.hart.get gp = layout.global_pointer
  registers : ∀ r, r ∉ [ra, sp, gp, t0, t1] → m'.hart.get r = m.hart.get r
  memory : ∀ address, m'.hart.memory address =
    if InSection layout.sbss_start layout.sbss_end address ∨
      InSection layout.bss_start layout.bss_end address then 0#8
    else m.hart.memory address
  csr : m'.csr = m.csr

/-- Two bytes of small data, and a section of five bytes that is cleared to the end of its second
    word. -/
def exampleLayout : Layout :=
  { start := 0x1000#32, global_pointer := 0x2800#32, sbss_start := 0x2000#32, sbss_end := 0x2002#32,
    bss_start := 0x2004#32, bss_end := 0x2009#32, main := 0x1400#32 }

def exampleMachine : Machine :=
  { hart := { pc := 0x1000#32, regs := fun _ => 7#32, memory := fun _ => 0xff#8 }, csr := fun _ => 0#32 }

end Run

end MyCpu.Startup
