import MyCpu.Isa.Zicsr

/-! # Zicsr programs

The CSR instructions among the legal words, the events of an instruction, and the
sequential machine that runs a program of unprivileged and CSR instructions.  Which
CSRs a program may name is a parameter, as is the value that a CSR keeps of a write. -/

namespace Rv32im

/-! ## Decoding -/

section Fields

variable (word : Word)

def csrAddress : CsrAddr := word.extractLsb' 20 12

/-- The source of a CSR instruction: `rs1`, or its five bits as a constant. -/
def csrOperand (immediate : Bool) : CsrOperand :=
  if immediate then .imm (rs1 word) else .reg (rs1 word)

end Fields

/-- The operation, and whether the source is the immediate one. -/
def decodeCsrForm : BitVec 3 → Option (CsrOp × Bool)
  | 0b001#3 => some (.rw, false)
  | 0b010#3 => some (.rs, false)
  | 0b011#3 => some (.rc, false)
  | 0b101#3 => some (.rw, true)
  | 0b110#3 => some (.rs, true)
  | 0b111#3 => some (.rc, true)
  | _ => none

def decodeCsr (word : Word) : Option SystemInstr :=
  if opcode word = 0b1110011#7 then
    (decodeCsrForm (funct3 word)).map fun form =>
      .csr form.1 (rd word) (csrOperand word form.2) (csrAddress word)
  else none

/-- The instruction of a word of an unprivileged program with CSR instructions. -/
def decodeSystem (word : Word) : Option SystemInstr :=
  match decode word with
  | some instr => some (.base instr)
  | none => decodeCsr word

/-- The legal words of such a program. -/
inductive SystemEncodes (word : Word) (instr : SystemInstr) : Prop where
  | base (plain : Instr) (encodes : Encodes word plain) (form : instr = .base plain)
  | csr (op : CsrOp) (immediate : Bool) (code : opcode word = 0b1110011#7)
      (selected : decodeCsrForm (funct3 word) = some (op, immediate))
      (form : instr = .csr op (rd word) (csrOperand word immediate) (csrAddress word))

theorem decodeSystem_encodes {word : Word} {instr : SystemInstr}
    (decoded : decodeSystem word = some instr) :
    SystemEncodes word instr := by
  rw [decodeSystem] at decoded
  cases base : decode word with
  | some plain =>
    rw [base] at decoded
    exact .base plain (decode_encodes base) (Option.some.inj decoded).symm
  | none =>
    rw [base] at decoded
    simp only [decodeCsr] at decoded
    by_cases code : opcode word = 0b1110011#7
    · rw [if_pos code] at decoded
      obtain ⟨⟨op, immediate⟩, selected, form⟩ := Option.map_eq_some_iff.mp decoded
      exact .csr op immediate code selected form.symm
    · rw [if_neg code] at decoded
      exact absurd decoded.symm (Option.some_ne_none instr)

/-! ## Events -/

namespace SystemInstr

variable (m : Machine)

def events : SystemInstr → List Event
  | .base instr => instr.events m.hart
  | .csr _ rd _ address =>
    [.retire m.hart.pc ((some (rd, m.csr address)).filter fun write => write.1 ≠ 0#5)]
  | .mret => [.retire m.hart.pc none]

/-- The data access stays inside one aligned word, and a CSR that is named is one of the allowed
    ones. -/
def Admissible (allowed : CsrAddr → Bool) : SystemInstr → Prop
  | .base instr => InsideWord instr m.hart
  | .csr _ _ _ address => allowed address = true
  | .mret => True

/-- Admissible whatever the state. -/
def admissible (allowed : CsrAddr → Bool) : SystemInstr → Bool
  | .base instr => instr.fixedAccess
  | .csr _ _ _ address => allowed address
  | .mret => true

theorem admissible_always {allowed : CsrAddr → Bool} {instr : SystemInstr}
    (fixed : instr.admissible allowed = true) :
    instr.Admissible m allowed := by
  cases instr with
  | base instr => exact insideWord_fixedAccess fixed m.hart
  | csr op rd operand address => exact fixed
  | mret => exact trivial

end SystemInstr

/-! ## The sequential machine -/

namespace Machine

variable (legal : CsrAddr → Word → Word) (allowed : CsrAddr → Bool) (program : Program)

/-- One instruction; a word that is not an instruction stops the machine. -/
def next (m : Machine) : Machine :=
  match decodeSystem (program m.hart.pc) with
  | some instr => instr.exec legal m
  | none => m

def emit (m : Machine) : List Event :=
  match decodeSystem (program m.hart.pc) with
  | some instr => instr.events m
  | none => []

/-- Along the run every word is an instruction that is admissible there. -/
def LegalRun (m : Machine) : Prop :=
  ∀ k, ∃ instr, decodeSystem (program ((next legal program)^[k] m).hart.pc) = some instr ∧
    instr.Admissible ((next legal program)^[k] m) allowed

variable {legal allowed program} {m : Machine} {instr : SystemInstr}

theorem next_decoded (decoded : decodeSystem (program m.hart.pc) = some instr) :
    next legal program m = instr.exec legal m := by
  simp only [next, decoded]

theorem emit_decoded (decoded : decodeSystem (program m.hart.pc) = some instr) :
    emit program m = instr.events m := by
  simp only [emit, decoded]

theorem LegalRun.next (run : LegalRun legal allowed program m)
    (decoded : decodeSystem (program m.hart.pc) = some instr) :
    LegalRun legal allowed program (instr.exec legal m) := by
  rw [← next_decoded decoded]
  exact fun k => run (k + 1)

theorem LegalRun.admissible (run : LegalRun legal allowed program m)
    (decoded : decodeSystem (program m.hart.pc) = some instr) : instr.Admissible m allowed := by
  obtain ⟨other, decoded', admissible⟩ := run 0
  have same : instr = other := Option.some.inj (decoded.symm.trans decoded')
  rw [same]
  exact admissible

/-- A program whose words are all admissible whatever the state. -/
theorem legalRun_ofWords {base : Word} {words : List Word}
    (admissible : words.all (fun word => (decodeSystem word).any (SystemInstr.admissible allowed)) =
      true)
    (m : Machine) : LegalRun legal allowed (.ofWords base words) m := by
  intro k
  have fetched : ∀ pc, (decodeSystem (Program.ofWords base words pc)).any
      (SystemInstr.admissible allowed) = true := by
    intro pc
    rw [Program.ofWords, List.getD_eq_getElem?_getD]
    cases found : words[((pc - base) >>> 2).toNat]? with
    | none => rfl
    | some word => exact List.all_eq_true.mp admissible word (List.mem_of_getElem? found)
  obtain ⟨instr, decoded, fixed⟩ := (Option.any_eq_true _ _).mp (fetched _)
  exact ⟨instr, decoded, instr.admissible_always _ fixed⟩

end Machine

end Rv32im
