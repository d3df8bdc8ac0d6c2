import Mathlib.Data.Fin.Basic
import MyCpu.Software.Nyancat
import MyCpu.Verified.VgaDisplay

/-! # Frames survive compression

The generator writes opcodes, each of which is one byte; the two forms of a frame give
the bytes different meanings.  The bytes of a frame are the opcodes of a drawing of
the frame, and the two decoders in C and the two in Python carry out the drawing. -/

namespace MyCpu

open RunLength

/-! ## Opcodes -/

/-- A frame on its own, or relative to the frame before. -/
inductive NyancatForm where
  | baseline
  | delta
deriving DecidableEq, Repr

/-- The opcodes with their four parameter bits. -/
inductive NyancatOpcode where
  | setColor (color : Fin 16)
  | skip1 (param : Fin 16)
  | skip16 (param : Fin 16)
  | skip64 (param : Fin 16)
  | repeat1 (param : Fin 16)
  | repeat16 (param : Fin 16)
deriving DecidableEq, Repr

namespace NyancatOpcode

/-- The type bits, as both decoders list them. -/
def type : NyancatForm → NyancatOpcode → Fin 6
  | _, setColor _ => 0
  | _, skip1 _ => 1
  | _, repeat1 _ => 2
  | _, skip16 _ => 3
  | .baseline, repeat16 _ => 3
  | .delta, repeat16 _ => 4
  | _, skip64 _ => 5

def param : NyancatOpcode → Fin 16
  | setColor param | skip1 param | skip16 param | skip64 param | repeat1 param | repeat16 param =>
    param

def byte (form : NyancatForm) (opcode : NyancatOpcode) : ℕ :=
  16 * (opcode.type form).val ||| opcode.param.val

/-- A baseline frame does not skip. -/
def Of : NyancatForm → NyancatOpcode → Prop
  | .delta, _ => True
  | .baseline, setColor _ | .baseline, repeat1 _ | .baseline, repeat16 _ => True
  | .baseline, _ => False

/-- The opcode that a byte stands for. -/
def read (form : NyancatForm) (byte : ℕ) : Option NyancatOpcode :=
  let param : Fin 16 := Fin.ofNat 16 byte
  match byte / 16, form with
  | 0, _ => some (setColor param)
  | 1, .delta => some (skip1 param)
  | 2, _ => some (repeat1 param)
  | 3, .baseline => some (repeat16 param)
  | 3, .delta => some (skip16 param)
  | 4, .delta => some (repeat16 param)
  | 5, .delta => some (skip64 param)
  | _, _ => none

theorem read_byte {form : NyancatForm} {opcode : NyancatOpcode} (valid : opcode.Of form) :
    read form (opcode.byte form) = some opcode := by
  have both : ∀ param, read form (byte form (setColor param)) = some (setColor param) ∧
      read form (byte form (repeat1 param)) = some (repeat1 param) ∧
      read form (byte form (repeat16 param)) = some (repeat16 param) := by
    cases form <;> decide
  have skips : ∀ param, read .delta (byte .delta (skip1 param)) = some (skip1 param) ∧
      read .delta (byte .delta (skip16 param)) = some (skip16 param) ∧
      read .delta (byte .delta (skip64 param)) = some (skip64 param) := by
    decide
  cases opcode with
  | setColor param => exact (both param).1
  | repeat1 param => exact (both param).2.1
  | repeat16 param => exact (both param).2.2
  | skip1 param =>
    cases form with
    | baseline => exact valid.elim
    | delta => exact (skips param).1
  | skip16 param =>
    cases form with
    | baseline => exact valid.elim
    | delta => exact (skips param).2.1
  | skip64 param =>
    cases form with
    | baseline => exact valid.elim
    | delta => exact (skips param).2.2

theorem byte_not_end (form : NyancatForm) (opcode : NyancatOpcode) : opcode.byte form ≠ 0xff := by
  have all : ∀ (type : Fin 6) (param : Fin 16), 16 * type.val ||| param.val ≠ 0xff := by decide
  exact all _ _

variable {Colour : Type} (value : ℕ → Colour)

/-- What an opcode draws. -/
def meaning : NyancatOpcode → Instruction Colour
  | setColor color => .setColour (value color)
  | skip1 param => .skip (param + 1)
  | skip16 param => .skip ((param + 1) * 16)
  | skip64 param => .skip ((param + 1) * 64)
  | repeat1 param => .fill (param + 1)
  | repeat16 param => .fill ((param + 1) * 16)

end NyancatOpcode

open NyancatOpcode NyancatGenerator

/-! ## What the generator emits -/

section Emission

variable {Colour : Type} {value : ℕ → Colour} {form : NyancatForm}

/-- The bytes are opcodes of the form with these meanings. -/
def Emits (form : NyancatForm) (value : ℕ → Colour) (bytes : List ℕ)
    (instructions : List (Instruction Colour)) : Prop :=
  ∃ opcodes : List NyancatOpcode, bytes = opcodes.map (byte form) ∧
    (∀ opcode ∈ opcodes, opcode.Of form) ∧
    opcodes.map (meaning value) = instructions

theorem emits_nil : Emits form value [] [] := ⟨[], rfl, List.forall_mem_nil _, rfl⟩

theorem emits_append {first second : List ℕ}
    {instructions instructions' : List (Instruction Colour)}
    (emits : Emits form value first instructions) (emits' : Emits form value second instructions') :
    Emits form value (first ++ second) (instructions ++ instructions') := by
  obtain ⟨opcodes, rfl, valid, rfl⟩ := emits
  obtain ⟨opcodes', rfl, valid', rfl⟩ := emits'
  refine ⟨opcodes ++ opcodes', List.map_append.symm, fun opcode member => ?_, List.map_append⟩
  cases List.mem_append.mp member with
  | inl first => exact valid opcode first
  | inr second => exact valid' opcode second

theorem emits_cons {bytes : List ℕ} {instructions : List (Instruction Colour)}
    (opcode : NyancatOpcode)
    (valid : opcode.Of form) (emits : Emits form value bytes instructions) :
    Emits form value (opcode.byte form :: bytes) (opcode.meaning value :: instructions) :=
  emits_append ⟨[opcode], rfl, List.forall_mem_singleton.mpr valid, rfl⟩ emits

/-- The bytes split a count into positive counts of one kind of instruction. -/
def Splits (form : NyancatForm) (value : ℕ → Colour) (kind : ℕ → Instruction Colour)
    (bytes : List ℕ) (total : ℕ) :
    Prop :=
  ∃ counts : List ℕ, Emits form value bytes (counts.map kind) ∧
    (∀ count ∈ counts, 0 < count) ∧ counts.sum = total

theorem splits_zero {kind : ℕ → Instruction Colour} : Splits form value kind [] 0 :=
  ⟨[], emits_nil, List.forall_mem_nil _, rfl⟩

theorem splits_cons {kind : ℕ → Instruction Colour} {bytes : List ℕ} {rest count total : ℕ}
    (opcode : NyancatOpcode)
    (valid : opcode.Of form) (drawn : opcode.meaning value = kind count) (positive : 0 < count)
    (splits : Splits form value kind bytes rest) (sum : count + rest = total) :
    Splits form value kind (opcode.byte form :: bytes) total := by
  obtain ⟨counts, emits, positives, rfl⟩ := splits
  refine ⟨count :: counts, ?_, List.forall_mem_cons.mpr ⟨positive, positives⟩, sum⟩
  rw [List.map_cons, ← drawn]
  exact emits_cons opcode valid emits

/-- The opcode for sixteens of a form. -/
def NyancatForm.long : NyancatForm → ℕ
  | .baseline => 0x30
  | .delta => 0x40

theorem repeat16_byte (param : Fin 16) : (repeat16 param).byte form = form.long ||| param.val := by
  cases form <;> rfl

theorem repeat16_of (param : Fin 16) : (repeat16 param).Of form := by
  cases form <;> trivial

theorem repeat1_of (param : Fin 16) : (repeat1 param).Of form := by
  cases form <;> trivial

theorem setColor_of (color : Fin 16) : (setColor color).Of form := by
  cases form <;> trivial

theorem splits_repeat16 {bytes : List ℕ} {rest chunks total : ℕ}
    (some : 0 < chunks) (bound : chunks ≤ 16)
    (splits : Splits form value .fill bytes rest) (sum : chunks * 16 + rest = total) :
    Splits form value .fill ((form.long ||| (chunks - 1)) :: bytes) total := by
  have inside : chunks - 1 < 16 := by omega
  have byte := @repeat16_byte form ⟨chunks - 1, inside⟩
  simp only at byte
  rw [← byte]
  refine splits_cons _ (repeat16_of _) ?_ (Nat.mul_pos some (by decide)) splits sum
  rw [meaning, Nat.sub_add_cancel some]

theorem runOpcodes_splits (remaining : ℕ) :
    Splits form value .fill (runOpcodes form.long remaining) remaining := by
  induction remaining using Nat.strong_induction_on with
  | _ remaining inductionHypothesis =>
    rw [runOpcodes]
    split_ifs with none short medium
    · exact none ▸ splits_zero
    · refine splits_cons (repeat1 ⟨remaining - 1, by omega⟩) (repeat1_of _) rfl
        (Nat.succ_pos _) splits_zero ?_
      simp only
      omega
    · have less := inductionHypothesis (remaining - min (remaining / 16) 16 * 16) (by omega)
      exact splits_repeat16 (by omega) (by omega) less (by omega)
    · have less := inductionHypothesis (remaining - 256) (by omega)
      exact @splits_repeat16 _ value form _ _ 16 _ (by decide) (Nat.le_refl _) less (by omega)

theorem skipOpcodes_splits (remaining : ℕ) :
    Splits .delta value .skip (skipOpcodes remaining) remaining := by
  induction remaining using Nat.strong_induction_on with
  | _ remaining inductionHypothesis =>
    rw [skipOpcodes]
    split_ifs with none short medium long
    · exact none ▸ splits_zero
    · refine splits_cons (skip1 ⟨remaining - 1, by omega⟩) trivial rfl
        (Nat.succ_pos _) splits_zero ?_
      simp only
      omega
    · have less := inductionHypothesis (remaining - min (remaining / 16) 16 * 16) (by omega)
      refine splits_cons (skip16 ⟨min (remaining / 16) 16 - 1, by omega⟩) trivial rfl
        (by omega) less ?_
      simp only
      omega
    · have less := inductionHypothesis (remaining - min (remaining / 64) 16 * 64) (by omega)
      refine splits_cons (skip64 ⟨min (remaining / 64) 16 - 1, by omega⟩) trivial rfl
        (by omega) less ?_
      simp only
      omega
    · have less := inductionHypothesis (remaining - 1024) (by omega)
      exact @splits_cons _ value .delta .skip _ _ 1024 _ (skip64 15) trivial rfl
        (by decide) less (by omega)

end Emission

/-! ## What is drawn -/

section Drawing

variable {Colour : Type} {value : ℕ → Colour} {form : NyancatForm} {size : ℕ} {picture : ℕ → Colour}
  {cursor cursor' cursor'' : Cursor Colour} {bytes bytes' : List ℕ}

/-- The bytes are opcodes that fit, and they take the first cursor to the second. -/
def Performs (form : NyancatForm) (value : ℕ → Colour) (size : ℕ)
    (cursor : Cursor Colour) (bytes : List ℕ)
    (cursor' : Cursor Colour) : Prop :=
  ∃ instructions, Emits form value bytes instructions ∧ Fits size cursor.place instructions ∧
    cursor.run instructions = cursor'

theorem performs_nil : Performs form value size cursor [] cursor := ⟨[], emits_nil, trivial, rfl⟩

theorem Performs.append (performs : Performs form value size cursor bytes cursor')
    (performs' : Performs form value size cursor' bytes' cursor'') :
    Performs form value size cursor (bytes ++ bytes') cursor'' := by
  obtain ⟨instructions, emits, fits, rfl⟩ := performs
  obtain ⟨instructions', emits', fits', rfl⟩ := performs'
  refine ⟨instructions ++ instructions', emits_append emits emits', ?_, Cursor.run_append _ _ _⟩
  rw [fits_append, ← Cursor.run_place]
  exact ⟨fits, fits'⟩

theorem Splits.fills {total : ℕ} (splits : Splits form value .fill bytes total)
    (inside : cursor.place + total ≤ size) :
    Performs form value size cursor bytes (cursor.exec (.fill total)) := by
  obtain ⟨counts, emits, positive, rfl⟩ := splits
  exact ⟨_, emits, fits_counts (fun _ => rfl) counts positive inside, Cursor.run_fills _ _⟩

theorem Splits.skips {total : ℕ} (splits : Splits form value .skip bytes total)
    (inside : cursor.place + total ≤ size) :
    Performs form value size cursor bytes (cursor.exec (.skip total)) := by
  obtain ⟨counts, emits, positive, rfl⟩ := splits
  exact ⟨_, emits, fits_counts (fun _ => rfl) counts positive inside, Cursor.run_skips _ _⟩

/-- The current colour of the generator is that of the cursor. -/
def ColourIs (value : ℕ → Colour) (current_color : Option ℕ) (cursor : Cursor Colour) : Prop :=
  ∀ color, current_color = some color → cursor.colour = value color

theorem colourIs_none : ColourIs value none cursor := by
  intro color none
  cases none

theorem colorOpcodes_performs {current_color : Option ℕ} {color : ℕ} (small : color < 16)
    (colour : ColourIs value current_color cursor) (inside : cursor.place < size) :
    Performs form value size cursor (colorOpcodes current_color color)
      { cursor with colour := value color } := by
  rw [colorOpcodes]
  split_ifs with differs
  · refine ⟨[.setColour (value color)], ⟨[setColor ⟨color, small⟩], ?_, ?_, rfl⟩, ?_, rfl⟩
    · cases form <;> rfl
    · exact List.forall_mem_singleton.mpr (setColor_of _)
    · exact ⟨inside, Nat.le_of_lt inside, trivial⟩
  · have same := colour color (not_not.mp differs).symm
    rw [← same]
    exact performs_nil

/-- A run of one colour. -/
theorem run_performs {current_color : Option ℕ} {color count : ℕ}
    (small : color < 16) (some : 0 < count)
    (colour : ColourIs value current_color cursor) (inside : cursor.place + count ≤ size) :
    Performs form value size cursor (colorOpcodes current_color color ++ runOpcodes form.long count)
      (({ cursor with colour := value color } : Cursor Colour).exec (.fill count)) :=
  (colorOpcodes_performs small colour (by omega)).append ((runOpcodes_splits count).fills inside)

/-- A run of one colour draws what the picture holds. -/
theorem run_draws {Item : Type} {paints : Item → ℕ} {item : Item} {same : List Item}
    {current_color : Option ℕ}
    {color : ℕ} (constant : ∀ other ∈ item :: same, paints other = color) (small : color < 16)
    (colour : ColourIs value current_color cursor)
    (inside : cursor.place + (1 + same.length) ≤ size)
    (drawn : DrawnTo picture cursor)
    (holds : Holds picture cursor.place ((item :: same).map fun other => value (paints other))) :
    Performs form value size cursor
      (colorOpcodes current_color color ++ runOpcodes form.long (1 + same.length))
        (({ cursor with colour := value color } : Cursor Colour).exec (.fill (1 + same.length))) ∧
      DrawnTo picture (({ cursor with colour := value color } : Cursor Colour).exec
        (.fill (1 + same.length))) := by
  refine ⟨run_performs small (by omega) colour inside, drawnTo_fill drawn
    fun cell start bound => ?_⟩
  have painted : ∀ other ∈ (item :: same).map fun other => value (paints other),
      other = value color := by
    intro other member
    obtain ⟨there, inside, rfl⟩ := List.mem_map.mp member
    rw [constant there inside]
  exact holds_constant holds painted start
    (by rwa [List.length_map, List.length_cons, Nat.add_comm same.length])

/-- The cursor is at the end, and the picture is drawn. -/
def Complete (size : ℕ) (picture : ℕ → Colour) (cursor : Cursor Colour) : Prop :=
  cursor.place = size ∧ DrawnTo picture cursor

theorem rleOpcodes_performs {Pixel : Type} (map_color : Pixel → ℕ)
    (current_color : Option ℕ) (pixels : List Pixel)
    (cursor : Cursor Colour) (left : cursor.place + pixels.length = size)
    (drawn : DrawnTo picture cursor)
    (holds : Holds picture cursor.place (pixels.map fun pixel => value (map_color pixel)))
    (small : ∀ pixel ∈ pixels, map_color pixel < 16)
    (colour : ColourIs value current_color cursor) :
    ∃ cursor', Performs .baseline value size cursor
      (rleOpcodes map_color current_color pixels) cursor' ∧
      Complete size picture cursor' := by
  induction current_color, pixels using rleOpcodes.induct map_color generalizing cursor with
  | case1 current_color =>
    rw [rleOpcodes]
    exact ⟨cursor, performs_nil, left, drawn⟩
  | case2 current_color pixel rest color inductionHypothesis =>
    -- the run, and what is left behind it
    have split :=
      @List.takeWhile_append_dropWhile _ (fun other => decide (map_color other = color)) rest
    have run : ∀ other ∈ rest.takeWhile fun other => map_color other = color,
        map_color other = color :=
      fun other member =>
        of_decide_eq_true
          ( @List.mem_takeWhile_imp _ (fun other => decide (map_color other = color)) _ _ member)
    rw [rleOpcodes]
    generalize rest.takeWhile (fun other => decide (map_color other = color)) = same at split run ⊢
    generalize rest.dropWhile (fun other => decide (map_color other = color)) =
      behind at split inductionHypothesis ⊢
    rw [← split] at left holds small
    rw [← List.cons_append, List.map_append, holds_append] at holds
    rw [List.length_cons, List.length_append] at left
    obtain ⟨performs, next⟩ :=
      @run_draws _ value .baseline size picture cursor _ map_color pixel same current_color
        color (List.forall_mem_cons.mpr ⟨rfl, run⟩) (small pixel List.mem_cons_self) colour
          (by omega) drawn holds.1
    obtain ⟨cursor', performs', complete⟩ := inductionHypothesis _
      (show cursor.place + (1 + same.length) + behind.length = size by omega) next
      (by rw [List.length_map, List.length_cons, Nat.add_comm same.length] at holds; exact holds.2)
      (fun other member => small other (List.mem_cons_of_mem _ (List.mem_append_right _ member)))
      (fun other same => congrArg value (Option.some.inj same))
    exact ⟨cursor', performs.append performs', complete⟩

theorem deltaOpcodes_performs (current_color : Option ℕ) (colors : List (ℕ × ℕ))
    (cursor : Cursor Colour)
    (left : cursor.place + colors.length = size) (drawn : DrawnTo picture cursor)
    (before : Holds cursor.cells cursor.place (colors.map fun pair => value pair.1))
    (holds : Holds picture cursor.place (colors.map fun pair => value pair.2))
    (small : ∀ pair ∈ colors, pair.2 < 16) (colour : ColourIs value current_color cursor) :
    ∃ cursor', Performs .delta value size cursor (deltaOpcodes current_color colors) cursor' ∧
      Complete size picture cursor' := by
  generalize length : colors.length = n at left
  induction n using Nat.strong_induction_on generalizing current_color colors cursor with
  | _ n inductionHypothesis =>
    have split := @List.takeWhile_append_dropWhile _ unchanged colors
    have unmoved : ∀ pair ∈ colors.takeWhile unchanged, pair.1 = pair.2 :=
      fun pair member => of_decide_eq_true ( @List.mem_takeWhile_imp _ unchanged _ _ member)
    rw [deltaOpcodes]
    generalize colors.takeWhile unchanged = skipped at split unmoved ⊢
    -- up to the first pixel that has changed
    have same : (skipped.map fun pair => value pair.1) = skipped.map fun pair => value pair.2 :=
      List.map_congr_left fun pair member => congrArg value (unmoved pair member)
    rw [← split] at length before holds small
    rw [List.length_append] at length
    rw [List.map_append, holds_append, List.length_map] at before holds
    have skips : Performs .delta value size cursor (skipOpcodes skipped.length)
        (cursor.exec (.skip skipped.length)) :=
      (skipOpcodes_splits _).skips (by omega)
    have reached := @drawnTo_skip _ picture cursor skipped.length drawn fun cell start bound =>
      holds_same before.1 (same ▸ holds.1) start (by rwa [List.length_map])
    split
    next done =>
      rw [done, List.length_nil] at length
      exact ⟨_, skips.append performs_nil, show cursor.place + skipped.length =
        size by omega, reached⟩
    next old color rest changed =>
      have run := @List.takeWhile_append_dropWhile _ (changedTo color) rest
      have painted : ∀ pair ∈ rest.takeWhile (changedTo color), pair.2 = color := fun pair member =>
        of_decide_eq_true
          (Bool.and_eq_true _ _ ▸ @List.mem_takeWhile_imp _ (changedTo color) _ _ member).1
      generalize rest.takeWhile (changedTo color) = repeated at run painted ⊢
      generalize rest.dropWhile (changedTo color) = behind at run ⊢
      rw [changed, ← run, ← List.cons_append] at length before holds small
      rw [List.length_append, List.length_cons] at length
      rw [List.map_append, holds_append, List.length_map, List.length_cons] at before holds
      obtain ⟨performs, next⟩ :=
        @run_draws _ value .delta size picture (cursor.exec (.skip skipped.length)) _ Prod.snd
          (old, color) repeated current_color color (List.forall_mem_cons.mpr ⟨rfl, painted⟩)
          (small (old, color) (by simp)) colour
          (show cursor.place + skipped.length + (1 + repeated.length) ≤
            size by omega) reached holds.2.1
      rw [Nat.add_comm repeated.length] at before holds
      obtain ⟨cursor', performs', complete⟩ :=
        inductionHypothesis behind.length (by omega) (some color) behind _ next
          (holds_congr before.2.2 fun cell start =>
            Cursor.filled_outside fun inside => absurd inside.2 (Nat.not_lt.mpr start))
          holds.2.2 (fun pair member => small pair (by simp [member]))
          (fun other same => congrArg value (Option.some.inj same))
          rfl (show cursor.place + skipped.length + (1 + repeated.length) +
            behind.length = size by omega)
      exact ⟨cursor', skips.append (performs.append performs'), complete⟩

end Drawing

/-! ## The decoders in C -/

namespace Nyancat.Decoder

def cursor (decoder : Decoder) : Cursor Byte :=
  ⟨decoder.frame_buffer, decoder.pos, decoder.current_color⟩

theorem exec_fill_one (cursor : Cursor Byte) :
    cursor.exec (.fill 1) =
      ⟨Function.update cursor.cells cursor.place cursor.colour,
      cursor.place + 1, cursor.colour⟩ := by
  have cells : cursor.filled 1 = Function.update cursor.cells cursor.place cursor.colour := by
    funext cell
    by_cases here : cell = cursor.place
    · rw [here, Function.update_self, Cursor.filled_inside (by omega) (by omega)]
    · rw [Function.update_of_ne here, Cursor.filled_outside (by omega)]
  rw [Cursor.exec, cells]

theorem repeatColor_cursor (decoder : Decoder) (count : ℕ)
    (inside : decoder.pos + count ≤ FRAME_SIZE) :
    (decoder.repeatColor count).cursor = decoder.cursor.exec (.fill count) := by
  induction count generalizing decoder with
  | zero => exact (Cursor.exec_fill_zero _).symm
  | succ count inductionHypothesis =>
    rw [repeatColor, if_pos (by omega), inductionHypothesis _
      (by simp only; omega), Nat.add_comm count, ← Cursor.exec_fill_fill, exec_fill_one]
    rfl

theorem repeatColor_end (decoder : Decoder) (count : ℕ) (full : decoder.pos = FRAME_SIZE) :
    decoder.repeatColor count = decoder := by
  cases count with
  | zero => rfl
  | succ count => rw [repeatColor, full, if_neg (Nat.lt_irrefl _)]

theorem fillBackground_end (decoder : Decoder) (full : decoder.pos = FRAME_SIZE) :
    decoder.fillBackground.frame_buffer = decoder.frame_buffer := by
  rw [fillBackground, repeatColor_end { decoder with current_color := 0#8 } _ full]

/-- The fields of an opcode. -/
theorem opcode_fields : ∀ (type : Fin 6) (param : Fin 16),
    BitVec.ofNat 8 (16 * type.val ||| param.val) &&& OPCODE_MASK = BitVec.ofNat 8 (16 * type.val) ∧
      BitVec.ofNat 8 (16 * type.val ||| param.val) &&& PARAM_MASK = BitVec.ofNat 8 param.val ∧
      count (BitVec.ofNat 8 (16 * type.val ||| param.val)) = param.val + 1 ∧
      BitVec.ofNat 8 (16 * type.val ||| param.val) ≠ END_OF_FRAME := by
  decide

theorem baselineStep_cursor (decoder : Decoder) (opcode : NyancatOpcode)
    (valid : opcode.Of .baseline)
    (inside : decoder.pos + (opcode.meaning (BitVec.ofNat 8)).advance ≤ FRAME_SIZE) :
    (baselineStep (BitVec.ofNat 8 (opcode.byte .baseline)) decoder).cursor =
      decoder.cursor.exec (opcode.meaning (BitVec.ofNat 8)) := by
  obtain ⟨mask, param, times, -⟩ := opcode_fields (opcode.type .baseline) opcode.param
  rw [baselineStep, NyancatOpcode.byte, mask, param, times]
  -- the type bits select the branch
  cases opcode with
  | setColor => rfl
  | repeat1 => exact repeatColor_cursor _ _ inside
  | repeat16 => exact repeatColor_cursor _ _ inside
  | _ => exact valid.elim

theorem deltaStep_cursor (decoder : Decoder) (opcode : NyancatOpcode)
    (inside : decoder.pos + (opcode.meaning (BitVec.ofNat 8)).advance ≤ FRAME_SIZE) :
    (deltaStep (BitVec.ofNat 8 (opcode.byte .delta)) decoder).cursor =
      decoder.cursor.exec (opcode.meaning (BitVec.ofNat 8)) := by
  obtain ⟨mask, param, times, -⟩ := opcode_fields (opcode.type .delta) opcode.param
  rw [deltaStep, NyancatOpcode.byte, mask, param, times]
  cases opcode with
  | setColor => rfl
  | skip1 => rfl
  | skip16 => rfl
  | skip64 => rfl
  | repeat1 => exact repeatColor_cursor _ _ inside
  | repeat16 => exact repeatColor_cursor _ _ inside

/-- The loop of either form carries out the opcodes. -/
theorem loop_performs {form : NyancatForm} {step : Byte → Decoder → Decoder}
    (steps : ∀ decoder (opcode : NyancatOpcode), opcode.Of form →
      decoder.pos + (opcode.meaning (BitVec.ofNat 8)).advance ≤ FRAME_SIZE →
      (step (BitVec.ofNat 8 (opcode.byte form)) decoder).cursor =
        decoder.cursor.exec (opcode.meaning (BitVec.ofNat 8)))
    {decoder : Decoder} {bytes : List ℕ} {cursor' : Cursor Byte}
    (performs : Performs form (BitVec.ofNat 8) FRAME_SIZE decoder.cursor bytes cursor') :
    (loop step decoder ((bytes ++ [0xff]).map (BitVec.ofNat 8))).cursor = cursor' := by
  obtain ⟨_, ⟨opcodes, rfl, valid, rfl⟩, fits, rfl⟩ := performs
  rw [List.map_append, List.map_map]
  refine readLoop_simulates (fun (decoder : Decoder) cursor => decoder.cursor = cursor)
    (BitVec.ofNat 8 ∘ NyancatOpcode.byte form) (NyancatOpcode.meaning (BitVec.ofNat 8))
    (NyancatOpcode.Of form)
    ?_ ?_ ?_ opcodes valid decoder decoder.cursor rfl fits _ rfl
  · intro decoder cursor same before
    subst same
    exact decide_eq_true before
  · intro opcode _
    exact decide_eq_false (opcode_fields _ _).2.2.2
  · intro decoder cursor opcode same valid _ inside
    subst same
    exact steps decoder opcode valid inside

end Nyancat.Decoder

/-! ## The decoders in Python -/

namespace NyancatGenerator

/-- The fields of an opcode. -/
theorem opcode_fields : ∀ (type : Fin 6) (param : Fin 16),
    (16 * type.val ||| param.val) &&& 0xf0 = 16 * type.val ∧
      (16 * type.val ||| param.val) &&& 0x0f = param.val := by
  decide

/-- The list is what lies in front of the cursor. -/
structure Baseline.Refines (state : Baseline) (cursor : Cursor ℕ) : Prop where
  length : state.decompressed.length = cursor.place
  holds : Holds cursor.cells 0 state.decompressed
  colour : state.current_color = cursor.colour

theorem Baseline.Refines.fill {state : Baseline} {cursor : Cursor ℕ}
    (refines : state.Refines cursor) (count : ℕ) :
    Refines { state with decompressed := state.decompressed ++ List.replicate count state.current_color }
      (cursor.exec (.fill count)) := by
  obtain ⟨length, holds, colour⟩ := refines
  refine ⟨by simp [length, Cursor.exec], ?_, colour⟩
  rw [holds_append, Nat.zero_add, length, colour]
  constructor
  · intro k other inside
    have bound := (List.getElem?_eq_some_iff.mp inside).1
    exact (Cursor.filled_outside (by omega)).trans (holds k other inside)
  · intro k other inside
    obtain ⟨bound, same⟩ := List.getElem?_eq_some_iff.mp inside
    rw [List.getElem_replicate] at same
    rw [List.length_replicate] at bound
    exact (Cursor.filled_inside (Nat.le_add_right _ _) (by omega)).trans same

theorem Baseline.Refines.step {state : Baseline} {cursor : Cursor ℕ} (refines : state.Refines cursor)
    (opcode : NyancatOpcode) (valid : opcode.Of .baseline) :
    Refines (Baseline.step (opcode.byte .baseline) state) (cursor.exec (opcode.meaning id)) := by
  obtain ⟨mask, param⟩ := opcode_fields (opcode.type .baseline) opcode.param
  rw [Baseline.step, NyancatOpcode.byte, mask, param]
  cases opcode with
  | setColor => exact ⟨refines.length, refines.holds, rfl⟩
  | repeat1 => exact refines.fill _
  | repeat16 => exact refines.fill _
  | _ => exact valid.elim

theorem decompress_baseline_performs {cells : ℕ → ℕ} {bytes : List ℕ}
    {cursor' : Cursor ℕ} {size : ℕ}
    (performs : Performs .baseline id size ⟨cells, 0, 0⟩ bytes cursor') :
    (decompress_baseline (bytes ++ [0xff])).length = cursor'.place ∧
      Holds cursor'.cells 0 (decompress_baseline (bytes ++ [0xff])) := by
  obtain ⟨_, ⟨opcodes, rfl, valid, rfl⟩, fits, rfl⟩ := performs
  have refines := @readLoop_simulates _ _ _ _ (fun _ : Baseline => true)
    (fun opcode => opcode = 0xff) Baseline.step
    Baseline.Refines size (NyancatOpcode.byte .baseline) (NyancatOpcode.meaning id)
      (NyancatOpcode.Of .baseline)
    (fun _ _ _ _ => rfl) (fun opcode _ => decide_eq_false (byte_not_end _ opcode))
    (fun _ _ opcode refines valid _ _ => refines.step opcode valid) opcodes valid ⟨[], 0⟩
    ⟨cells, 0, 0⟩
    ⟨rfl, holds_nil _ _, rfl⟩ fits 0xff rfl
  exact ⟨refines.length, refines.holds⟩

/-- The list is the first cells of the cursor. -/
structure Delta.Refines (state : Delta) (cursor : Cursor ℕ) : Prop where
  length : state.decompressed.length = 4096
  holds : Holds cursor.cells 0 state.decompressed
  place : state.pos = cursor.place
  colour : state.current_color = cursor.colour

theorem Delta.Refines.fill {state : Delta} {cursor : Cursor ℕ}
    (refines : state.Refines cursor) (count : ℕ)
    (inside : cursor.place + count ≤ 4096) : Refines (state.repeatChanged count)
    (cursor.exec (.fill count)) := by
  induction count generalizing state cursor with
  | zero => exact (Cursor.exec_fill_zero cursor).symm ▸ refines
  | succ count inductionHypothesis =>
    obtain ⟨length, holds, place, colour⟩ := refines
    rw [repeatChanged, if_pos (by omega), Nat.add_comm count, ← Cursor.exec_fill_fill]
    refine inductionHypothesis ⟨by simp [length], ?_, congrArg (· + 1) place, colour⟩
      (show cursor.place + 1 + count ≤ 4096 by omega)
    intro k other found
    rw [List.getElem?_set] at found
    rw [Nat.zero_add]
    by_cases here : state.pos = k
    · rw [if_pos here, if_pos (by omega)] at found
      exact (Cursor.filled_inside (by omega) (by omega)).trans
        (colour.symm.trans (Option.some.inj found))
    · rw [if_neg here] at found
      have cell := holds k other found
      rw [Nat.zero_add] at cell
      exact (Cursor.filled_outside (by omega)).trans cell

theorem Delta.Refines.step {state : Delta} {cursor : Cursor ℕ} (refines : state.Refines cursor)
    (opcode : NyancatOpcode)
    (inside : cursor.place + (opcode.meaning id).advance ≤ 4096) :
    Refines (Delta.step (opcode.byte .delta) state) (cursor.exec (opcode.meaning id)) := by
  obtain ⟨mask, param⟩ := opcode_fields (opcode.type .delta) opcode.param
  have skip : ∀ count, Refines { state with pos := state.pos + count }
      (cursor.exec (.skip count)) := fun count =>
    ⟨refines.length, refines.holds, congrArg (· + count) refines.place, refines.colour⟩
  rw [Delta.step, NyancatOpcode.byte, mask, param]
  cases opcode with
  | setColor => exact ⟨refines.length, refines.holds, refines.place, rfl⟩
  | skip1 => exact skip _
  | skip16 => exact skip _
  | skip64 => exact skip _
  | repeat1 => exact refines.fill _ inside
  | repeat16 => exact refines.fill _ inside

theorem decompress_delta_performs {prev_frame bytes : List ℕ} {cells : ℕ → ℕ} {cursor' : Cursor ℕ}
    (length : prev_frame.length = 4096) (before : Holds cells 0 prev_frame)
    (performs : Performs .delta id 4096 ⟨cells, 0, 0⟩ bytes cursor') :
    (decompress_delta prev_frame (bytes ++ [0xff])).length = 4096 ∧
      Holds cursor'.cells 0 (decompress_delta prev_frame (bytes ++ [0xff])) := by
  obtain ⟨_, ⟨opcodes, rfl, valid, rfl⟩, fits, rfl⟩ := performs
  have refines := @readLoop_simulates _ _ _ _ (fun state : Delta => state.pos < 4096)
    (fun opcode => opcode = 0xff)
    Delta.step Delta.Refines 4096 (NyancatOpcode.byte .delta) (NyancatOpcode.meaning id)
      (NyancatOpcode.Of .delta)
    (fun _ _ refines before => decide_eq_true (refines.place ▸ before))
    (fun opcode _ => decide_eq_false (byte_not_end _ opcode))
    (fun _ _ opcode refines _ _ inside => refines.step opcode inside) opcodes valid
      ⟨prev_frame, 0, 0⟩ ⟨cells, 0, 0⟩
    ⟨length, before, rfl, rfl⟩ fits 0xff rfl
  exact ⟨refines.length, refines.holds⟩

end NyancatGenerator

/-! ## Whole frames -/

section Frames

variable {Colour : Type} {value : ℕ → Colour}

/-- The colours as a picture. -/
def pictured (value : ℕ → Colour) (colors : List ℕ) : ℕ → Colour :=
  fun cell => value (colors.getD cell 0)

theorem pictured_holds (colors : List ℕ) : Holds (pictured value colors) 0 (colors.map value) := by
  intro k colour inside
  rw [List.getElem?_map, Option.map_eq_some_iff] at inside
  obtain ⟨color, found, rfl⟩ := inside
  rw [pictured, Nat.zero_add, List.getD_eq_getElem?_getD, found]
  rfl

theorem complete_holds {colors : List ℕ} {cursor : Cursor Colour}
    (complete : Complete colors.length (pictured value colors) cursor) :
    Holds cursor.cells 0 (colors.map value) := by
  intro k colour inside
  have bound := (List.getElem?_eq_some_iff.mp inside).1
  rw [List.length_map] at bound
  rw [complete.2 (0 + k) (by rw [complete.1]; omega)]
  exact pictured_holds colors k colour inside

/-- The opcodes of a baseline frame draw the frame over anything. -/
theorem frame_performs {Pixel : Type} (map_color : Pixel → ℕ) (pixels : List Pixel)
    (small : ∀ pixel ∈ pixels, map_color pixel < 16) (cells : ℕ → Colour) (colour : Colour) :
    ∃ cursor', Performs .baseline value pixels.length ⟨cells, 0, colour⟩
      (rleOpcodes map_color none pixels) cursor' ∧
      cursor'.place = pixels.length ∧ Holds cursor'.cells 0 ((pixels.map map_color).map value) := by
  have holds := @pictured_holds _ value (pixels.map map_color)
  obtain ⟨cursor', performs, complete⟩ := @rleOpcodes_performs _ value pixels.length
    (pictured value (pixels.map map_color)) _ map_color none pixels
      ⟨cells, 0, colour⟩ (Nat.zero_add _)
    (fun cell none => absurd none (Nat.not_lt_zero cell))
    (by rwa [List.map_map] at holds) small colourIs_none
  exact ⟨cursor', performs, complete.1, complete_holds (by rwa [List.length_map])⟩

/-- The opcodes of a delta frame draw the frame over the frame before. -/
theorem delta_performs (prev_colors curr_colors : List ℕ)
    (same : prev_colors.length = curr_colors.length)
    (small : ∀ color ∈ curr_colors, color < 16) (cells : ℕ → Colour) (colour : Colour)
    (before : Holds cells 0 (prev_colors.map value)) :
    ∃ cursor', Performs .delta value curr_colors.length ⟨cells, 0, colour⟩
        (deltaOpcodes none (prev_colors.zip curr_colors)) cursor' ∧
      Holds cursor'.cells 0 (curr_colors.map value) := by
  have old : ((prev_colors.zip curr_colors).map fun pair => value pair.1) =
      prev_colors.map value := by
    rw [← List.map_fst_zip (Nat.le_of_eq same), List.map_map]
    rw [List.map_fst_zip (Nat.le_of_eq same)]
    rfl
  have new : ((prev_colors.zip curr_colors).map fun pair => value pair.2) =
      curr_colors.map value := by
    rw [← List.map_snd_zip (Nat.le_of_eq same.symm), List.map_map]
    rw [List.map_snd_zip (Nat.le_of_eq same.symm)]
    rfl
  obtain ⟨cursor', performs, complete⟩ :=
    @deltaOpcodes_performs _ value curr_colors.length (pictured value curr_colors)
      none (prev_colors.zip curr_colors) ⟨cells, 0, colour⟩ (by simp [same])
      (fun cell none => absurd none (Nat.not_lt_zero cell)) (old ▸ before)
      (new ▸ pictured_holds curr_colors)
      (fun pair member => small pair.2 (List.of_mem_zip member).2) colourIs_none
  exact ⟨cursor', performs, complete_holds complete⟩

end Frames

namespace Nyancat

open VgaUpload

/-- The pixel that the words written to `STREAM_DATA` hold. -/
def uploadedPixel (writes : List RegisterWrite) (k : ℕ) : BitVec 4 :=
  ((writes.filter fun access => access.1 = VgaReg.STREAM_DATA).getD (k / 8)
    (0#8, 0#32)).2.extractLsb' (4 * (k % 8)) 4

/-- An upload leaves the colours in the buffer, and sends them to the VGA. -/
structure Shows (colors : List ℕ) (result : Buffers × List RegisterWrite) : Prop where
  buffer : Holds result.1.frame_buffer 0 (colors.map (BitVec.ofNat 8))
  uploaded : ∀ k color, colors[k]? = some color → uploadedPixel result.2 k = BitVec.ofNat 4 color

theorem uploadedPixel_buffer (frame_index : ℕ) (frame_buffer : ℕ → Byte)
    (k : ℕ) (inside : k < 4096) :
    uploadedPixel (uploadWrites frame_index frame_buffer) k = (frame_buffer k).setWidth 4 := by
  have words : (uploadWrites frame_index frame_buffer).filter
      (fun access => access.1 = VgaReg.STREAM_DATA) =
      streamWrites frame_buffer 512 := by
    rw [uploadWrites, List.filter_cons_of_neg (by simp; decide), List.filter_eq_self]
    intro access member
    obtain ⟨i, _, rfl⟩ := List.mem_map.mp member
    exact decide_eq_true rfl
  have word : (streamWrites frame_buffer 512)[k / 8]? =
      some (VgaReg.STREAM_DATA, packed frame_buffer (k / 8)) := by
    rw [streamWrites, List.getElem?_map, List.getElem?_range (by omega)]
    rfl
  rw [uploadedPixel, words, List.getD_eq_getElem?_getD, word, Option.getD_some, packed,
    VgaScan.pixel_4bit_packed _ _ (Nat.mod_lt _ (by decide)), Nat.div_add_mod]

theorem shows_of_buffer {colors : List ℕ} (length : colors.length = 4096)
    {buffers : Buffers} {frame_index : ℕ}
    (holds : Holds buffers.frame_buffer 0 (colors.map (BitVec.ofNat 8))) :
    Shows colors (buffers, uploadWrites frame_index buffers.frame_buffer) where
  buffer := holds
  uploaded := by
    intro k color found
    have bound := (List.getElem?_eq_some_iff.mp found).1
    have cell := holds k (BitVec.ofNat 8 color) (by rw [List.getElem?_map, found]; rfl)
    rw [Nat.zero_add] at cell
    rw [uploadedPixel_buffer _ _ _ (by omega), cell]
    exact BitVec.setWidth_ofNat_of_le (by decide) color

theorem decompressBaseline_holds {Pixel : Type} (map_color : Pixel → ℕ) (pixels : List Pixel)
    (length : pixels.length = 4096) (small : ∀ pixel ∈ pixels, map_color pixel < 16)
    (frame_buffer : ℕ → Byte) :
    Holds (decompressBaseline frame_buffer
      ((rleOpcodes map_color none pixels ++ [0xff]).map (BitVec.ofNat 8))) 0
      ((pixels.map map_color).map (BitVec.ofNat 8)) := by
  obtain ⟨cursor', performs, full, holds⟩ :=
    @frame_performs _ (BitVec.ofNat 8) _ map_color pixels small frame_buffer 0#8
  rw [length] at performs full
  have drawn := @Decoder.loop_performs .baseline _ Decoder.baselineStep_cursor
    ⟨frame_buffer, 0, 0#8⟩ _ _ performs
  have place := (congrArg Cursor.place drawn).trans full
  rw [decompressBaseline, Decoder.fillBackground_end _ place]
  rw [← drawn] at holds
  exact holds

theorem decompressDelta_holds (prev_colors curr_colors : List ℕ)
    (same : prev_colors.length = curr_colors.length)
    (length : curr_colors.length = 4096) (small : ∀ color ∈ curr_colors, color < 16)
    (prev_frame_buffer : ℕ → Byte)
    (before : Holds prev_frame_buffer 0 (prev_colors.map (BitVec.ofNat 8))) :
    Holds (decompressDelta prev_frame_buffer
        ((deltaOpcodes none (prev_colors.zip curr_colors) ++ [0xff]).map (BitVec.ofNat 8))) 0
      (curr_colors.map (BitVec.ofNat 8)) := by
  obtain ⟨cursor', performs, holds⟩ :=
    delta_performs prev_colors curr_colors same small prev_frame_buffer 0#8 before
  rw [length] at performs
  have drawn := @Decoder.loop_performs .delta _
    (fun decoder opcode _ => Decoder.deltaStep_cursor decoder opcode)
    ⟨prev_frame_buffer, 0, 0#8⟩ _ _ performs
  rw [decompressDelta]
  rw [← drawn] at holds
  exact holds

theorem copy_buffer_holds {dest src : ℕ → Byte} {bytes : List Byte} (length : bytes.length = 4096)
    (holds : Holds src 0 bytes) : Holds (copy_buffer dest src) 0 bytes := by
  intro k byte found
  have bound := (List.getElem?_eq_some_iff.mp found).1
  exact (if_pos (show 0 + k < FRAME_SIZE by simp only [FRAME_SIZE]; omega)).trans
    (holds k byte found)

/-! ## Round trip -/

/-- Every byte in front of the last one reads back as the opcode that it was written for, and these
    opcodes draw the frame. -/
def Readable (form : NyancatForm) (before : ℕ → ℕ) (colors opcodes : List ℕ) : Prop :=
  ∃ written : List NyancatOpcode, opcodes = written.map (byte form) ++ [0xff] ∧
    (∀ opcode ∈ written, opcode.byte form ≠ 0xff ∧
    NyancatOpcode.read form (opcode.byte form) = some opcode) ∧
    Holds (Cursor.run ⟨before, 0, 0⟩ (written.map (meaning id))).cells 0 colors

/-- The opcodes of a baseline frame decode to the frame, whatever the buffers hold. -/
structure BaselineRoundTrip (colors opcodes : List ℕ) : Prop where
  python : decompress_baseline opcodes = colors
  rle : ∀ data frame_index buffers, window data frame_index = opcodes.map (BitVec.ofNat 8) →
    Shows colors (vga_upload_frame_rle data frame_index buffers)
  delta : ∀ data buffers, window data 0 = opcodes.map (BitVec.ofNat 8) →
    Shows colors (vga_upload_frame_delta data 0 buffers)
  readable : ∀ before, Readable .baseline before colors opcodes

/-- The opcodes of a delta frame decode to the frame, if the decoder starts from the frame
    before. -/
structure DeltaRoundTrip (prev_colors curr_colors opcodes : List ℕ) : Prop where
  python : decompress_delta prev_colors opcodes = curr_colors
  delta : ∀ data frame_index buffers, frame_index ≠ 0 → window data frame_index =
    opcodes.map (BitVec.ofNat 8) →
    Holds buffers.prev_frame_buffer 0 (prev_colors.map (BitVec.ofNat 8)) →
    Shows curr_colors (vga_upload_frame_delta data frame_index buffers)
  readable : ∀ before, Holds before 0 prev_colors → Readable .delta before curr_colors opcodes

theorem eq_of_holds {cells : ℕ → ℕ} {first second : List ℕ} (same : first.length = second.length)
    (holds : Holds cells 0 first) (holds' : Holds cells 0 second) : first = second := by
  apply List.ext_getElem same
  intro k inside inside'
  exact (holds k _ (List.getElem?_eq_getElem inside)).symm.trans
    (holds' k _ (List.getElem?_eq_getElem inside'))

theorem readable_of_performs {form : NyancatForm} {before : ℕ → ℕ} {size : ℕ}
    {colors bytes : List ℕ}
    {cursor' : Cursor ℕ} (performs : Performs form id size ⟨before, 0, 0⟩ bytes cursor')
    (holds : Holds cursor'.cells 0 colors) : Readable form before colors (bytes ++ [0xff]) := by
  obtain ⟨_, ⟨written, rfl, valid, rfl⟩, _, rfl⟩ := performs
  exact ⟨written, rfl, fun opcode member =>
    ⟨byte_not_end form opcode, read_byte (valid opcode member)⟩, holds⟩

theorem baseline_round_trip {Pixel : Type} (map_color : Pixel → ℕ) (pixels : List Pixel)
    (length : pixels.length = 4096) (small : ∀ pixel ∈ pixels, map_color pixel < 16) :
    BaselineRoundTrip (pixels.map map_color) (rleOpcodes map_color none pixels ++ [0xff]) := by
  have colors : (pixels.map map_color).length = 4096 := by rw [List.length_map, length]
  refine ⟨?_, fun data frame_index buffers exact_window => ?_,
    fun data buffers exact_window => ?_, fun before => ?_⟩
  · obtain ⟨cursor', performs, full, holds⟩ :=
      @frame_performs _ id _ map_color pixels small (fun _ => 0) 0
    obtain ⟨decoded, shown⟩ := decompress_baseline_performs performs
    rw [List.map_id] at holds
    exact eq_of_holds (by rw [decoded, full, List.length_map]) shown holds
  · have holds := decompressBaseline_holds map_color pixels length small buffers.frame_buffer
    rw [← exact_window] at holds
    exact shows_of_buffer colors holds
  · have holds := decompressBaseline_holds map_color pixels length small buffers.frame_buffer
    rw [← exact_window] at holds
    rw [vga_upload_frame_delta, if_pos rfl]
    exact shows_of_buffer colors holds
  · obtain ⟨cursor', performs, _, holds⟩ := @frame_performs _ id _ map_color pixels small before 0
    rw [List.map_id] at holds
    exact readable_of_performs performs holds

theorem delta_round_trip (prev_colors curr_colors : List ℕ) (prevLength : prev_colors.length = 4096)
    (currLength : curr_colors.length = 4096) (small : ∀ color ∈ curr_colors, color < 16) :
    DeltaRoundTrip prev_colors curr_colors
      (deltaOpcodes none (prev_colors.zip curr_colors) ++ [0xff]) := by
  have same := prevLength.trans currLength.symm
  refine ⟨?_, fun data frame_index buffers later exact_window previous => ?_,
    fun before previous => ?_⟩
  · have previous : Holds (pictured id prev_colors) 0 prev_colors := by
      have holds := @pictured_holds _ id prev_colors
      rwa [List.map_id] at holds
    obtain ⟨cursor', performs, holds⟩ := @delta_performs _ id prev_colors curr_colors same small
      (pictured id prev_colors) 0 (by rwa [List.map_id])
    rw [currLength] at performs
    obtain ⟨decoded, shown⟩ := decompress_delta_performs prevLength previous performs
    rw [List.map_id] at holds
    exact eq_of_holds (decoded.trans currLength.symm) shown holds
  · have copied := @copy_buffer_holds buffers.frame_buffer buffers.prev_frame_buffer _
      (by rw [List.length_map, prevLength]) previous
    have holds := decompressDelta_holds prev_colors curr_colors same currLength small _ copied
    rw [← exact_window] at holds
    rw [vga_upload_frame_delta, if_neg later]
    exact shows_of_buffer currLength holds
  · obtain ⟨cursor', performs, holds⟩ :=
      @delta_performs _ id prev_colors curr_colors same small before 0
        (by rwa [List.map_id])
    rw [List.map_id] at holds
    exact readable_of_performs performs holds

/-- Frames survive compression: for every reading of pixels as the colours 0 to 13. -/
theorem frame_round_trip {Pixel : Type} (map_color : Pixel → ℕ)
    (prev_pixels curr_pixels : List Pixel)
    (prevLength : prev_pixels.length = 4096) (currLength : curr_pixels.length = 4096)
    (palette : ∀ pixel ∈ curr_pixels, map_color pixel ≤ 13) :
    (∃ opcodes, compress_frame_opcode_rle map_color curr_pixels = some opcodes ∧
      BaselineRoundTrip (curr_pixels.map map_color) opcodes) ∧
      ∃ opcodes, compress_delta_frame map_color prev_pixels curr_pixels = some opcodes ∧
        DeltaRoundTrip (prev_pixels.map map_color) (curr_pixels.map map_color) opcodes := by
  have small : ∀ pixel ∈ curr_pixels, map_color pixel < 16 := fun pixel member =>
    Nat.lt_of_le_of_lt (palette pixel member) (by decide)
  constructor
  · refine ⟨_, ?_, baseline_round_trip map_color curr_pixels currLength small⟩
    rw [compress_frame_opcode_rle, if_neg (not_not.mpr currLength)]
  · refine ⟨_, ?_, delta_round_trip (prev_pixels.map map_color) (curr_pixels.map map_color)
      (by rw [List.length_map, prevLength]) (by rw [List.length_map, currLength])
        fun color member => ?_⟩
    · rw [compress_delta_frame, if_neg (by simp [prevLength, currLength])]
    · obtain ⟨pixel, inside, rfl⟩ := List.mem_map.mp member
      exact small pixel inside

/-- The characters of the animation are such a reading. -/
theorem map_color_to_palette_le (char : Char) : map_color_to_palette char ≤ 13 := by
  have entries : ∀ table : List (Char × ℕ), (∀ entry ∈ table, entry.2 ≤ 13) →
      (table.lookup char).getD 0 ≤ 13 := by
    intro table bounded
    induction table with
    | nil => exact Nat.zero_le _
    | cons entry table inductionHypothesis =>
      rw [List.lookup_cons]
      split
      · exact bounded entry List.mem_cons_self
      · exact inductionHypothesis fun other later => bounded other (List.mem_cons_of_mem _ later)
  exact entries color_map (by decide)

/-- A blue frame, and then a white one. -/
theorem blue_white_round_trip :
    (∃ opcodes, compress_frame_opcode_rle map_color_to_palette
      (List.replicate 4096 '.') = some opcodes ∧
      BaselineRoundTrip ((List.replicate 4096 '.').map map_color_to_palette) opcodes) ∧
      ∃ opcodes, compress_delta_frame map_color_to_palette (List.replicate 4096 ',')
        (List.replicate 4096 '.') =
          some opcodes ∧
        DeltaRoundTrip ((List.replicate 4096 ',').map map_color_to_palette)
          ((List.replicate 4096 '.').map map_color_to_palette) opcodes :=
  frame_round_trip map_color_to_palette _ _ List.length_replicate List.length_replicate
    fun _ _ => map_color_to_palette_le _

end Nyancat

end MyCpu
