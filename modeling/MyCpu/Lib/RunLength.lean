import Mathlib.Algebra.BigOperators.Group.List.Basic
import Mathlib.Data.List.TakeWhile
import Mathlib.Tactic.Ring

/-! # Run-length drawing

A cursor moves over a line of cells and fills some of them: an instruction sets the
colour, skips cells, or fills cells.  A reader takes instructions from bytes until it
is told to stop or has nothing more to draw.  `readLoop_simulates` says when a reader
draws what the instructions say, whatever its own state looks like. -/

namespace RunLength

/-! ## Readers -/

section Readers

variable {State Byte : Type*}

/-- `while (more && bytes left) { byte = next; if (stop byte) break; step }` -/
def readLoop (more : State → Bool) (stop : Byte → Bool) (step : Byte → State → State) :
    State → List Byte → State
  | state, [] => state
  | state, byte :: rest =>
    if more state then if stop byte then state else readLoop more stop step
      (step byte state) rest else state

end Readers

/-! ## Cursors -/

section Cursors

variable {Colour : Type*}

inductive Instruction (Colour : Type*) where
  | setColour (colour : Colour)
  | skip (count : ℕ)
  | fill (count : ℕ)
deriving DecidableEq, Repr

/-- The number of cells that an instruction moves the cursor by. -/
def Instruction.advance : Instruction Colour → ℕ
  | .setColour _ => 0
  | .skip count => count
  | .fill count => count

structure Cursor (Colour : Type*) where
  cells : ℕ → Colour
  place : ℕ
  colour : Colour

namespace Cursor

/-- The cells with some of them filled. -/
def filled (cursor : Cursor Colour) (count : ℕ) : ℕ → Colour := fun cell =>
  if cursor.place ≤ cell ∧ cell < cursor.place + count then cursor.colour else cursor.cells cell

def exec (cursor : Cursor Colour) : Instruction Colour → Cursor Colour
  | .setColour colour => { cursor with colour := colour }
  | .skip count => { cursor with place := cursor.place + count }
  | .fill count => { cursor with cells := cursor.filled count, place := cursor.place + count }

def run (cursor : Cursor Colour) (instructions : List (Instruction Colour)) : Cursor Colour :=
  instructions.foldl exec cursor

theorem exec_place (cursor : Cursor Colour) (instruction : Instruction Colour) :
    (cursor.exec instruction).place = cursor.place + instruction.advance := by
  cases instruction <;> rfl

theorem run_append (cursor : Cursor Colour) (first second : List (Instruction Colour)) :
    cursor.run (first ++ second) = (cursor.run first).run second := List.foldl_append

theorem run_place (cursor : Cursor Colour) (instructions : List (Instruction Colour)) :
    (cursor.run instructions).place =
      cursor.place + (instructions.map Instruction.advance).sum := by
  induction instructions generalizing cursor with
  | nil => rfl
  | cons instruction instructions inductionHypothesis =>
    rw [run, List.foldl_cons, ← run, inductionHypothesis, exec_place, List.map_cons,
      List.sum_cons, Nat.add_assoc]

theorem filled_inside {cursor : Cursor Colour} {count cell : ℕ} (start : cursor.place ≤ cell)
    (bound : cell < cursor.place + count) : cursor.filled count cell =
      cursor.colour := if_pos ⟨start, bound⟩

theorem filled_outside {cursor : Cursor Colour} {count cell : ℕ}
    (outside : ¬ (cursor.place ≤ cell ∧ cell < cursor.place + count)) :
    cursor.filled count cell = cursor.cells cell := if_neg outside

theorem filled_zero (cursor : Cursor Colour) : cursor.filled 0 = cursor.cells := by
  funext cell
  exact filled_outside (by omega)

theorem filled_filled (cursor : Cursor Colour) (first second : ℕ) :
    (cursor.exec (.fill first)).filled second = cursor.filled (first + second) := by
  funext cell
  have place : (cursor.exec (.fill first)).place = cursor.place + first := rfl
  by_cases late : cursor.place + first ≤ cell ∧ cell < cursor.place + first + second
  · rw [filled_inside (by omega) (by omega), filled_inside (by omega) (by omega)]
    rfl
  · rw [filled_outside (by omega)]
    by_cases early : cursor.place ≤ cell ∧ cell < cursor.place + first
    · exact (filled_inside early.1 early.2).trans (filled_inside (by omega) (by omega)).symm
    · exact (filled_outside early).trans (filled_outside (by omega)).symm

/-- Cells that are filled one after another are filled. -/
theorem exec_fill_fill (cursor : Cursor Colour) (first second : ℕ) :
    (cursor.exec (.fill first)).exec (.fill second) = cursor.exec (.fill (first + second)) := by
  have cells := filled_filled cursor first second
  rw [exec, cells]
  simp only [exec, Nat.add_assoc]

theorem exec_skip_skip (cursor : Cursor Colour) (first second : ℕ) :
    (cursor.exec (.skip first)).exec (.skip second) = cursor.exec (.skip (first + second)) := by
  simp only [exec, Nat.add_assoc]

theorem exec_fill_zero (cursor : Cursor Colour) : cursor.exec (.fill 0) = cursor := by
  simp only [exec, filled_zero, Nat.add_zero]

theorem run_fills (cursor : Cursor Colour) (counts : List ℕ) :
    cursor.run (counts.map .fill) = cursor.exec (.fill counts.sum) := by
  induction counts generalizing cursor with
  | nil => exact (exec_fill_zero cursor).symm
  | cons count counts inductionHypothesis =>
    rw [List.map_cons, run, List.foldl_cons, ← run, inductionHypothesis,
      exec_fill_fill, List.sum_cons]

theorem run_skips (cursor : Cursor Colour) (counts : List ℕ) :
    cursor.run (counts.map .skip) = cursor.exec (.skip counts.sum) := by
  induction counts generalizing cursor with
  | nil => rfl
  | cons count counts inductionHypothesis =>
    rw [List.map_cons, run, List.foldl_cons, ← run, inductionHypothesis,
      exec_skip_skip, List.sum_cons]

end Cursor

/-! ## Cells in a row -/

/-- The cells from a place on hold the colours of a list. -/
def Holds (cells : ℕ → Colour) (place : ℕ) (colours : List Colour) : Prop :=
  ∀ k colour, colours[k]? = some colour → cells (place + k) = colour

theorem holds_nil (cells : ℕ → Colour) (place : ℕ) : Holds cells place [] := by
  intro k colour outside
  cases outside

theorem holds_append {cells : ℕ → Colour} {place : ℕ} {first second : List Colour} :
    Holds cells place (first ++ second) ↔ Holds cells place first ∧
      Holds cells (place + first.length) second := by
  constructor
  · intro holds
    refine ⟨fun k colour inside => holds k colour ?_, fun k colour inside => ?_⟩
    · have bound := (List.getElem?_eq_some_iff.mp inside).1
      rw [List.getElem?_append_left bound, inside]
    · rw [Nat.add_assoc]
      refine holds _ colour ?_
      rw [List.getElem?_append_right (Nat.le_add_right _ _), Nat.add_sub_cancel_left, inside]
  · intro holds k colour inside
    by_cases early : k < first.length
    · rw [List.getElem?_append_left early] at inside
      exact holds.1 k colour inside
    · rw [List.getElem?_append_right (Nat.le_of_not_lt early)] at inside
      have cell := holds.2 _ colour inside
      rwa [Nat.add_assoc, Nat.add_sub_cancel' (Nat.le_of_not_lt early)] at cell

theorem holds_constant {cells : ℕ → Colour} {place : ℕ} {colours : List Colour} {colour : Colour}
    (holds : Holds cells place colours) (constant : ∀ other ∈ colours, other = colour) {cell : ℕ}
    (start : place ≤ cell)
    (bound : cell < place + colours.length) : cells cell = colour := by
  have inside : cell - place < colours.length := by omega
  have found := holds (cell - place) colours[cell - place] (List.getElem?_eq_getElem inside)
  rw [Nat.add_sub_cancel' start] at found
  exact found.trans (constant _ (List.getElem_mem inside))

theorem holds_same {cells other : ℕ → Colour} {place : ℕ} {colours : List Colour}
    (holds : Holds cells place colours)
    (holds' : Holds other place colours) {cell : ℕ} (start : place ≤ cell)
    (bound : cell < place + colours.length) :
    cells cell = other cell := by
  have inside : cell - place < colours.length := by omega
  have found := holds (cell - place) _ (List.getElem?_eq_getElem inside)
  have found' := holds' (cell - place) _ (List.getElem?_eq_getElem inside)
  rw [Nat.add_sub_cancel' start] at found found'
  exact found.trans found'.symm

theorem holds_congr {cells other : ℕ → Colour} {place : ℕ} {colours : List Colour}
    (holds : Holds cells place colours)
    (same : ∀ cell, place ≤ cell → other cell = cells cell) : Holds other place colours :=
  fun k colour inside => (same _ (Nat.le_add_right _ _)).trans (holds k colour inside)

/-! ## Drawings -/

/-- Each instruction is carried out before the end of the line, and does not go behind it. -/
def Fits (size : ℕ) : ℕ → List (Instruction Colour) → Prop
  | _, [] => True
  | place, instruction :: rest =>
    place < size ∧ place + instruction.advance ≤ size ∧ Fits size (place + instruction.advance) rest

theorem fits_append {size place : ℕ} {first second : List (Instruction Colour)} :
    Fits size place (first ++ second) ↔
      Fits size place first ∧ Fits size (place + (first.map Instruction.advance).sum) second := by
  induction first generalizing place with
  | nil => simp [Fits]
  | cons instruction first inductionHypothesis =>
    simp only [List.cons_append, Fits, inductionHypothesis, List.map_cons, List.sum_cons,
      and_assoc, Nat.add_assoc]

/-- Positive counts of one kind of instruction that fit together. -/
theorem fits_counts {size place : ℕ} {kind : ℕ → Instruction Colour}
    (advance : ∀ count, (kind count).advance = count)
    (counts : List ℕ) (positive : ∀ count ∈ counts, 0 < count)
    (inside : place + counts.sum ≤ size) :
    Fits size place (counts.map kind) := by
  induction counts generalizing place with
  | nil => trivial
  | cons count counts inductionHypothesis =>
    have some := positive count List.mem_cons_self
    rw [List.sum_cons] at inside
    rw [List.map_cons, Fits, advance]
    exact ⟨by omega, by omega, inductionHypothesis (fun other later => positive other (List.mem_cons_of_mem _ later))
      (by omega)⟩

/-- Up to the cursor the picture is drawn. -/
def DrawnTo (picture : ℕ → Colour) (cursor : Cursor Colour) : Prop :=
  ∀ cell < cursor.place, cursor.cells cell = picture cell

theorem drawnTo_skip {picture : ℕ → Colour} {cursor : Cursor Colour} {count : ℕ}
    (drawn : DrawnTo picture cursor)
    (same : ∀ cell, cursor.place ≤ cell → cell < cursor.place + count →
      cursor.cells cell = picture cell) :
    DrawnTo picture (cursor.exec (.skip count)) := by
  intro cell inside
  by_cases early : cell < cursor.place
  · exact drawn cell early
  · exact same cell (Nat.le_of_not_lt early) inside

theorem drawnTo_fill {picture : ℕ → Colour} {cursor : Cursor Colour} {count : ℕ}
    (drawn : DrawnTo picture cursor)
    (constant : ∀ cell, cursor.place ≤ cell → cell < cursor.place + count →
      picture cell = cursor.colour) :
    DrawnTo picture (cursor.exec (.fill count)) := by
  intro cell inside
  by_cases early : cell < cursor.place
  · exact (Cursor.filled_outside (by omega)).trans (drawn cell early)
  · have late := Nat.le_of_not_lt early
    exact (Cursor.filled_inside late inside).trans (constant cell late inside).symm

end Cursors

/-! ## Readers of instructions -/

section Simulation

variable {State Byte Colour Opcode : Type*} {more : State → Bool} {stop : Byte → Bool}
    {step : Byte → State → State}

/-- A reader whose step is an instruction draws what the instructions say. -/
theorem readLoop_simulates (Refines : State → Cursor Colour → Prop) {size : ℕ}
    (encode : Opcode → Byte)
    (meaning : Opcode → Instruction Colour) (Allowed : Opcode → Prop)
    (running : ∀ state cursor, Refines state cursor → cursor.place < size → more state = true)
    (silent : ∀ opcode, Allowed opcode → stop (encode opcode) = false)
    (stepped : ∀ state cursor opcode, Refines state cursor → Allowed opcode → cursor.place < size →
      cursor.place + (meaning opcode).advance ≤ size →
      Refines (step (encode opcode) state) (cursor.exec (meaning opcode)))
    (opcodes : List Opcode) (allowed : ∀ opcode ∈ opcodes, Allowed opcode) (state : State)
    (cursor : Cursor Colour)
    (refines : Refines state cursor)
    (fits : Fits size cursor.place (opcodes.map meaning)) (last : Byte)
    (stops : stop last = true) :
    Refines (readLoop more stop step state (opcodes.map encode ++ [last]))
      (cursor.run (opcodes.map meaning)) := by
  induction opcodes generalizing state cursor with
  | nil =>
    rw [List.map_nil, List.nil_append, readLoop, stops, if_pos rfl, ite_self]
    exact refines
  | cons opcode opcodes inductionHypothesis =>
    obtain ⟨before, bound, rest⟩ := fits
    have valid := allowed opcode List.mem_cons_self
    rw [List.map_cons, List.cons_append, readLoop,
      if_pos (running _ _ refines before), silent _ valid, if_neg Bool.false_ne_true]
    refine inductionHypothesis (fun other later => allowed other (List.mem_cons_of_mem _ later)) _
      (cursor.exec (meaning opcode)) (stepped _ _ _ refines valid before bound) ?_
    rwa [Cursor.exec_place]

end Simulation

end RunLength
