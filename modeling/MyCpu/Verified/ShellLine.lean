import MyCpu.Lib.PackedBytes
import MyCpu.Software.Shell

/-! # The line of the shell

`line_buf` is written one byte at a time through its words.  `read_line` waits as long as no byte
ends the line, and then leaves the edited line in the buffer. -/

namespace MyCpu.Shell

/-! ## Bytes of the buffer -/

namespace LineBuf

variable {line_buf_words : LineBuf}

/-- The bytes of the words. -/
def SIZE : ℕ := 84

theorem byte_pos_eq (index : ℕ) : (index &&& 3) <<< 3 = 8 * (index % 4) := by
  rw [Nat.shiftLeft_eq, Nat.mul_comm]
  exact congrArg (8 * ·) (Nat.and_two_pow_sub_one_eq_mod index 2)

theorem word_idx_eq (index : ℕ) : index >>> 2 = index / 4 := Nat.shiftRight_eq_div_pow index 2

theorem line_buf_eq (index : ℕ) :
    line_buf_words.line_buf index = line_buf_words[index / 4]?.map fun word =>
      PackedBytes.read word (index % 4) := by
  rw [line_buf, byte_pos_eq, word_idx_eq]
  rfl

/-- A write inside the words changes its own byte only. -/
theorem line_buf_write {index : ℕ} (inside : index < SIZE) (val : Byte) :
    ∃ written, line_buf_words.line_buf_write_byte index val = some written ∧
      ∀ j, written.line_buf j = if j = index then some val else line_buf_words.line_buf j := by
  have place : index / 4 < LINE_BUF_SIZE / 4 + 1 := by
    simp only [SIZE, LINE_BUF_SIZE] at inside ⊢
    omega
  have word : line_buf_words[index / 4]? = some (line_buf_words[index / 4]) :=
    Vector.getElem?_eq_getElem place
  refine ⟨line_buf_words.setIfInBounds (index / 4)
    (PackedBytes.write line_buf_words[index / 4] (index % 4) val), ?_, fun j => ?_⟩
  · simp only [line_buf_write_byte, byte_pos_eq, word_idx_eq, word]
    rfl
  · rw [line_buf_eq, line_buf_eq, Vector.getElem?_setIfInBounds]
    by_cases same : index / 4 = j / 4
    · rw [if_pos same, if_pos place, ← same, word, Option.map_some, Option.map_some,
        PackedBytes.read_write _ (Nat.mod_lt _ (by decide)) (Nat.mod_lt _ (by decide))]
      by_cases lane : j % 4 = index % 4
      · rw [if_pos lane, if_pos (by omega)]
      · rw [if_neg lane, if_neg fun equal => lane (congrArg (· % 4) equal)]
    · rw [if_neg same, if_neg fun equal => same (congrArg (· / 4) equal.symm)]

/-- The string at a place, and its terminator. -/
structure HoldsString (line_buf_words : LineBuf) (start : ℕ) (text : List Byte) : Prop where
  bytes : ∀ i < text.length, line_buf_words.line_buf (start + i) = text[i]?
  terminator : line_buf_words.line_buf (start + text.length) = some 0#8

end LineBuf

open Loop (Outcome)

/-! ## Editing -/

/-- A byte that ends the line. -/
def EndsLine (c : Byte) : Prop := c = 13#8 ∨ c = 10#8

instance (c : Byte) : Decidable (EndsLine c) := inferInstanceAs (Decidable (_ ∨ _))

/-- What a byte does to the line: backspace and delete remove the last byte, a printable one is
    appended while there is room, and others do nothing. -/
def edit (text : List Byte) (c : Byte) : List Byte :=
  if c = 0x7f#8 ∨ c = 0x08#8 then text.dropLast
  else if 0x20#8 ≤ c ∧ c < 0x7f#8 ∧ text.length < LINE_BUF_SIZE - 1 then text ++ [c]
  else text

/-- The line that has been typed. -/
def edited (bytes : List Byte) : List Byte := bytes.foldl edit []

/-- The buffer starts with the line. -/
structure Editing (state : LineState) (text : List Byte) : Prop where
  len : state.len = text.length
  room : text.length ≤ LINE_BUF_SIZE - 1
  bytes : ∀ i < text.length, state.line_buf_words.line_buf i = text[i]?

section Editing

variable {state : LineState} {text : List Byte} {c : Byte}

theorem round_edits (editing : Editing state text) (other : ¬ EndsLine c) :
    ∃ next, read_line_round state c = some (.again next) ∧ Editing next (edit text c) := by
  obtain ⟨len, room, bytes⟩ := editing
  rw [EndsLine] at other
  rw [read_line_round, if_neg other, edit]
  by_cases removes : c = 0x7f#8 ∨ c = 0x08#8
  · rw [if_pos removes, if_pos removes]
    have kept : ∀ i < text.dropLast.length, state.line_buf_words.line_buf i =
        text.dropLast[i]? := by
      intro i inside
      rw [List.length_dropLast] at inside
      rw [bytes i (by omega), List.getElem?_dropLast, if_pos inside]
    -- at the start of the line there is nothing to remove
    by_cases some : 0 < state.len
    · rw [if_pos some]
      exact ⟨_, rfl, by simp [len], by simp; omega, kept⟩
    · rw [if_neg some]
      have empty : text.length = 0 := by omega
      exact ⟨_, rfl, by simp [len, empty], by simp; omega, kept⟩
  · rw [if_neg removes, if_neg removes, len]
    by_cases typed : 0x20#8 ≤ c ∧ c < 0x7f#8 ∧ text.length < LINE_BUF_SIZE - 1
    · obtain ⟨written, write, after⟩ := @LineBuf.line_buf_write state.line_buf_words text.length
        (by simp only [LineBuf.SIZE, LINE_BUF_SIZE] at room ⊢; omega) c
      rw [if_pos typed, if_pos typed, write]
      refine ⟨_, rfl, by simp, by simp; omega, fun i inside => ?_⟩
      rw [List.length_append, List.length_singleton] at inside
      rw [after]
      by_cases last : i = text.length
      · rw [if_pos last, last, List.getElem?_append_right (Nat.le_refl _), Nat.sub_self]
        rfl
      · rw [if_neg last, bytes i (by omega), List.getElem?_append_left (by omega)]
    · -- a control character, or no room in the buffer
      rw [if_neg typed, if_neg typed]
      exact ⟨state, rfl, len, room, bytes⟩

theorem round_ends (editing : Editing state text) (ends : EndsLine c) :
    ∃ result, read_line_round state c = some (.stop result) ∧ result.len = text.length ∧
      result.line_buf_words.HoldsString 0 text := by
  obtain ⟨len, room, bytes⟩ := editing
  obtain ⟨written, write, after⟩ := @LineBuf.line_buf_write state.line_buf_words state.len
    (by simp only [LineBuf.SIZE, LINE_BUF_SIZE] at room ⊢; omega) 0#8
  rw [EndsLine] at ends
  rw [read_line_round, if_pos ends, write]
  refine ⟨_, rfl, len, fun i inside => ?_, ?_⟩
  · rw [Nat.zero_add, after, if_neg (by omega), bytes i inside]
  · rw [Nat.zero_add, after, if_pos len.symm]

theorem read_line_waits (editing : Editing state text) {input : List Byte}
    (plain : ∀ c ∈ input, ¬ EndsLine c) :
    ∃ next, read_line input state = some (.again next) ∧ Editing next (input.foldl edit text) := by
  induction input generalizing state text with
  | nil => exact ⟨state, rfl, editing⟩
  | cons c input inductionHypothesis =>
    obtain ⟨next, round, editing⟩ := round_edits editing (plain c List.mem_cons_self)
    rw [read_line, round]
    exact inductionHypothesis editing
      fun other member => plain other (List.mem_cons_of_mem _ member)

theorem read_line_returns (editing : Editing state text) {input : List Byte}
    (plain : ∀ c ∈ input, ¬ EndsLine c)
    (ends : EndsLine c) (rest : List Byte) :
    ∃ result, read_line (input ++ c :: rest) state = some (.stop (result, rest)) ∧
      result.len = (input.foldl edit text).length ∧
      result.line_buf_words.HoldsString 0 (input.foldl edit text) := by
  induction input generalizing state text with
  | nil =>
    obtain ⟨result, round, stopped⟩ := round_ends editing ends
    rw [List.nil_append, read_line, round]
    exact ⟨result, rfl, stopped⟩
  | cons other input inductionHypothesis =>
    obtain ⟨next, round, editing⟩ := round_edits editing (plain other List.mem_cons_self)
    rw [List.cons_append, read_line, round]
    exact inductionHypothesis editing fun more member => plain more (List.mem_cons_of_mem _ member)

/-- Only printable bytes are in the line. -/
theorem edit_nonzero (nonzero : ∀ c ∈ text, c ≠ 0#8) (c : Byte) : ∀ c' ∈ edit text c, c' ≠ 0#8 := by
  intro c' member
  rw [edit] at member
  split_ifs at member with removes typed
  · exact nonzero c' (List.mem_of_mem_dropLast member)
  · rw [List.mem_append, List.mem_singleton] at member
    cases member with
    | inl old => exact nonzero c' old
    | inr new =>
      rintro rfl
      rw [← new] at typed
      exact absurd typed.1 (by decide)
  · exact nonzero c' member

theorem edited_nonzero (input : List Byte) : ∀ c ∈ edited input, c ≠ 0#8 := by
  have kept : ∀ text : List Byte, (∀ c ∈ text, c ≠ 0#8) → ∀ c ∈ input.foldl edit text, c ≠ 0#8 := by
    induction input with
    | nil => exact fun _ => id
    | cons c input inductionHypothesis =>
      exact fun text nonzero => inductionHypothesis _ (edit_nonzero nonzero c)
  exact kept [] (List.forall_mem_nil _)

end Editing

end MyCpu.Shell
