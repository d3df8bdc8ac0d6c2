import Mathlib.Data.List.Destutter
import Mathlib.Logic.Basic

/-! # Lines between brackets

A receiver of a stream of symbols that keeps what stands between an opening and a closing bracket
and ignores the rest. A sender that encloses each of its lines in brackets, and has no bracket in
what it sends otherwise, is understood. -/

/-- The line that is being received, and the lines that have been. -/
structure Receiver (Symbol : Type*) where
  current : Option (List Symbol)
  lines : List (List Symbol)

namespace Receiver

variable {Symbol : Type*} [DecidableEq Symbol] (opening closing : Symbol)

def idle (lines : List (List Symbol)) : Receiver Symbol := ⟨none, lines⟩

def receive (receiver : Receiver Symbol) (c : Symbol) : Receiver Symbol :=
  match receiver.current with
  | none => if c = opening then { receiver with current := some [] } else receiver
  | some line =>
    if c = closing then ⟨none, receiver.lines ++ [line]⟩
      else { receiver with current := some (line ++ [c]) }

def receives (receiver : Receiver Symbol) (text : List Symbol) : Receiver Symbol :=
  text.foldl (receive opening closing) receiver

theorem receives_append (receiver : Receiver Symbol) (text more : List Symbol) :
    receiver.receives opening closing (text ++ more) =
      (receiver.receives opening closing text).receives opening closing more :=
  List.foldl_append

variable {opening closing} {lines : List (List Symbol)} {text : List Symbol}

/-- What stands outside of the brackets is ignored. -/
theorem receives_outside (outside : opening ∉ text) :
    (idle lines).receives opening closing text = idle lines := by
  induction text with
  | nil => rfl
  | cons c text inductionHypothesis =>
    rw [List.mem_cons, not_or] at outside
    have ignored : (idle lines).receive opening closing c = idle lines := if_neg (Ne.symm outside.1)
    rw [receives, List.foldl_cons, ignored]
    exact inductionHypothesis outside.2

theorem receives_inside (inside : closing ∉ text) (line : List Symbol) :
    (⟨some line, lines⟩ : Receiver Symbol).receives opening closing text =
      ⟨some (line ++ text), lines⟩ := by
  induction text generalizing line with
  | nil => rw [List.append_nil, receives, List.foldl_nil]
  | cons c text inductionHypothesis =>
    rw [List.mem_cons, not_or] at inside
    have kept : (⟨some line, lines⟩ : Receiver Symbol).receive opening closing c =
        ⟨some (line ++ [c]), lines⟩ :=
      if_neg (Ne.symm inside.1)
    rw [receives, List.foldl_cons, kept, ← List.singleton_append (l := text), ← List.append_assoc]
    exact inductionHypothesis inside.2 (line ++ [c])

/-- A line in its brackets. -/
theorem receives_line (inside : closing ∉ text) :
    (idle lines).receives opening closing (opening :: text ++ [closing]) =
      idle (lines ++ [text]) := by
  have opened : (idle lines).receives opening closing (opening :: text) = ⟨some text, lines⟩ := by
    rw [receives, List.foldl_cons, receive, idle, if_pos rfl]
    exact receives_inside inside []
  have closed : (⟨some text, lines⟩ : Receiver Symbol).receive opening closing closing =
      idle (lines ++ [text]) :=
    if_pos rfl
  rw [receives_append, opened]
  exact closed

/-! ## A line for every change -/

/-- An element at the end counts if it is not the last one again. -/
theorem destutter_concat (l : List Symbol) (a : Symbol) :
    (l ++ [a]).destutter (· ≠ ·) =
      l.destutter (· ≠ ·) ++ if l.getLast? = some a then [] else [a] := by
  have behind : ∀ (l : List Symbol) (b : Symbol), (l ++ [a]).destutter' (· ≠ ·) b =
      l.destutter' (· ≠ ·) b ++ if (b :: l).getLast? = some a then [] else [a] := by
    intro l
    induction l with
    | nil =>
      intro b
      by_cases same : b = a <;> simp [List.destutter', same]
    | cons c l inductionHypothesis =>
      intro b
      rw [List.getLast?_cons_cons, List.cons_append]
      by_cases differs : b ≠ c
      · rw [List.destutter'_cons_pos _ differs,
          List.destutter'_cons_pos _ differs, inductionHypothesis]
        rfl
      · rw [List.destutter'_cons_neg _ differs,
          List.destutter'_cons_neg _ differs, inductionHypothesis, not_ne_iff.mp differs]
  cases l with
  | nil => rfl
  | cons b l => exact behind l b

/-- The last element is among those that count. -/
theorem destutter_getLast (l : List Symbol) : (l.destutter (· ≠ ·)).getLast? = l.getLast? := by
  induction l using List.reverseRecOn with
  | nil => rfl
  | append_singleton l a inductionHypothesis =>
    rw [destutter_concat, List.getLast?_concat]
    split_ifs with same
    · rw [List.append_nil, inductionHypothesis, same]
    · exact List.getLast?_concat

end Receiver
