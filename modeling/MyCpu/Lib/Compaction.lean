import Mathlib.Data.List.Basic
import Mathlib.Data.Nat.Notation

/-! # Compaction in place

A list of fixed length is scanned from its start.  An entry that is to go is taken out, the entries
behind it move up by one, and a filler takes the last place; the index then stays where it is.  What
is left are the other entries in their order, and as many fillers as entries have gone. -/

namespace Compaction

variable {Entry : Type*} (goes : Entry → Bool) (filler : Entry)

/-- The entry at `place` is taken out. -/
def takeOut (entries : List Entry) (place : ℕ) : List Entry := entries.eraseIdx place ++ [filler]

/-- The scan from `place` on, with the number of entries that have gone. -/
def scan : ℕ → List Entry → ℕ → ℕ → List Entry × ℕ
  | 0, entries, _, gone => (entries, gone)
  | steps + 1, entries, place, gone =>
    match entries[place]? with
    | some entry =>
      if goes entry then scan steps (takeOut filler entries place) place (gone + 1)
      else scan steps entries (place + 1) gone
    | none => (entries, gone)

variable {goes} {filler}

theorem takeOut_middle (before behind : List Entry) (entry : Entry) (gone : ℕ) :
    takeOut filler (before ++ entry :: behind ++ List.replicate gone filler) before.length =
      before ++ behind ++ List.replicate (gone + 1) filler := by
  rw [takeOut, List.append_assoc, List.eraseIdx_append_of_length_le (Nat.le_refl _),
    Nat.sub_self, List.cons_append, List.eraseIdx_cons_zero, List.append_assoc, List.append_assoc,
    List.append_assoc, List.replicate_succ']

theorem at_middle (before behind : List Entry) (entry : Entry) (gone : ℕ) :
    (before ++ entry :: behind ++ List.replicate gone filler)[before.length]? = some entry := by
  rw [List.append_assoc, List.getElem?_append_right (Nat.le_refl _), Nat.sub_self]
  rfl

/-- The fillers are only passed. -/
theorem scan_fillers (kept : goes filler = false) {steps place : ℕ}
    (entries : List Entry) (left gone : ℕ)
    (fillers : ∀ i < left, entries[place + i]? = some filler) (ends : entries.length = place + left)
    (enough : left ≤ steps) : scan goes filler steps entries place gone = (entries, gone) := by
  induction left generalizing steps place with
  | zero =>
    cases steps with
    | zero => rfl
    | succ steps =>
      have outside : entries[place]? = none := List.getElem?_eq_none (Nat.le_of_eq ends)
      rw [scan, outside]
  | succ left inductionHypothesis =>
    obtain ⟨steps, rfl⟩ := Nat.exists_eq_succ_of_ne_zero (show steps ≠ 0 by omega)
    have first := fillers 0 (Nat.succ_pos _)
    rw [Nat.add_zero] at first
    rw [scan, first]
    simp only [kept, Bool.false_eq_true, if_false]
    refine inductionHypothesis (fun i inside => ?_) (by omega) (by omega)
    rw [Nat.add_assoc, Nat.add_comm 1 i]
    exact fillers (i + 1) (by omega)

/-- Before each round: the entries kept so far, those still to be looked at, and a filler for each
    that has gone. -/
theorem scan_middle (kept : goes filler = false) {steps : ℕ} (before behind : List Entry) (gone : ℕ)
    (enough : 2 * behind.length + gone ≤ steps) :
    scan goes filler steps (before ++ behind ++ List.replicate gone filler) before.length gone =
      (before ++ behind.filter (fun entry => !goes entry) ++ List.replicate
        (gone + behind.countP goes) filler, gone + behind.countP goes) := by
  induction behind generalizing steps before gone with
  | nil =>
    rw [List.append_nil, List.filter_nil, List.append_nil, List.countP_nil, Nat.add_zero]
    refine scan_fillers kept _ gone gone (fun i inside => ?_) (by simp) (by simpa using enough)
    rw [List.getElem?_append_right (Nat.le_add_right _ _), Nat.add_sub_cancel_left,
      List.getElem?_replicate, if_pos inside]
  | cons entry behind inductionHypothesis =>
    rw [List.length_cons] at enough
    obtain ⟨steps, rfl⟩ := Nat.exists_eq_succ_of_ne_zero (show steps ≠ 0 by omega)
    rw [scan, at_middle]
    cases decided : goes entry with
    | true =>
      simp only [decided, if_true]
      rw [takeOut_middle, inductionHypothesis before (gone + 1) (by omega),
        List.filter_cons_of_neg (by simp [decided]), List.countP_cons_of_pos decided,
        Nat.add_assoc, Nat.add_comm 1]
    | false =>
      have moved : before ++ entry :: behind = before ++ [entry] ++ behind := List.append_cons _ _ _
      have place : before.length + 1 = (before ++ [entry]).length := by simp
      simp only [decided, Bool.false_eq_true, if_false]
      rw [moved, place, inductionHypothesis (before ++ [entry]) gone (by omega),
        List.filter_cons_of_pos (by simp [decided]), List.countP_cons_of_neg (by simp [decided])]
      simp only [List.append_assoc, List.singleton_append]

/-- The scan keeps what is to stay. -/
theorem scan_filters (kept : goes filler = false) {steps : ℕ} (entries : List Entry)
    (enough : 2 * entries.length ≤ steps) :
    scan goes filler steps entries 0 0 =
      (entries.filter (fun entry => !goes entry) ++ List.replicate (entries.countP goes) filler,
        entries.countP goes) := by
  have middle := scan_middle kept [] entries 0 enough
  simpa using middle

end Compaction
