import Mathlib.Data.List.Basic
import Mathlib.Data.Nat.Notation

/-! # Ages that saturate

A table of entries in groups, and the list of their uses, the latest first.  Each entry has an age:
a use makes it 0, and every use of another entry makes it one older, up to a cap.  As long as an
entry is under the cap, its age tells the order of the uses; entries that have reached the cap
cannot be told apart. -/

namespace Recency

variable {ι γ : Type*} [DecidableEq ι] {cap : ℕ}

/-- The age of an entry that is not used. -/
def aged (cap age : ℕ) : ℕ := if age < cap then age + 1 else age

/-- The first age does not exceed the second, and equals it under the cap only. -/
def Younger (cap age age' : ℕ) : Prop := age < age' ∨ (age = cap ∧ age' = cap)

theorem younger_aged {age age' : ℕ} (bound : age' ≤ cap) (younger : Younger cap age age') :
    Younger cap (aged cap age) (aged cap age') := by
  simp only [Younger, aged] at younger ⊢
  split_ifs <;> omega

theorem younger_zero (positive : 0 < cap) (age : ℕ) : Younger cap 0 (aged cap age) := by
  simp only [Younger, aged]
  split_ifs <;> omega

/-- The ages tell the order of the uses within each group, but for entries that have reached the
    cap. -/
structure Ordered (cap : ℕ) (uses : List ι) (group : ι → Option γ) (age : ι → ℕ) : Prop where
  bounded : ∀ i, age i ≤ cap
  used : ∀ i g, group i = some g → i ∈ uses
  younger : ∀ i j g, group i = some g → group j = some g → uses.idxOf i < uses.idxOf j →
    Younger cap (age i) (age j)

variable {uses : List ι} {group : ι → Option γ} {age : ι → ℕ}

/-- A use of one entry, which may move to another group by it. -/
theorem Ordered.use (ordered : Ordered cap uses group age) (positive : 0 < cap) (entry : ι)
    {group' : ι → Option γ}
    {age' : ι → ℕ} (others : ∀ i, i ≠ entry → group' i = group i) (fresh : age' entry = 0)
    (older : ∀ i g, i ≠ entry → group i = some g → age' i = aged cap (age i))
    (bounded : ∀ i, age' i ≤ cap) : Ordered cap (entry :: uses) group' age' where
  bounded := bounded
  used i g member := by
    by_cases own : i = entry
    · exact own ▸ List.mem_cons_self
    · exact List.mem_cons_of_mem _ (ordered.used i g (others i own ▸ member))
  younger i j g first second before := by
    by_cases last : j = entry
    · rw [last, List.idxOf_cons_self] at before
      exact absurd before (Nat.not_lt_zero _)
    · have second' := others j last ▸ second
      rw [older j g last second']
      by_cases own : i = entry
      · rw [own, fresh]
        exact younger_zero positive _
      · have first' := others i own ▸ first
        rw [List.idxOf_cons_ne _ (Ne.symm own), List.idxOf_cons_ne _ (Ne.symm last)] at before
        rw [older i g own first']
        exact younger_aged (ordered.bounded j)
          (ordered.younger i j g first' second' (Nat.lt_of_succ_lt_succ before))

/-- A use of the latest entry of a group leaves the ages in order as they are. -/
theorem Ordered.again (ordered : Ordered cap uses group age) {entry : ι}
    (latest : ∀ j g, group entry = some g → group j = some g → j ≠ entry →
      uses.idxOf entry < uses.idxOf j) :
    Ordered cap (entry :: uses) group age where
  bounded := ordered.bounded
  used i g member := List.mem_cons_of_mem _ (ordered.used i g member)
  younger i j g first second before := by
    by_cases last : j = entry
    · rw [last, List.idxOf_cons_self] at before
      exact absurd before (Nat.not_lt_zero _)
    · by_cases own : i = entry
      · subst own
        exact ordered.younger i j g first second (latest j g first second last)
      · rw [List.idxOf_cons_ne _ (Ne.symm own), List.idxOf_cons_ne _ (Ne.symm last)] at before
        exact ordered.younger i j g first second (Nat.lt_of_succ_lt_succ before)

/-- An entry that is younger than all others of its group is the latest of them. -/
theorem Ordered.latest (ordered : Ordered cap uses group age) {entry : ι} {g : γ}
    (member : group entry = some g)
    (least : ∀ j, group j = some g → j ≠ entry → age entry < age j) (j : ι)
    (other : group j = some g)
    (different : j ≠ entry) : uses.idxOf entry < uses.idxOf j := by
  obtain earlier | same | later := Nat.lt_trichotomy (uses.idxOf entry) (uses.idxOf j)
  · exact earlier
  · exact absurd ((List.idxOf_inj (ordered.used entry g member)).mp same).symm different
  · have younger := ordered.younger j entry g other member later
    have older := least j other different
    rw [Younger] at younger
    omega

/-- The entry that comes first of those with a property. -/
theorem find?_first {holds : ι → Bool} {entry : ι} (member : entry ∈ uses)
    (own : holds entry = true)
    (first : ∀ j, holds j = true → j ≠ entry → uses.idxOf entry < uses.idxOf j) :
    uses.find? holds = some entry := by
  induction uses with
  | nil => cases member
  | cons head rest inductionHypothesis =>
    by_cases same : head = entry
    · rw [same, List.find?_cons_of_pos own]
    · have misses : ¬ holds head = true := by
        intro hits
        have before := first head hits same
        rw [List.idxOf_cons_self] at before
        exact Nat.not_lt_zero _ before
      rw [List.find?_cons_of_neg misses]
      refine inductionHypothesis ((List.mem_cons.mp member).resolve_left (Ne.symm same))
        fun j hits different => ?_
      have other : head ≠ j := fun equal => misses (equal ▸ hits)
      have before := first j hits different
      rw [List.idxOf_cons_ne _ same, List.idxOf_cons_ne _ other] at before
      exact Nat.lt_of_succ_lt_succ before

end Recency
