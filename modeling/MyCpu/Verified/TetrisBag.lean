import Mathlib.Data.List.Perm.Basic
import Mathlib.Logic.Function.Iterate
import MyCpu.Lib.ShiftXor
import MyCpu.Verified.TetrisPlay

/-! # The bag of seven shapes

A shuffle only exchanges entries, and the bag is shuffled again when its seven shapes have been
drawn: each round of seven draws has every shape once.  The random numbers behind it come from a map
that can be undone and keeps 0, so that no other state ever leads to 0. -/

namespace MyCpu.Tetris.Bag

/-! ## Shuffles -/

/-- The shapes in the order of `tetris.h`. -/
def shapes : List (BitVec 8) := (List.range NUM_SHAPES).map (BitVec.ofNat 8)

/-- Each shape once. -/
def Full (bag : Bag) : Prop := bag.bag.toList.Perm shapes

variable {bag : Bag}

theorem get_eq {i : ℕ} (inside : i < NUM_SHAPES) : bag.get i = bag.bag[i] := by
  rw [get, Vector.getElem?_eq_getElem inside, Option.getD_some]

theorem exchange_perm (bag : Bag) {last : ℕ} (inside : last < NUM_SHAPES) :
    (bag.exchange last).bag.toList.Perm bag.bag.toList := by
  rw [exchange]
  simp only
  have random : (my_rand bag.rand_state).toNat % (last + 1) < last + 1 :=
    Nat.mod_lt _ (Nat.succ_pos _)
  generalize (my_rand bag.rand_state).toNat % (last + 1) = j at random ⊢
  split_ifs
  · have exchanged := @List.set_set_perm _ bag.bag.toList last j (by simpa using inside)
      (by simp only [Vector.length_toList]; omega)
    rw [Vector.toList_setIfInBounds, Vector.toList_setIfInBounds, get_eq inside,
      get_eq (show j < NUM_SHAPES by omega)]
    simpa using exchanged
  · exact .rfl

theorem exchanges_perm (lasts : List ℕ) (bag : Bag) (inside : ∀ last ∈ lasts, last < NUM_SHAPES) :
    (lasts.foldl exchange bag).bag.toList.Perm bag.bag.toList := by
  induction lasts generalizing bag with
  | nil => exact .rfl
  | cons last lasts inductionHypothesis =>
    have rest := inductionHypothesis (bag.exchange last) fun other member =>
      inside other (List.mem_cons_of_mem _ member)
    exact rest.trans (exchange_perm bag (inside last List.mem_cons_self))

theorem shuffle_full (bag : Bag) : bag.shuffle_bag.Full := by
  refine (exchanges_perm [6, 5, 4, 3, 2, 1] _ (by decide)).trans ?_
  rw [Vector.toList_ofFn]
  exact .of_eq (by decide)

/-! ## Draws -/

/-- The bag before draw `n`. -/
def bagAt (bag : Bag) (n : ℕ) : Bag := (fun bag : Bag => bag.shape_random.2)^[n] bag.shape_init

/-- The shape of draw `n`. -/
def drawn (bag : Bag) (n : ℕ) : BitVec 8 := (bag.bagAt n).shape_random.1

theorem bagAt_succ (bag : Bag) (n : ℕ) : bag.bagAt (n + 1) = (bag.bagAt n).shape_random.2 :=
  Function.iterate_succ_apply' _ _ _

/-- All seven shapes are still to be drawn, from this bag or from the next one. -/
def AtStart (bag : Bag) : Prop := bag.bag_pos = 7#8 ∨ bag.bag_pos = 0#8 ∧ bag.Full

/-- The bag that the next draw takes from. -/
def opened (bag : Bag) : Bag := if NUM_SHAPES ≤ bag.bag_pos.toNat then bag.shuffle_bag else bag

theorem shape_random_eq (bag : Bag) :
    bag.shape_random =
      (bag.opened.get bag.opened.bag_pos.toNat,
      { bag.opened with bag_pos := bag.opened.bag_pos + 1#8 }) := rfl

theorem opened_start (start : bag.AtStart) : bag.opened.bag_pos = 0#8 ∧ bag.opened.Full := by
  cases start with
  | inl finished =>
    have empty : NUM_SHAPES ≤ bag.bag_pos.toNat := by
      rw [finished]
      decide
    rw [opened, if_pos empty]
    exact ⟨rfl, shuffle_full bag⟩
  | inr fresh =>
    have more : ¬ NUM_SHAPES ≤ bag.bag_pos.toNat := by
      rw [fresh.1]
      decide
    rw [opened, if_neg more]
    exact fresh

/-- Within a round the draws take one entry after the other. -/
theorem round_draws (bag : Bag) {n : ℕ} (start : (bag.bagAt n).AtStart) {i : ℕ}
    (inside : i < NUM_SHAPES) :
    bag.drawn (n + i) = (bag.bagAt n).opened.get i ∧
      bag.bagAt (n + i + 1) = { (bag.bagAt n).opened with bag_pos := BitVec.ofNat 8 (i + 1) } := by
  induction i with
  | zero =>
    obtain ⟨pos, _⟩ := opened_start start
    rw [Nat.add_zero, drawn, bagAt_succ, shape_random_eq, pos]
    exact ⟨rfl, rfl⟩
  | succ i inductionHypothesis =>
    obtain ⟨_, before⟩ := inductionHypothesis (by omega)
    have place : (BitVec.ofNat 8 (i + 1)).toNat = i + 1 := by
      simp only [NUM_SHAPES] at inside
      rw [BitVec.toNat_ofNat]
      omega
    have stays : (bag.bagAt (n + (i + 1))).opened = bag.bagAt (n + (i + 1)) := by
      rw [← Nat.add_assoc, before, opened]
      refine if_neg ?_
      simp only [place]
      omega
    rw [drawn, bagAt_succ, shape_random_eq, stays, ← Nat.add_assoc, before]
    refine ⟨congrArg (bag.bagAt n).opened.get place, ?_⟩
    rw [BitVec.ofNat_add (i + 1)]

theorem rounds_start (bag : Bag) (k : ℕ) : (bag.bagAt (7 * k)).AtStart := by
  induction k with
  | zero => exact .inr ⟨rfl, shuffle_full bag⟩
  | succ k inductionHypothesis =>
    obtain ⟨_, last⟩ := round_draws bag inductionHypothesis (show 6 < NUM_SHAPES by decide)
    have next : bag.bagAt (7 * (k + 1)) = bag.bagAt (7 * k + 6 + 1) := rfl
    rw [next, last]
    exact .inl rfl

/-- The shapes of a round. -/
def round (bag : Bag) (k : ℕ) : List (BitVec 8) :=
  (List.range NUM_SHAPES).map fun i => bag.drawn (7 * k + i)

theorem round_perm (bag : Bag) (k : ℕ) : (bag.round k).Perm shapes := by
  have start := rounds_start bag k
  have entries : bag.round k = (bag.bagAt (7 * k)).opened.bag.toList := by
    refine List.ext_getElem (by simp [round]) fun i inside _ => ?_
    have small : i < NUM_SHAPES := by simpa [round] using inside
    simp only [round, List.getElem_map, List.getElem_range,
      (round_draws bag start small).1, get_eq small, Vector.getElem_toList]
  rw [entries]
  exact (opened_start start).2

theorem mem_shapes {shape : BitVec 8} : shape ∈ shapes ↔ shape.toNat < NUM_SHAPES := by
  revert shape
  decide +kernel

theorem drawn_known (bag : Bag) (n : ℕ) : (bag.drawn n).toNat < NUM_SHAPES := by
  have place : bag.drawn (7 * (n / 7) + n % 7) ∈ bag.round (n / 7) :=
    List.mem_map_of_mem (List.mem_range.mpr (Nat.mod_lt n (by decide)))
  rw [Nat.div_add_mod] at place
  exact mem_shapes.mp ((round_perm bag (n / 7)).mem_iff.mp place)

/-- A whole round lies within any thirteen draws. -/
theorem drawn_again (bag : Bag) (n : ℕ) {shape : BitVec 8} (known : shape.toNat < NUM_SHAPES) :
    ∃ i < 13, bag.drawn (n + i) = shape := by
  have member := (round_perm bag ((n + 6) / 7)).mem_iff.mpr (mem_shapes.mpr known)
  obtain ⟨i, inside, found⟩ := List.mem_map.mp member
  have small : i < 7 := List.mem_range.mp inside
  refine ⟨7 * ((n + 6) / 7) + i - n, by omega, ?_⟩
  rw [← found]
  congr 1
  omega

/-- Every seven draws in a round are the seven shapes, so every draw is one, and none is missing for
    long. -/
theorem seven_bag (bag : Bag) :
    (∀ k, (bag.round k).Perm shapes) ∧ (∀ n, (bag.drawn n).toNat < NUM_SHAPES) ∧
      ∀ n shape, BitVec.toNat shape < NUM_SHAPES → ∃ i < 13, bag.drawn (n + i) = shape :=
  ⟨round_perm bag, drawn_known bag, fun n _ => drawn_again bag n⟩

/-! ## Random numbers -/

theorem my_rand_injective : Function.Injective my_rand := by
  have first := @ShiftXor.xor_shiftLeft_injective 32 13 (by decide)
  have second := @ShiftXor.xor_shiftRight_injective 32 17 (by decide)
  have third := @ShiftXor.xor_shiftLeft_injective 32 5 (by decide)
  exact third.comp (second.comp first)

theorem my_rand_zero_iff (rand_state : BitVec 32) :
    my_rand rand_state = 0#32 ↔ rand_state = 0#32 := by
  have zero : my_rand 0#32 = 0#32 := by decide
  constructor
  · intro result
    exact my_rand_injective (result.trans zero.symm)
  · rintro rfl
    exact zero

theorem my_rand_iterate {rand_state : BitVec 32} (seeded : rand_state ≠ 0#32) (n : ℕ) :
    my_rand^[n] rand_state ≠ 0#32 := by
  induction n with
  | zero => exact seeded
  | succ n inductionHypothesis =>
    rw [Function.iterate_succ_apply']
    exact fun zero => inductionHypothesis ((my_rand_zero_iff _).mp zero)

theorem my_srand_seeded (bag : Bag) (seed : BitVec 32) : (bag.my_srand seed).rand_state ≠ 0#32 := by
  rw [my_srand]
  by_cases given : seed ≠ 0#32
  · rwa [if_pos given]
  · rw [if_neg given]
    exact (by decide : 12345#32 ≠ 0#32)

/-- The map can be undone and takes only 0 to 0, so a seeded state never becomes 0. -/
theorem never_zero :
    Function.Injective my_rand ∧ (∀ rand_state, my_rand rand_state = 0#32 ↔ rand_state = 0#32) ∧
      ∀ (bag : Bag) (seed : BitVec 32) (n : ℕ), my_rand^[n] (bag.my_srand seed).rand_state ≠ 0#32 :=
  ⟨my_rand_injective, my_rand_zero_iff,
  fun bag seed n => my_rand_iterate (my_srand_seeded bag seed) n⟩

end MyCpu.Tetris.Bag
