import Mathlib.Logic.Function.Basic
import Mathlib.Tactic.SplitIfs

/-! # Painting

Cells are painted with one colour, one after the other, each at its address: in the end every
address of a painted cell has the colour, and the others are as before.  Tiles of several colours
are laid in the same way; where all tiles that cover an address have one colour, their order does
not matter. -/

namespace Painting

variable {Cell Address Colour : Type*} [DecidableEq Address]

/-- The loop over the cells. -/
def paint (painted : Cell → Bool) (address : Cell → Address) (colour : Colour) (cells : List Cell)
    (canvas : Address → Colour) : Address → Colour :=
  cells.foldl (fun canvas cell => if painted cell then Function.update canvas
    (address cell) colour else canvas) canvas

variable {painted : Cell → Bool} {address : Cell → Address} {colour : Colour} {cells : List Cell}
  {canvas : Address → Colour} {place : Address}

/-- A painted cell lies at the address. -/
def Covered (painted : Cell → Bool) (address : Cell → Address) (cells : List Cell)
    (place : Address) : Prop :=
  ∃ cell ∈ cells, painted cell = true ∧ address cell = place

theorem paint_uncovered (free : ¬ Covered painted address cells place) :
    paint painted address colour cells canvas place = canvas place := by
  induction cells generalizing canvas with
  | nil => rfl
  | cons cell cells inductionHypothesis =>
    have rest : ¬ Covered painted address cells place := fun ⟨other, member, here⟩ =>
      free ⟨other, List.mem_cons_of_mem _ member, here⟩
    rw [paint, List.foldl_cons, ← paint, inductionHypothesis rest]
    split_ifs with shown
    · exact Function.update_of_ne
        (fun same => free ⟨cell, List.mem_cons_self, shown, same.symm⟩) _ _
    · rfl

theorem paint_covered (covered : Covered painted address cells place) :
    paint painted address colour cells canvas place = colour := by
  induction cells generalizing canvas with
  | nil =>
    obtain ⟨cell, none, _⟩ := covered
    cases none
  | cons cell cells inductionHypothesis =>
    rw [paint, List.foldl_cons, ← paint]
    by_cases later : Covered painted address cells place
    · exact inductionHypothesis later
    · -- only the first cell lies there
      obtain ⟨other, member, shown, here⟩ := covered
      rw [paint_uncovered later]
      cases List.mem_cons.mp member with
      | inl same =>
        subst same
        rw [if_pos shown, here, Function.update_self]
      | inr behind => exact absurd ⟨other, behind, shown, here⟩ later

/-! ## Tiles -/

section Tiles

omit [DecidableEq Address]

variable {Tile : Type*} {lay : (Address → Colour) → Tile → Address → Colour} {covers : Tile → Prop}
  [DecidablePred covers] {colourOf : Tile → Colour} {tiles : List Tile}

theorem tiles_uncovered
    (each : ∀ canvas, ∀ tile ∈ tiles, lay canvas tile place = if covers tile then
      colourOf tile else canvas place)
    (free : ∀ tile ∈ tiles, ¬ covers tile) : tiles.foldl lay canvas place = canvas place := by
  induction tiles generalizing canvas with
  | nil => rfl
  | cons tile tiles inductionHypothesis =>
    rw [List.foldl_cons, inductionHypothesis
      (fun canvas other member => each canvas other (List.mem_cons_of_mem _ member))
      (fun other member => free other (List.mem_cons_of_mem _ member)), each _ _ List.mem_cons_self,
      if_neg (free tile List.mem_cons_self)]

theorem tiles_covered
    (each : ∀ canvas, ∀ tile ∈ tiles, lay canvas tile place = if covers tile then
      colourOf tile else canvas place)
    (agree : ∀ tile ∈ tiles, covers tile → colourOf tile = colour)
    (covered : ∃ tile ∈ tiles, covers tile) :
    tiles.foldl lay canvas place = colour := by
  induction tiles generalizing canvas with
  | nil =>
    obtain ⟨tile, none, _⟩ := covered
    cases none
  | cons tile tiles inductionHypothesis =>
    have behind := fun canvas other member => each canvas other (List.mem_cons_of_mem tile member)
    rw [List.foldl_cons]
    by_cases later : ∃ other ∈ tiles, covers other
    · exact inductionHypothesis behind
        (fun other member => agree other (List.mem_cons_of_mem _ member)) later
    · -- only the first tile covers the place
      have first : covers tile := by
        obtain ⟨other, member, covering⟩ := covered
        cases List.mem_cons.mp member with
        | inl same => rwa [← same]
        | inr rest => exact absurd ⟨other, rest, covering⟩ later
      rw [tiles_uncovered behind fun other member covering => later ⟨other, member, covering⟩,
        each _ _ List.mem_cons_self, if_pos first, agree tile List.mem_cons_self first]

end Tiles

end Painting
