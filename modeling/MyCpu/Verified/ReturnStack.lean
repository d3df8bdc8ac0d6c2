import MyCpu.Core.BranchPredictors
import MyCpu.Lib.BoundedStack
import MyCpu.Lib.Clocked

/-! # The return address stack is a bounded stack

The registers below the stack pointer are a bounded stack of addresses.  Every operation acts on it
as on the list, but a push and a pop in one cycle: they replace the top, and an empty stack has no
top, so that the address is lost. -/

namespace MyCpu

namespace ReturnAddressStack

open BoundedStack (topDown)

variable {k : ℕ}

/-- What the stack sees in a cycle. -/
structure Inputs where
  push : Bool
  pushAddr : Word
  pop : Bool
  restore : Bool
  restoreAddr : Word
  restoreValid : Bool
deriving DecidableEq, Repr

/-- A cycle of the abstract stack, the latest address first. -/
def abstractStep (depth : ℕ) (stack : List Word) (io : Inputs) : List Word :=
  if io.restore then
    if io.restoreValid ∧ stack.length < depth then io.restoreAddr :: stack else stack
  else
    let popped := if io.pop then stack.tail else stack
    if io.push then BoundedStack.push depth popped io.pushAddr else popped

def stepOn (ras : ReturnAddressStack k) (io : Inputs) : ReturnAddressStack k :=
  ras.step io.push io.pushAddr io.pop io.restore io.restoreAddr io.restoreValid

/-! ## The addresses in the registers -/

section Contents

variable (ras : ReturnAddressStack k)

def cells (j : ℕ) : Word := ras.stack (BitVec.ofNat k j)

/-- The addresses on the stack, the latest first. -/
def contents : List Word := topDown ras.cells ras.sp.toNat

/-- The stack pointer stays inside the stack. -/
def Bounded : Prop := ras.sp.toNat ≤ 2 ^ k

theorem depth_toNat (k : ℕ) : (depth k).toNat = 2 ^ k := by
  rw [depth, BitVec.toNat_ofNat, Nat.mod_eq_of_lt (Nat.pow_lt_pow_succ Nat.one_lt_two)]

theorem room_iff : ras.sp.ult (depth k) = true ↔ ras.sp.toNat < 2 ^ k := by
  rw [BitVec.ult_eq_decide, decide_eq_true_eq, depth_toNat]

theorem valid_iff : ras.valid = true ↔ 0 < ras.sp.toNat := by
  rw [valid, BitVec.ult_eq_decide, decide_eq_true_eq, BitVec.toNat_ofNat, Nat.zero_mod]

theorem contents_length : ras.contents.length = ras.sp.toNat := BoundedStack.topDown_length _ _

theorem pred_toNat (nonempty : 0 < ras.sp.toNat) :
    (ras.sp - 1#(k + 1)).toNat = ras.sp.toNat - 1 := by
  have one : (1#(k + 1)).toNat = 1 := BitVec.toNat_one (Nat.succ_pos k)
  rw [BitVec.toNat_sub_of_le (by rw [BitVec.le_def, one]; exact nonempty), one]

theorem tosIndex_eq (nonempty : 0 < ras.sp.toNat) :
    ras.tosIndex = BitVec.ofNat k (ras.sp.toNat - 1) := by
  rw [tosIndex, ← pred_toNat ras nonempty, BitVec.truncate_eq_setWidth, BitVec.ofNat_toNat]

theorem contents_valid (nonempty : ras.valid = true) :
    ras.contents = ras.predictedAddr :: ras.contents.tail := by
  have above := (valid_iff ras).mp nonempty
  obtain ⟨height, top⟩ : ∃ height, ras.sp.toNat = height + 1 :=
    Nat.exists_eq_succ_of_ne_zero (Nat.ne_of_gt above)
  rw [contents, predictedAddr, if_pos nonempty, tosIndex_eq ras above, top]
  rfl

theorem contents_empty (empty : ras.valid = false) : ras.contents = [] := by
  have none : ras.sp.toNat = 0 := by
    have notAbove := mt (valid_iff ras).mpr (by rw [empty]; exact Bool.false_ne_true)
    omega
  rw [contents, none]
  rfl

end Contents

/-! ## One cycle -/

section Cycle

variable {ras : ReturnAddressStack k} (bounded : ras.Bounded) (address : Word)

/-- Different numbers below the depth are different cells. -/
theorem cell_ne {i j : ℕ} (low : i < 2 ^ k) (low' : j < 2 ^ k) (other : i ≠ j) :
    BitVec.ofNat k i ≠ BitVec.ofNat k j := by
  intro same
  have equal := congrArg BitVec.toNat same
  rw [BitVec.toNat_ofNat, BitVec.toNat_ofNat, Nat.mod_eq_of_lt low, Nat.mod_eq_of_lt low'] at equal
  exact other equal

theorem append_contents (room : ras.sp.toNat < 2 ^ k) :
    (ras.append address).Bounded ∧ (ras.append address).contents = address :: ras.contents := by
  have raised : (ras.append address).sp.toNat = ras.sp.toNat + 1 := by
    have small : 2 ^ (k + 1) = 2 ^ k + 2 ^ k := by rw [Nat.pow_succ, Nat.mul_two]
    rw [append, BitVec.toNat_add, BitVec.toNat_one (Nat.succ_pos k), Nat.mod_eq_of_lt (by omega)]
  refine ⟨raised.trans_le room, ?_⟩
  have place : ras.sp.truncate k = BitVec.ofNat k ras.sp.toNat := by
    rw [BitVec.truncate_eq_setWidth, BitVec.ofNat_toNat]
  have top : (ras.append address).cells ras.sp.toNat = address := by
    rw [cells, append, place]
    exact Function.update_self _ _ _
  rw [contents, raised, BoundedStack.topDown_append, top, ← contents]
  intro j below
  rw [cells, append, place]
  exact Function.update_of_ne (cell_ne (by omega) room (by omega)) _ _

theorem shift_contents (full : ras.sp.toNat = 2 ^ k) :
    (ras.shift address).Bounded ∧
      (ras.shift address).contents = (address :: ras.contents).take (2 ^ k) := by
  refine ⟨full.le, ?_⟩
  obtain ⟨height, top⟩ : ∃ height, 2 ^ k = height + 1 :=
    Nat.exists_eq_succ_of_ne_zero (Nat.ne_of_gt (Nat.two_pow_pos k))
  have last : BitVec.ofNat k height = BitVec.allOnes k := by
    apply BitVec.eq_of_toNat_eq
    rw [BitVec.toNat_ofNat, BitVec.toNat_allOnes, Nat.mod_eq_of_lt (by omega)]
    omega
  have pushed : (ras.shift address).cells height = address := by
    rw [cells, shift]
    exact if_pos last
  have moved : ∀ j < height, (ras.shift address).cells j = ras.cells (j + 1) := by
    intro j below
    have inside : BitVec.ofNat k j ≠ BitVec.allOnes k :=
      last ▸ cell_ne (by omega) (by omega) (by omega)
    rw [cells, shift]
    simp only [if_neg inside]
    rw [cells, BitVec.ofNat_add]
  have same : (ras.shift address).sp.toNat = height + 1 := full.trans top
  rw [contents, same, top, List.take_succ_cons, topDown, pushed, BoundedStack.topDown_congr moved,
    BoundedStack.topDown_shift, contents, full, top]

/-- The top is replaced. -/
theorem replace_contents (bounded : ras.Bounded) (nonempty : ras.valid = true) :
    ({ ras with stack := Function.update ras.stack ras.tosIndex address } :
    ReturnAddressStack k).contents =
      address :: ras.contents.tail := by
  have above := (valid_iff ras).mp nonempty
  obtain ⟨height, top⟩ : ∃ height, ras.sp.toNat = height + 1 :=
    Nat.exists_eq_succ_of_ne_zero (Nat.ne_of_gt above)
  have place : ras.tosIndex = BitVec.ofNat k height := by
    rw [tosIndex_eq ras above, top, Nat.add_sub_cancel]
  have room : height + 1 ≤ 2 ^ k := top ▸ bounded
  rw [contents, contents]
  simp only [top, place]
  rw [BoundedStack.topDown_pop, Nat.add_sub_cancel, @BoundedStack.topDown_append _ ras.cells]
  · exact congrArg (· :: topDown ras.cells height) (Function.update_self _ _ _)
  · intro j below
    exact Function.update_of_ne (cell_ne (by omega) (by omega) (by omega)) _ _

/-- A push moves the other addresses down when the stack is full. -/
theorem push_contents (bounded : ras.Bounded) :
    (if ras.sp.ult (depth k) then ras.append address else ras.shift address).Bounded ∧
      (if ras.sp.ult (depth k) then ras.append address else ras.shift address).contents =
        BoundedStack.push (2 ^ k) ras.contents address := by
  by_cases room : ras.sp.toNat < 2 ^ k
  · obtain ⟨inside, pushed⟩ := append_contents address room
    rw [if_pos ((room_iff ras).mpr room)]
    exact ⟨inside, pushed.trans (BoundedStack.push_room address
      ((contents_length ras).trans_lt room)).symm⟩
  · rw [if_neg (mt (room_iff ras).mp room)]
    exact shift_contents address (Nat.le_antisymm bounded (Nat.le_of_not_lt room))

theorem pop_contents (bounded : ras.Bounded) :
    (if ras.valid then { ras with sp := ras.sp - 1#(k + 1) }
      else ras : ReturnAddressStack k).Bounded ∧
      (if ras.valid then { ras with sp := ras.sp - 1#(k + 1) }
        else ras : ReturnAddressStack k).contents =
        ras.contents.tail := by
  cases nonempty : ras.valid with
  | true =>
    have lowered := pred_toNat ras ((valid_iff ras).mp nonempty)
    refine ⟨(lowered.trans_le (Nat.sub_le _ _)).trans bounded, ?_⟩
    rw [if_pos rfl, contents, lowered, contents, BoundedStack.topDown_pop]
    rfl
  | false =>
    rw [if_neg Bool.false_ne_true, contents_empty ras nonempty]
    exact ⟨bounded, rfl⟩

/-- A push and a pop come together, and there is no top to replace. -/
def LosesPush (ras : ReturnAddressStack k) (io : Inputs) : Prop :=
  io.restore = false ∧ io.push = true ∧ io.pop = true ∧ ras.valid = false

theorem stepOn_contents (bounded : ras.Bounded) {io : Inputs} (keeps : ¬ ras.LosesPush io) :
    (ras.stepOn io).Bounded ∧ (ras.stepOn io).contents = abstractStep (2 ^ k) ras.contents io := by
  have length := contents_length ras
  rw [stepOn, step, abstractStep]
  cases restore : io.restore with
  | true =>
    have guard : (io.restoreValid && ras.sp.ult (depth k)) = true ↔ io.restoreValid = true ∧
        ras.sp.toNat < 2 ^ k := by
      rw [Bool.and_eq_true, room_iff]
    rw [if_pos rfl, if_pos rfl, length]
    by_cases restores : io.restoreValid = true ∧ ras.sp.toNat < 2 ^ k
    · rw [if_pos (guard.mpr restores), if_pos restores]
      exact append_contents _ restores.2
    · rw [if_neg (mt guard.mp restores), if_neg restores]
      exact ⟨bounded, rfl⟩
  | false =>
    rw [if_neg Bool.false_ne_true, if_neg Bool.false_ne_true]
    cases push : io.push with
    | true =>
      cases pop : io.pop with
      | true =>
        -- on the empty stack the push would be lost, which is excluded
        have nonempty : ras.valid = true := by
          by_contra empty
          exact keeps ⟨restore, push, pop, Bool.eq_false_iff.mpr empty⟩
        have below : ras.contents.tail.length < 2 ^ k := by
          have above := (valid_iff ras).mp nonempty
          rw [Bounded] at bounded
          rw [List.length_tail, length]
          omega
        refine ⟨bounded, (replace_contents io.pushAddr bounded nonempty).trans ?_⟩
        exact (BoundedStack.push_room io.pushAddr below).symm
      | false =>
        simp only [Bool.and_false, Bool.false_eq_true, if_false, if_true]
        exact push_contents io.pushAddr bounded
    | false =>
      cases pop : io.pop with
      | true =>
        simp only [Bool.false_and, Bool.false_eq_true, if_false, if_true]
        exact pop_contents bounded
      | false => exact ⟨bounded, rfl⟩

theorem stepOn_losesPush {io : Inputs} (loses : ras.LosesPush io) :
    (ras.stepOn io).valid = false ∧ abstractStep (2 ^ k) ras.contents io = [io.pushAddr] := by
  obtain ⟨restore, push, pop, empty⟩ := loses
  constructor
  · rw [stepOn, step, restore, push, pop]
    exact empty
  · rw [abstractStep, restore, push, pop, contents_empty ras empty]
    exact BoundedStack.push_room io.pushAddr (Nat.two_pow_pos k)

end Cycle

/-! ## The run -/

section Run

variable (stack : BitVec k → Word) (inputs : ℕ → Inputs)

/-- The registers after `n` clock edges. -/
def stateAt (n : ℕ) : ReturnAddressStack k := Clocked.stateAt stepOn (reset stack) inputs n

/-- The abstract stack after `n` cycles. -/
def abstractAt (depth : ℕ) (inputs : ℕ → Inputs) (n : ℕ) : List Word :=
  Clocked.stateAt (abstractStep depth) [] inputs n

/-- The outputs show whether there is a top, and which. -/
def Shows (ras : ReturnAddressStack k) (stack : List Word) : Prop :=
  stack.head? = if ras.valid then some ras.predictedAddr else none

theorem shows_contents (ras : ReturnAddressStack k) : ras.Shows ras.contents := by
  rw [Shows]
  cases valid : ras.valid with
  | true => rw [contents_valid ras valid]; rfl
  | false => rw [contents_empty ras valid]; rfl

variable {stack inputs}

theorem contents_always (n : ℕ) (keeps : ∀ m < n, ¬ (stateAt stack inputs m).LosesPush (inputs m)) :
    (stateAt stack inputs n).Bounded ∧ (stateAt stack inputs n).contents =
      abstractAt (2 ^ k) inputs n := by
  induction n with
  | zero =>
    refine ⟨?_, contents_empty _ rfl⟩
    rw [Bounded, stateAt, Clocked.stateAt_zero, reset, BitVec.toNat_ofNat, Nat.zero_mod]
    exact Nat.zero_le _
  | succ n inductionHypothesis =>
    obtain ⟨bounded, same⟩ :=
      inductionHypothesis fun m earlier => keeps m (Nat.lt_succ_of_lt earlier)
    obtain ⟨bounded', same'⟩ := stepOn_contents bounded (keeps n (Nat.lt_succ_self n))
    exact ⟨bounded',
      same'.trans (congrArg (fun stack => abstractStep (2 ^ k) stack (inputs n)) same)⟩

/-- The outputs are those of the bounded stack as long as no push is lost, and not in the cycle
    after one is. -/
theorem shows_iff (k : ℕ) (stack : BitVec k → Word) (inputs : ℕ → Inputs) (n : ℕ) :
    (∀ m ≤ n, (stateAt stack inputs m).Shows (abstractAt (2 ^ k) inputs m)) ↔
      ∀ m < n, ¬ (stateAt stack inputs m).LosesPush (inputs m) := by
  constructor
  · intro shows m
    induction m using Nat.strong_induction_on with
    | _ m inductionHypothesis =>
      intro earlier loses
      obtain ⟨_, same⟩ :=
        contents_always m fun j before => inductionHypothesis j before (before.trans earlier)
      obtain ⟨empty, pushed⟩ := stepOn_losesPush loses
      -- the abstract stack has the address that the registers have lost
      have after := shows (m + 1) earlier
      rw [Shows, abstractAt, Clocked.stateAt_succ, ← abstractAt, ← same, pushed,
        stateAt, Clocked.stateAt_succ, ← stateAt, empty] at after
      cases after
  · intro keeps m earlier
    obtain ⟨_, same⟩ := contents_always m fun j before => keeps j (before.trans_le earlier)
    exact same ▸ shows_contents _

/-- A call and a return in one cycle on an empty stack of four entries. -/
def callOnEmpty (_ : ℕ) : Inputs := ⟨true, 0x1008#32, true, false, 0#32, false⟩

theorem callOnEmpty_lost :
    ¬ ∀ m, (stateAt (fun _ : BitVec 2 => 0#32) callOnEmpty m).Shows
      (abstractAt 4 callOnEmpty m) := by
  intro shows
  have after := shows 1
  revert after
  rw [Shows]
  decide

end Run

end ReturnAddressStack

end MyCpu
