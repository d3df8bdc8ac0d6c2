import MyCpu.Core.BranchPredictors
import MyCpu.Lib.Clocked
import MyCpu.Lib.DirectMapped

/-! # The branch target buffer replays its updates

The buffer is a direct-mapped table whose keys are the word addresses: an entry stores the part of
its key that the index leaves open.  So a lookup gives the target of the latest taken update of the
pc, and the direction of the counter that the whole history of updates gives the pc. -/

namespace MyCpu

namespace BranchTargetBuffer

variable {indexBits : ℕ}

/-! ## Keys -/

/-- The word address of a pc. -/
def wordOf (pc : Word) : BitVec 30 := pc.extractLsb' 2 30

/-- The slot of a word address. -/
def slotOf (indexBits : ℕ) (word : BitVec 30) : BitVec indexBits := getIndex indexBits (word ++ 0#2)

/-- The tag of a word address. -/
def tagOf (indexBits : ℕ) (word : BitVec 30) : Word := getTag indexBits (word ++ 0#2)

theorem wordOf_bit (pc : Word) {j : ℕ} (inside : 2 ≤ j) :
    (wordOf pc ++ 0#2).getLsbD j = pc.getLsbD j := by
  have place : 2 + (j - 2) = j := by omega
  rw [BitVec.getLsbD_append, if_neg (by omega), wordOf, BitVec.getLsbD_extractLsb', place]
  by_cases high : j < 32
  · rw [decide_eq_true (by omega), Bool.true_and]
  · rw [BitVec.getLsbD_of_ge pc j (by omega), Bool.and_false]

theorem slotOf_wordOf (pc : Word) : slotOf indexBits (wordOf pc) = getIndex indexBits pc := by
  apply BitVec.eq_of_getLsbD_eq
  intro j inside
  rw [slotOf, getIndex, getIndex, BitVec.getLsbD_extractLsb', BitVec.getLsbD_extractLsb',
    wordOf_bit pc (Nat.le_add_right 2 j)]

theorem tagOf_wordOf (pc : Word) : tagOf indexBits (wordOf pc) = getTag indexBits pc := by
  apply BitVec.eq_of_getLsbD_eq
  intro j inside
  rw [tagOf, getTag, getTag, BitVec.getLsbD_ushiftRight, BitVec.getLsbD_ushiftRight,
    wordOf_bit pc (by omega)]

/-- Index and tag make up the word address. -/
theorem word_of_slot_tag {word word' : BitVec 30}
    (slot : slotOf indexBits word = slotOf indexBits word')
    (tag : tagOf indexBits word = tagOf indexBits word') : word = word' := by
  apply BitVec.eq_of_getLsbD_eq
  intro j inside
  have bit : ∀ word : BitVec 30, word.getLsbD j = (word ++ 0#2).getLsbD (2 + j) := fun word => by
    rw [BitVec.getLsbD_append, if_neg (by omega), Nat.add_sub_cancel_left]
  rw [bit, bit]
  by_cases low : j < indexBits
  · have same := congrArg (fun index => index.getLsbD j) slot
    simpa only [slotOf, getIndex, BitVec.getLsbD_extractLsb', low, decide_true,
      Bool.true_and] using same
  · have place : indexBits + 2 + (j - indexBits) = 2 + j := by omega
    have same := congrArg (fun tag => tag.getLsbD (j - indexBits)) tag
    simpa only [tagOf, getTag, BitVec.getLsbD_ushiftRight, place] using same

/-! ## The buffer as a table -/

/-- The registers of a slot hold an entry. -/
structure Holds (btb : BranchTargetBuffer indexBits) (i : BitVec indexBits)
    (slot : Option (DirectMapped.Entry (BitVec 30) Word)) : Prop where
  valid : btb.valid i = slot.isSome
  tag : ∀ entry, slot = some entry → btb.tags i = tagOf indexBits entry.key
  target : ∀ entry, slot = some entry → btb.targets i = entry.value
  counter : ∀ entry, slot = some entry → (btb.counters i).toNat = entry.counter

/-- The registers of the buffer hold the entries of a table. -/
def Represents (btb : BranchTargetBuffer indexBits)
    (table : BitVec indexBits → Option (DirectMapped.Entry (BitVec 30) Word)) : Prop :=
      ∀ i, btb.Holds i (table i)

section Lookups

variable {btb : BranchTargetBuffer indexBits}
    {table : BitVec indexBits → Option (DirectMapped.Entry (BitVec 30) Word)}
  {history : List (DirectMapped.Update (BitVec 30) Word)} (pc : Word)

theorem entryHit_none (represents : btb.Represents table)
    (free : table (getIndex indexBits pc) = none) :
    btb.entryHit pc = false := by
  rw [entryHit, (represents _).valid, free]
  rfl

theorem entryHit_some (represents : btb.Represents table)
    (replays : DirectMapped.Replays (slotOf indexBits) table history)
    {entry : DirectMapped.Entry (BitVec 30) Word}
    (holds : table (getIndex indexBits pc) = some entry) :
    btb.entryHit pc = decide (entry.key = wordOf pc) := by
  have placed : slotOf indexBits entry.key = slotOf indexBits (wordOf pc) := by
    rw [slotOf_wordOf]
    exact (replays.placed _ entry holds).1
  rw [entryHit, (represents _).valid, holds, (represents _).tag entry holds, ← tagOf_wordOf]
  exact (Bool.true_and _).trans
    (decide_eq_decide.mpr ⟨word_of_slot_tag placed, fun same => same ▸ rfl⟩)

/-- A lookup predicts by the counter of the history, and gives the target of the latest taken
    update. -/
theorem predictedTaken_iff (represents : btb.Represents table)
    (replays : DirectMapped.Replays (slotOf indexBits) table history) :
    btb.predictedTaken pc = true ↔
      ∃ count ≥ 2, DirectMapped.replay (slotOf indexBits) history (wordOf pc) = some count := by
  rw [← replays.counted, slotOf_wordOf, predictedTaken]
  cases holds : table (getIndex indexBits pc) with
  | none =>
    rw [entryHit_none pc represents holds]
    simp [DirectMapped.found]
  | some entry =>
    rw [entryHit_some pc represents replays holds]
    have counter := (represents _).counter entry holds
    by_cases own : entry.key = wordOf pc
    · simp [DirectMapped.found, own, BitVec.ule_eq_decide, counter]
    · simp [DirectMapped.found, own]

theorem predictedPc_taken (represents : btb.Represents table)
    (replays : DirectMapped.Replays (slotOf indexBits) table history)
    (taken : btb.predictedTaken pc = true) :
    DirectMapped.lastTaken history (wordOf pc) = some (btb.predictedPc pc) := by
  rw [predictedPc, if_pos taken]
  rw [predictedTaken, Bool.and_eq_true] at taken
  cases holds : table (getIndex indexBits pc) with
  | none =>
    rw [entryHit_none pc represents holds] at taken
    exact absurd taken.1 Bool.false_ne_true
  | some entry =>
    rw [entryHit_some pc represents replays holds, decide_eq_true_eq] at taken
    rw [(represents _).target entry holds, ← taken.1]
    exact replays.valued _ entry holds

end Lookups

/-! ## Updates -/

section Updates

variable {btb : BranchTargetBuffer indexBits}
    {table : BitVec indexBits → Option (DirectMapped.Entry (BitVec 30) Word)}
  {history : List (DirectMapped.Update (BitVec 30) Word)} (pc target : Word) (taken : Bool)

/-- Slots other than that of the updated pc keep their entry. -/
theorem update_other {i : BitVec indexBits} (other : i ≠ getIndex indexBits pc) :
    (btb.update pc target taken).valid i = btb.valid i ∧
      (btb.update pc target taken).tags i = btb.tags i ∧
      (btb.update pc target taken).targets i = btb.targets i ∧
      (btb.update pc target taken).counters i = btb.counters i := by
  rw [update]
  split_ifs <;> simp [Function.update_of_ne other]

/-- The counter of a taken update. -/
theorem risen_counter : ∀ counter : BitVec 2,
    (if counter = 3#2 then 3#2 else counter + 1#2).toNat = min (counter.toNat + 1) 3 := by
  decide

/-- A taken update stores its target, and raises the counter of a hit. -/
theorem holds_taken :
    (btb.update pc target true).Holds (getIndex indexBits pc)
      (some ⟨wordOf pc, target,
        if btb.entryHit pc then min ((btb.counters (getIndex indexBits pc)).toNat + 1) 3
          else 2⟩) where
  valid := by simp [update]
  tag entry same := by
    cases same
    simp [update, tagOf_wordOf]
  target entry same := by
    cases same
    simp [update]
  counter entry same := by
    cases same
    rw [update, if_pos rfl]
    simp only [Function.update_self]
    by_cases hit : btb.entryHit pc = true
    · rw [if_pos hit, if_pos hit, risen_counter]
    · rw [if_neg hit, if_neg hit]
      rfl

/-- An update that is not taken lowers the counter of a hit, and drops an entry that reaches 0. -/
theorem holds_notTaken {entry : DirectMapped.Entry (BitVec 30) Word}
    (holds : btb.Holds (getIndex indexBits pc) (some entry)) (hit : btb.entryHit pc = true)
    (low : 1 ≤ entry.counter) :
    (btb.update pc target false).Holds (getIndex indexBits pc)
      (if entry.counter - 1 = 0 then none
        else some { entry with counter := entry.counter - 1 }) := by
  have counter := holds.counter entry rfl
  rw [update, if_neg Bool.false_ne_true, if_pos hit]
  by_cases last : btb.counters (getIndex indexBits pc) = 1#2
  · rw [last] at counter
    rw [if_pos last, if_pos (by rw [← counter]; rfl)]
    exact ⟨by simp, fun _ none => (nomatch none), fun _ none => (nomatch none), fun _ none => (nomatch none)⟩
  · have more : 1#2 < btb.counters (getIndex indexBits pc) := by bv_omega
    rw [if_neg last, if_pos (by simpa [BitVec.ult_eq_decide, BitVec.lt_def] using more),
      if_neg (by bv_omega)]
    refine ⟨holds.valid, ?_, ?_, ?_⟩
    · rintro _ ⟨⟩
      exact holds.tag entry rfl
    · rintro _ ⟨⟩
      exact holds.target entry rfl
    · rintro _ ⟨⟩
      simp only [Function.update_self, ← counter]
      bv_omega

theorem holds_nextEntry (represents : btb.Represents table)
    (replays : DirectMapped.Replays (slotOf indexBits) table history) :
    (btb.update pc target taken).Holds (getIndex indexBits pc)
      (DirectMapped.nextEntry (table (getIndex indexBits pc)) ⟨wordOf pc, target, taken⟩) := by
  have here := represents (getIndex indexBits pc)
  have untouched : btb.entryHit pc = false → btb.update pc target false = btb := fun miss => by
    rw [update, if_neg Bool.false_ne_true, if_neg (by rw [miss]; exact Bool.false_ne_true)]
  have fresh := @holds_taken indexBits btb pc target
  cases holds : table (getIndex indexBits pc) with
  | none =>
    have miss := entryHit_none pc represents holds
    cases taken with
    | true => simpa [DirectMapped.nextEntry, miss] using fresh
    | false => simpa [DirectMapped.nextEntry, untouched miss, holds] using here
  | some entry =>
    have hit := entryHit_some pc represents replays holds
    rw [holds] at here
    by_cases own : entry.key = wordOf pc
    · rw [decide_eq_true own] at hit
      cases taken with
      | true =>
        simpa [DirectMapped.nextEntry, own, hit, here.counter entry rfl] using fresh
      | false =>
        simpa [DirectMapped.nextEntry, own] using
          holds_notTaken pc target here hit (replays.placed _ entry holds).2.1
    · -- the slot belongs to another branch, which only a taken one replaces
      rw [decide_eq_false own] at hit
      cases taken with
      | true => simpa [DirectMapped.nextEntry, own, hit] using fresh
      | false => simpa [DirectMapped.nextEntry, own, untouched hit] using here

theorem represents_update (represents : btb.Represents table)
    (replays : DirectMapped.Replays (slotOf indexBits) table history) :
    (btb.update pc target taken).Represents
      (DirectMapped.step (slotOf indexBits) table ⟨wordOf pc, target, taken⟩) := by
  intro i
  rw [DirectMapped.step]
  simp only [slotOf_wordOf]
  by_cases here : i = getIndex indexBits pc
  · rw [here, Function.update_self]
    exact holds_nextEntry pc target taken represents replays
  · obtain ⟨valid, tags, targets, counters⟩ := @update_other _ btb pc target taken i here
    rw [Function.update_of_ne here]
    exact ⟨valid.trans (represents i).valid, tags ▸ (represents i).tag,
      targets ▸ (represents i).target, counters ▸ (represents i).counter⟩

end Updates

/-! ## The run -/

/-- What the buffer sees in a cycle. -/
structure Inputs where
  updateValid : Bool
  updatePc : Word
  updateTarget : Word
  updateTaken : Bool
deriving DecidableEq, Repr

variable (tags targets : BitVec indexBits → Word) (inputs : ℕ → Inputs)

/-- The buffer after `n` clock edges. -/
def stateAt (n : ℕ) : BranchTargetBuffer indexBits :=
  Clocked.stateAt (fun btb io => btb.step io.updateValid io.updatePc io.updateTarget io.updateTaken)
    (reset tags targets) inputs n

/-- The updates of the first `n` cycles, by word addresses. -/
def history (inputs : ℕ → Inputs) (n : ℕ) : List (DirectMapped.Update (BitVec 30) Word) :=
  (List.range n).flatMap fun k =>
    if (inputs k).updateValid then
      [⟨wordOf (inputs k).updatePc, (inputs k).updateTarget, (inputs k).updateTaken⟩]
    else []

/-- A lookup after a history of updates, and the counters of the buffer. -/
structure Sound (btb : BranchTargetBuffer indexBits)
    (history : List (DirectMapped.Update (BitVec 30) Word)) :
    Prop where
  direction : ∀ pc, btb.predictedTaken pc = true ↔
    ∃ count ≥ 2, DirectMapped.replay (slotOf indexBits) history (wordOf pc) = some count
  trained : ∀ pc, btb.predictedTaken pc = true →
    ∃ update ∈ history, update.key = wordOf pc ∧ update.taken = true
  target : ∀ pc, btb.predictedTaken pc = true → DirectMapped.lastTaken history (wordOf pc) =
    some (btb.predictedPc pc)
  counters : ∀ i, btb.valid i = true → btb.counters i = 1#2 ∨
    btb.counters i = 2#2 ∨ btb.counters i = 3#2

theorem table_always (n : ℕ) :
    ∃ table, (stateAt tags targets inputs n).Represents table ∧
      DirectMapped.Replays (slotOf indexBits) table (history inputs n) := by
  induction n with
  | zero =>
    refine ⟨fun _ => none, fun i => ?_, DirectMapped.replays_empty⟩
    exact ⟨rfl, fun _ none => (nomatch none), fun _ none => (nomatch none),
      fun _ none => (nomatch none)⟩
  | succ n inductionHypothesis =>
    obtain ⟨table, represents, replays⟩ := inductionHypothesis
    rw [history, List.range_succ, List.flatMap_append, List.flatMap_singleton, ← history,
      stateAt, Clocked.stateAt_succ, ← stateAt]
    cases valid : (inputs n).updateValid with
    | false => exact ⟨table, represents, by simpa using replays⟩
    | true => exact ⟨_, represents_update _ _ _ represents replays,
        DirectMapped.replays_step replays _⟩

/-- Whatever the updates have been, a lookup predicts as their replay says. -/
theorem predicts_replay (indexBits : ℕ) (tags targets : BitVec indexBits → Word)
    (inputs : ℕ → Inputs) (n : ℕ) :
    (stateAt tags targets inputs n).Sound (history inputs n) := by
  obtain ⟨table, represents, replays⟩ := table_always tags targets inputs n
  refine ⟨fun pc => predictedTaken_iff pc represents replays, fun pc taken => ?_,
    fun pc taken => predictedPc_taken pc represents replays taken, fun i valid => ?_⟩
  · obtain ⟨update, member, key, isTaken, _⟩ :=
      DirectMapped.lastTaken_mem (predictedPc_taken pc represents replays taken)
    exact ⟨update, member, key, isTaken⟩
  · rw [(represents i).valid, Option.isSome_iff_exists] at valid
    obtain ⟨entry, holds⟩ := valid
    have counter := (represents i).counter entry holds
    obtain ⟨_, low, high⟩ := replays.placed i entry holds
    bv_omega

end BranchTargetBuffer

end MyCpu
