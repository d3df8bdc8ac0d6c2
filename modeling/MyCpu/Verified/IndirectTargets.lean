import MyCpu.Core.BranchPredictors
import MyCpu.Lib.Clocked
import MyCpu.Lib.Recency

/-! # The indirect branch target buffer recalls the latest target

Each pair of a pc and a hash has at most one entry, and a lookup of a pc chooses among its entries
by their ages.  The ages saturate: entries of one pc that have all grown too old have the same age,
and the choice falls on the lowest number.  As long as no lookup meets entries of the same least
age, it recalls the entry used last. -/

namespace MyCpu

namespace IndirectBTB

open Recency (Ordered aged)

variable {k : ℕ}

/-! ## Selections -/

theorem mem_indices (i : BitVec k) : i ∈ indices k := by
  rw [indices, List.mem_map]
  exact ⟨i.toFin, List.mem_finRange _, rfl⟩

theorem any_indices {bits : BitVec k → Bool} :
    (indices k).any bits = true ↔ ∃ i, bits i = true := by
  rw [List.any_eq_true]
  exact ⟨fun ⟨i, _, holds⟩ => ⟨i, holds⟩, fun ⟨i, holds⟩ => ⟨i, mem_indices i, holds⟩⟩

theorem priorityEncoder_spec {bits : BitVec k → Bool} {i : BitVec k} (holds : bits i = true) :
    bits (priorityEncoder bits) = true := by
  rw [priorityEncoder]
  cases first : (indices k).find? bits with
  | none => exact absurd holds (List.find?_eq_none.mp first i (mem_indices i))
  | some found => exact List.find?_some first

/-- The chain of comparisons finds the least age, or keeps the age it starts with. -/
theorem foldl_least (age : BitVec k → BitVec k) (start : BitVec k) (entries : List (BitVec k)) :
    let least := entries.foldl (fun least i => if least.ult (age i) then least else age i) start
    least.toNat ≤ start.toNat ∧ (∀ i ∈ entries, least.toNat ≤ (age i).toNat) ∧
      (least = start ∨ ∃ i ∈ entries, least = age i) := by
  induction entries generalizing start with
  | nil => exact ⟨le_rfl, fun _ member => (nomatch member), .inl rfl⟩
  | cons head rest inductionHypothesis =>
    obtain ⟨below, least, attained⟩ :=
      inductionHypothesis (if start.ult (age head) then start else age head)
    have first : (if start.ult (age head) then start else age head).toNat ≤ start.toNat ∧
        (if start.ult (age head) then start else age head).toNat ≤ (age head).toNat := by
      rw [BitVec.ult_eq_decide]
      split_ifs with smaller
      · exact ⟨le_rfl, Nat.le_of_lt (of_decide_eq_true smaller)⟩
      · exact ⟨Nat.le_of_not_lt fun less => smaller (decide_eq_true less), le_rfl⟩
    refine ⟨below.trans first.1, fun i member => ?_, ?_⟩
    · cases List.mem_cons.mp member with
      | inl here => exact here ▸ below.trans first.2
      | inr later => exact least i later
    · cases attained with
      | inl kept =>
        by_cases smaller : start.ult (age head) = true
        · exact .inl (kept.trans (if_pos smaller))
        · exact .inr ⟨head, List.mem_cons_self, kept.trans (if_neg smaller)⟩
      | inr found =>
        obtain ⟨i, member, same⟩ := found
        exact .inr ⟨i, List.mem_cons_of_mem _ member, same⟩

/-! ## Lookups -/

section Lookups

variable {ibtb : IndirectBTB k} {pc : Word}

/-- The pc tag that an entry holds. -/
def group (ibtb : IndirectBTB k) (i : BitVec k) : Option (BitVec 30) :=
  if ibtb.valid i then some (ibtb.pcTags i) else none

theorem group_some {i : BitVec k} {tag : BitVec 30} :
    ibtb.group i = some tag ↔ ibtb.valid i = true ∧ ibtb.pcTags i = tag := by
  rw [group]
  cases valid : ibtb.valid i <;> simp

theorem pcHit_group {i : BitVec k} :
    ibtb.pcHit pc i = true ↔ ibtb.group i = some (getPcTag pc) := by
  rw [pcHit, Bool.and_eq_true, decide_eq_true_eq, group_some]

/-- The entry whose target a lookup gives. -/
def selected (ibtb : IndirectBTB k) (pc : Word) : BitVec k := priorityEncoder (ibtb.mru pc)

theorem hit_iff : ibtb.hit pc = true ↔ ∃ i, ibtb.pcHit pc i = true := any_indices

theorem maxAge_toNat (k : ℕ) : (maxAge k).toNat = 2 ^ k - 1 := BitVec.toNat_allOnes

theorem age_le (age : BitVec k) : age.toNat ≤ 2 ^ k - 1 := Nat.le_sub_one_of_lt age.isLt

theorem minAge_le {i : BitVec k} (matching : ibtb.pcHit pc i = true) :
    (ibtb.minAge pc).toNat ≤ (ibtb.ages i).toNat := by
  have least := (foldl_least (ibtb.hitAge pc) (maxAge k) (indices k)).2.1 i (mem_indices i)
  rwa [hitAge, if_pos matching] at least

theorem mru_selected (hit : ibtb.hit pc = true) : ibtb.mru pc (ibtb.selected pc) = true := by
  obtain ⟨i, matching⟩ := hit_iff.mp hit
  obtain ⟨j, youngest⟩ : ∃ j, ibtb.mru pc j = true := by
    simp only [mru, Bool.and_eq_true, decide_eq_true_eq]
    cases (foldl_least (ibtb.hitAge pc) (maxAge k) (indices k)).2.2 with
    | inl saturated =>
      -- all matching entries have the cap
      have low := minAge_le matching
      have least : ibtb.minAge pc = maxAge k := saturated
      rw [least, maxAge_toNat] at low
      refine ⟨i, matching, BitVec.eq_of_toNat_eq ?_⟩
      rw [least, maxAge_toNat]
      exact Nat.le_antisymm (age_le _) low
    | inr attained =>
      obtain ⟨j, _, least⟩ := attained
      by_cases own : ibtb.pcHit pc j = true
      · rw [hitAge, if_pos own] at least
        exact ⟨j, own, least.symm⟩
      · rw [hitAge, if_neg own] at least
        have low := minAge_le matching
        have capped : ibtb.minAge pc = maxAge k := least
        rw [capped, maxAge_toNat] at low
        refine ⟨i, matching, BitVec.eq_of_toNat_eq ?_⟩
        rw [capped, maxAge_toNat]
        exact Nat.le_antisymm (age_le _) low
  exact priorityEncoder_spec youngest

/-- Only one of the entries of the pc has the least age. -/
def UniqueLeast (ibtb : IndirectBTB k) (pc : Word) : Prop :=
  ∀ i j, ibtb.mru pc i = true → ibtb.mru pc j = true → i = j

theorem mru_iff (hit : ibtb.hit pc = true) (unique : ibtb.UniqueLeast pc) {i : BitVec k} :
    ibtb.mru pc i = true ↔ i = ibtb.selected pc :=
  ⟨fun youngest => unique _ _ youngest (mru_selected hit), fun same => same ▸ mru_selected hit⟩

theorem selected_least (hit : ibtb.hit pc = true) (unique : ibtb.UniqueLeast pc) {j : BitVec k}
    (matching : ibtb.pcHit pc j = true) (other : j ≠ ibtb.selected pc) :
    (ibtb.ages (ibtb.selected pc)).toNat < (ibtb.ages j).toNat := by
  have youngest := mru_selected hit
  rw [mru, Bool.and_eq_true, decide_eq_true_eq] at youngest
  rw [youngest.2]
  refine Nat.lt_of_le_of_ne (minAge_le matching) fun same => other ((mru_iff hit unique).mp ?_)
  rw [mru, matching, BitVec.eq_of_toNat_eq same.symm]
  simp

/-- Several entries match the pc, and all that match are too old to be told apart. -/
def Saturated (ibtb : IndirectBTB k) (pc : Word) : Prop :=
  (∃ i j, i ≠ j ∧ ibtb.pcHit pc i = true ∧ ibtb.pcHit pc j = true) ∧
    ∀ i, ibtb.pcHit pc i = true → ibtb.ages i = maxAge k

/-- The ages tell the order of the uses. -/
def InOrder (ibtb : IndirectBTB k) (uses : List (BitVec k)) : Prop :=
  Ordered (2 ^ k - 1) uses ibtb.group fun i => (ibtb.ages i).toNat

theorem uniqueLeast {uses : List (BitVec k)} (inOrder : ibtb.InOrder uses)
    (distinguished : ¬ ibtb.Saturated pc) :
    ibtb.UniqueLeast pc := by
  have oldest : ∀ i j, ibtb.mru pc i = true → ibtb.mru pc j = true → uses.idxOf i < uses.idxOf j →
      ibtb.Saturated pc := by
    intro i j first second before
    rw [mru, Bool.and_eq_true, decide_eq_true_eq] at first second
    have younger := inOrder.younger i j _ (pcHit_group.mp first.1) (pcHit_group.mp second.1) before
    have cap : (ibtb.minAge pc).toNat = 2 ^ k - 1 := by
      rw [Recency.Younger, first.2, second.2] at younger
      omega
    refine ⟨⟨i, j, fun same => ?_, first.1, second.1⟩, fun l matching => BitVec.eq_of_toNat_eq ?_⟩
    · exact Nat.lt_irrefl _ (same ▸ before)
    · rw [maxAge_toNat]
      exact Nat.le_antisymm (age_le _) (cap ▸ minAge_le matching)
  intro i j first second
  obtain before | same | after := Nat.lt_trichotomy (uses.idxOf i) (uses.idxOf j)
  · exact absurd (oldest i j first second before) distinguished
  · rw [mru, Bool.and_eq_true] at first
    exact (List.idxOf_inj (inOrder.used i _ (pcHit_group.mp first.1))).mp same
  · exact absurd (oldest j i second first after) distinguished

theorem selected_hit (hit : ibtb.hit pc = true) : ibtb.pcHit pc (ibtb.selected pc) = true := by
  have youngest := mru_selected hit
  rw [mru, Bool.and_eq_true] at youngest
  exact youngest.1

/-- The selected entry comes before the other entries of the pc in the list of uses. -/
theorem selected_latest {uses : List (BitVec k)} (inOrder : ibtb.InOrder uses)
    (hit : ibtb.hit pc = true)
    (distinguished : ¬ ibtb.Saturated pc) (j : BitVec k) (matching : ibtb.pcHit pc j = true)
    (other : j ≠ ibtb.selected pc) : uses.idxOf (ibtb.selected pc) < uses.idxOf j :=
  inOrder.latest (pcHit_group.mp (selected_hit hit))
    (fun _ member different =>
      selected_least hit (uniqueLeast inOrder distinguished) (pcHit_group.mpr member) different)
    j (pcHit_group.mp matching) other

/-- A lookup that hits gives the target of the entry of the pc that was used last. -/
def Recalls (ibtb : IndirectBTB k) (pc : Word) (uses : List (BitVec k)) : Prop :=
  ibtb.hit pc = true → ∃ i, uses.find? (ibtb.pcHit pc) = some i ∧
    ibtb.predictedTarget pc = ibtb.targets i

theorem recalls {uses : List (BitVec k)} (inOrder : ibtb.InOrder uses)
    (distinguished : ¬ ibtb.Saturated pc) :
    ibtb.Recalls pc uses := by
  intro hit
  have member := inOrder.used _ _ (pcHit_group.mp (selected_hit hit))
  refine ⟨ibtb.selected pc, ?_, if_pos hit⟩
  exact Recency.find?_first member (selected_hit hit) (selected_latest inOrder hit distinguished)

end Lookups

/-! ## Updates -/

section Updates

variable {ibtb : IndirectBTB k}

/-- No two valid entries have the same pc tag and hash. -/
def Distinct (ibtb : IndirectBTB k) : Prop :=
  ∀ i j, ibtb.valid i = true → ibtb.valid j = true → ibtb.pcTags i = ibtb.pcTags j →
    ibtb.rs1Hashs i = ibtb.rs1Hashs j → i = j

theorem existing_iff {pc : Word} {rs1Hash : BitVec 8} {i : BitVec k} :
    ibtb.existing pc rs1Hash i = true ↔
      ibtb.valid i = true ∧ ibtb.pcTags i = getPcTag pc ∧ ibtb.rs1Hashs i = rs1Hash := by
  rw [existing, Bool.and_eq_true, Bool.and_eq_true, decide_eq_true_eq, decide_eq_true_eq, and_assoc]

theorem existing_targetIndex (distinct : ibtb.Distinct) {pc : Word}
    {rs1Hash : BitVec 8} {i : BitVec k}
    (holds : ibtb.existing pc rs1Hash i = true) : i = ibtb.targetIndex pc rs1Hash := by
  rw [targetIndex, if_pos (any_indices.mpr ⟨i, holds⟩)]
  obtain ⟨valid, tag, hash⟩ := existing_iff.mp holds
  obtain ⟨valid', tag', hash'⟩ := existing_iff.mp (priorityEncoder_spec holds)
  exact distinct i _ valid valid' (tag.trans tag'.symm) (hash.trans hash'.symm)

theorem update_distinct (distinct : ibtb.Distinct) (pc : Word)
    (rs1Hash : BitVec 8) (target : Word) :
    (ibtb.update pc rs1Hash target).Distinct := by
  -- an entry with the pair that is written would have been the one to write
  have only : ∀ i, i ≠ ibtb.targetIndex pc rs1Hash → ibtb.valid i = true →
      ibtb.pcTags i = getPcTag pc →
      ibtb.rs1Hashs i = rs1Hash → False := fun i other valid tag hash =>
    other (existing_targetIndex distinct (existing_iff.mpr ⟨valid, tag, hash⟩))
  intro i j valid valid' tag hash
  simp only [update, Function.update_apply] at valid valid' tag hash
  by_cases first : i = ibtb.targetIndex pc rs1Hash
  · by_cases second : j = ibtb.targetIndex pc rs1Hash
    · exact first.trans second.symm
    · rw [if_neg second] at valid' tag hash
      rw [if_pos first] at tag hash
      exact (only j second valid' tag.symm hash.symm).elim
  · rw [if_neg first] at valid tag hash
    by_cases second : j = ibtb.targetIndex pc rs1Hash
    · rw [if_pos second] at tag hash
      exact (only i first valid tag hash).elim
    · rw [if_neg second] at valid' tag hash
      exact distinct i j valid valid' tag hash

theorem update_existing (ibtb : IndirectBTB k) (pc : Word) (rs1Hash : BitVec 8) (target : Word) :
    (ibtb.update pc rs1Hash target).existing pc rs1Hash (ibtb.targetIndex pc rs1Hash) = true ∧
      (ibtb.update pc rs1Hash target).targets (ibtb.targetIndex pc rs1Hash) = target := by
  rw [existing_iff]
  simp only [update, Function.update_self, and_self]

end Updates

/-! ## Ages -/

section Ages

variable {ibtb : IndirectBTB k} {uses : List (BitVec k)}

theorem touch_used {used : BitVec k → Bool} {i : BitVec k} (isUsed : used i = true) :
    (ibtb.touch used i).toNat = 0 := by
  rw [touch, if_pos isUsed]
  exact BitVec.toNat_zero

theorem touch_other {used : BitVec k → Bool} {i : BitVec k} (unused : used i = false)
    (valid : ibtb.valid i = true) :
    (ibtb.touch used i).toNat = aged (2 ^ k - 1) (ibtb.ages i).toNat := by
  have small := (ibtb.ages i).isLt
  rw [touch, if_neg (Bool.eq_false_iff.mp unused), valid, Bool.true_and, aged]
  simp only [BitVec.ult_eq_decide, decide_eq_true_eq, maxAge_toNat]
  split_ifs with below
  · rw [BitVec.toNat_add_of_lt]
    · rw [BitVec.toNat_ofNat, Nat.mod_eq_of_lt (by omega)]
    · rw [BitVec.toNat_ofNat, Nat.mod_eq_of_lt (by omega)]
      omega
  · rfl

theorem update_inOrder (wide : 2 ≤ k) (inOrder : ibtb.InOrder uses) (pc : Word) (rs1Hash : BitVec 8)
    (target : Word) : (ibtb.update pc rs1Hash target).InOrder
      (ibtb.targetIndex pc rs1Hash :: uses) := by
  have positive : 0 < 2 ^ k - 1 := Nat.sub_pos_of_lt (Nat.one_lt_two_pow (by omega))
  refine Ordered.use inOrder positive _ (fun i other => ?_) ?_
    (fun i g other member => ?_) fun i => age_le _
  · simp only [group, update, Function.update_of_ne other]
  · exact touch_used (decide_eq_true rfl)
  · exact touch_other (decide_eq_false other) (group_some.mp member).1

theorem lookup_inOrder (wide : 2 ≤ k) (inOrder : ibtb.InOrder uses) {pc : Word}
    (hit : ibtb.hit pc = true)
    (distinguished : ¬ ibtb.Saturated pc) :
    InOrder { ibtb with ages := ibtb.touch (ibtb.mru pc) } (ibtb.selected pc :: uses) := by
  have positive : 0 < 2 ^ k - 1 := Nat.sub_pos_of_lt (Nat.one_lt_two_pow (by omega))
  have unique := uniqueLeast inOrder distinguished
  refine Ordered.use inOrder positive _ (fun i other => rfl) ?_
    (fun i g other member => ?_) fun i => age_le _
  · exact touch_used (mru_selected hit)
  · exact touch_other (Bool.eq_false_iff.mpr (mt (mru_iff hit unique).mp other))
      (group_some.mp member).1

/-- A lookup in the cycle of an update does not change the ages, and need not. -/
theorem selected_inOrder (inOrder : ibtb.InOrder uses) {pc : Word} (hit : ibtb.hit pc = true)
    (distinguished : ¬ ibtb.Saturated pc) : ibtb.InOrder (ibtb.selected pc :: uses) := by
  refine Ordered.again inOrder fun j g own member other => ?_
  have tag := own.symm.trans (pcHit_group.mp (selected_hit hit))
  exact selected_latest inOrder hit distinguished j (pcHit_group.mpr (member.trans tag)) other

end Ages

/-! ## The run -/

structure Inputs where
  pc : Word
  updateValid : Bool
  updatePc : Word
  updateRs1Hash : BitVec 8
  updateTarget : Word
deriving DecidableEq, Repr

section Cycle

variable (ibtb : IndirectBTB k) (io : Inputs)

def stepOn : IndirectBTB k :=
  ibtb.step io.pc io.updateValid io.updatePc io.updateRs1Hash io.updateTarget

/-- The entries used in a cycle, the trained one in front of the one that the lookup has
    selected. -/
def usedIn : List (BitVec k) :=
  (if io.updateValid then [ibtb.targetIndex io.updatePc io.updateRs1Hash] else []) ++
    if ibtb.hit io.pc then [ibtb.selected io.pc] else []

/-- The pc and hash of the update have an entry, with its target. -/
def Trained : Prop :=
  ∃ i, ibtb.existing io.updatePc io.updateRs1Hash i = true ∧ ibtb.targets i = io.updateTarget

variable {ibtb io}

theorem stepOn_distinct (distinct : ibtb.Distinct) : (ibtb.stepOn io).Distinct := by
  rw [stepOn, step]
  split_ifs
  · exact update_distinct distinct _ _ _
  · exact distinct
  · exact distinct

theorem stepOn_trained (valid : io.updateValid = true) : (ibtb.stepOn io).Trained io := by
  rw [stepOn, step, if_pos valid]
  exact ⟨_, update_existing ibtb _ _ _⟩

theorem stepOn_inOrder (wide : 2 ≤ k) {uses : List (BitVec k)} (inOrder : ibtb.InOrder uses)
    (distinguished : ¬ ibtb.Saturated io.pc) :
    (ibtb.stepOn io).InOrder (ibtb.usedIn io ++ uses) := by
  rw [stepOn, step, usedIn]
  cases valid : io.updateValid with
  | true =>
    cases hit : ibtb.hit io.pc with
    | true => exact update_inOrder wide (selected_inOrder inOrder hit distinguished) _ _ _
    | false => exact update_inOrder wide inOrder _ _ _
  | false =>
    cases hit : ibtb.hit io.pc with
    | true => exact lookup_inOrder wide inOrder hit distinguished
    | false => exact inOrder

end Cycle

section Run

variable (pcTags : BitVec k → BitVec 30) (rs1Hashs : BitVec k → BitVec 8)
    (targets : BitVec k → Word)
  (inputs : ℕ → Inputs)

/-- The table after `n` clock edges. -/
def stateAt (n : ℕ) : IndirectBTB k :=
  Clocked.stateAt stepOn (reset pcTags rs1Hashs targets) inputs n

/-- The entries used in the first `n` cycles, the latest first. -/
def usesAt (n : ℕ) : List (BitVec k) :=
  Clocked.observedAt stepOn (fun uses ibtb io => ibtb.usedIn io ++ uses)
    (reset pcTags rs1Hashs targets) [] inputs n

theorem distinct_always (n : ℕ) : (stateAt pcTags rs1Hashs targets inputs n).Distinct :=
  Clocked.invariant_always (fun _ _ valid => (nomatch valid))
    (fun _ _ distinct => stepOn_distinct distinct) n

theorem inOrder_always (wide : 2 ≤ k) (n : ℕ)
    (distinguished : ∀ m < n,
    ¬ (stateAt pcTags rs1Hashs targets inputs m).Saturated (inputs m).pc) :
    (stateAt pcTags rs1Hashs targets inputs n).InOrder
      (usesAt pcTags rs1Hashs targets inputs n) := by
  have initial : (reset pcTags rs1Hashs targets).InOrder [] :=
    ⟨fun _ => age_le _, fun _ _ none => (nomatch none), fun _ _ _ none => (nomatch none)⟩
  have preserved : ∀ (ibtb : IndirectBTB k) (uses : List (BitVec k))
      (io : Inputs), ibtb.InOrder uses →
      ¬ ibtb.Saturated io.pc → (ibtb.stepOn io).InOrder (ibtb.usedIn io ++ uses) :=
    fun _ _ _ inOrder allowed => stepOn_inOrder wide inOrder allowed
  exact Clocked.invariant_observedAt initial preserved n distinguished

/-- Every pair of a pc and a hash has at most one entry, an update gives it one, and a lookup
    recalls the entry of its pc used last, if no lookup so far has met several entries of its pc
    that are all too old to be told apart. -/
theorem recalls_latest (k : ℕ) (wide : 2 ≤ k) (pcTags : BitVec k → BitVec 30)
    (rs1Hashs : BitVec k → BitVec 8)
    (targets : BitVec k → Word) (inputs : ℕ → Inputs) (n : ℕ) :
    (stateAt pcTags rs1Hashs targets inputs n).Distinct ∧
      ((inputs n).updateValid = true →
      (stateAt pcTags rs1Hashs targets inputs (n + 1)).Trained (inputs n)) ∧
      ((∀ m ≤ n, ¬ (stateAt pcTags rs1Hashs targets inputs m).Saturated (inputs m).pc) →
        (stateAt pcTags rs1Hashs targets inputs n).Recalls (inputs n).pc
          (usesAt pcTags rs1Hashs targets inputs n)) := by
  refine ⟨distinct_always _ _ _ _ n, stepOn_trained, fun distinguished => ?_⟩
  have inOrder :=
    inOrder_always pcTags rs1Hashs targets inputs wide n fun m earlier => distinguished m earlier.le
  exact recalls inOrder (distinguished n le_rfl)

/-- One jump with two targets, a second jump that is looked up twice, and the first one again. -/
def twoTargets (n : ℕ) : Inputs :=
  match n with
  | 0 => ⟨0x2000#32, true, 0x1000#32, 1#8, 0x1100#32⟩
  | 1 => ⟨0x2000#32, true, 0x1000#32, 2#8, 0x1200#32⟩
  | 2 => ⟨0x3000#32, true, 0x2000#32, 1#8, 0x2100#32⟩
  | 3 | 4 => ⟨0x2000#32, false, 0#32, 0#8, 0#32⟩
  | _ => ⟨0x1000#32, false, 0#32, 0#8, 0#32⟩

/-- The states of a table of four entries. -/
def fourEntries (n : ℕ) : IndirectBTB 2 :=
  stateAt (fun _ => 0#30) (fun _ => 0#8) (fun _ => 0#32) twoTargets n

def fourEntriesUses (n : ℕ) : List (BitVec 2) :=
  usesAt (fun _ => 0#30) (fun _ => 0#8) (fun _ => 0#32) twoTargets n

theorem recalls_latest_third :
    2 ≤ 2 ∧ (∀ m ≤ 3, ¬ (fourEntries m).Saturated (twoTargets m).pc) ∧
      (fourEntries 3).Recalls 0x2000#32 (fourEntriesUses 3) := by
  have distinguished : ∀ m ≤ 3, ¬ (fourEntries m).Saturated (twoTargets m).pc := by
    have single : ∀ m < 4, ∀ i j : BitVec 2, (fourEntries m).pcHit (twoTargets m).pc i = true →
        (fourEntries m).pcHit (twoTargets m).pc j = true → i = j := by decide
    exact fun m earlier ⟨⟨i, j, different, first, second⟩, _⟩ =>
      different (single m (Nat.lt_succ_of_le earlier) i j first second)
  exact ⟨le_rfl, distinguished, (recalls_latest 2 le_rfl _ _ _ twoTargets 3).2.2 distinguished⟩

/-- Both entries of the first jump are as old as can be, and the lookup gives the target trained
    first. -/
theorem twoTargets_forgotten :
    ¬ ∀ n, (fourEntries n).Recalls (twoTargets n).pc (fourEntriesUses n) := by
  intro holds
  obtain ⟨i, found, same⟩ := holds 5 (by decide)
  have latest : (fourEntriesUses 5).find? ((fourEntries 5).pcHit (twoTargets 5).pc) = some 1#2 := by
    decide
  have older : (fourEntries 5).predictedTarget (twoTargets 5).pc ≠ (fourEntries 5).targets 1#2 := by
    decide
  exact older (Option.some.inj (found.symm.trans latest) ▸ same)

end Run

end IndirectBTB

end MyCpu
