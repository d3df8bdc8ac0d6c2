import Mathlib.Data.Nat.Notation
import Mathlib.Data.List.Induction
import Mathlib.Logic.Function.Basic
import Mathlib.Tactic.SplitIfs

/-! # Direct-mapped tables with saturating counters

A table has one slot for each index, and every key shares its slot with the other keys of its index.
An entry keeps a value and a counter of two bits that follows the outcomes of its key: it starts at
2, saturates at 3, and the entry is dropped when it reaches 0.

The reference replays the whole history of updates for one key.  A table is its own history as far
as lookups can tell. -/

namespace DirectMapped

variable {Key Index Value : Type*} [DecidableEq Key] [DecidableEq Index]

structure Entry (Key Value : Type*) where
  key : Key
  value : Value
  counter : ℕ

/-- The outcome of a key. -/
structure Update (Key Value : Type*) where
  key : Key
  value : Value
  taken : Bool

/-! ## The table -/

/-- The slot of the updated key. -/
def nextEntry (entry : Option (Entry Key Value)) (update : Update Key Value) :
    Option (Entry Key Value) :=
  match entry with
  | none => if update.taken then some ⟨update.key, update.value, 2⟩ else none
  | some entry =>
    if entry.key = update.key then
      if update.taken then some ⟨update.key, update.value, min (entry.counter + 1) 3⟩
      else if entry.counter - 1 = 0 then none
      else some { entry with counter := entry.counter - 1 }
    else if update.taken then some ⟨update.key, update.value, 2⟩
    else some entry

variable (index : Key → Index)

def step (table : Index → Option (Entry Key Value)) (update : Update Key Value) :
    Index → Option (Entry Key Value) :=
  Function.update table (index update.key) (nextEntry (table (index update.key)) update)

/-! ## The history of a key -/

/-- What an update does to the counter of a key: a taken update of another key of the same index
    evicts it. -/
def replayStep (key : Key) (counter : Option ℕ) (update : Update Key Value) : Option ℕ :=
  if update.key = key then
    if update.taken then some (counter.elim 2 fun count => min (count + 1) 3)
    else counter.bind fun count => if count - 1 = 0 then none else some (count - 1)
  else if index update.key = index key ∧ update.taken then none
  else counter

/-- The counter of a key after a history, if the key has an entry. -/
def replay (history : List (Update Key Value)) (key : Key) : Option ℕ :=
  history.foldl (replayStep index key) none

/-- The value of the latest taken update of a key. -/
def lastTaken (history : List (Update Key Value)) (key : Key) : Option Value :=
  history.foldl (fun value update => if update.key = key ∧ update.taken then
    some update.value else value) none

variable {index} {table : Index → Option (Entry Key Value)} {history : List (Update Key Value)}

theorem replay_append (history : List (Update Key Value)) (update : Update Key Value) (key : Key) :
    replay index (history ++ [update]) key =
      replayStep index key (replay index history key) update := by
  rw [replay, List.foldl_append]
  rfl

theorem lastTaken_append (history : List (Update Key Value))
    (update : Update Key Value) (key : Key) :
    lastTaken (history ++ [update]) key =
      if update.key = key ∧ update.taken then some update.value else lastTaken history key := by
  rw [lastTaken, List.foldl_append]
  rfl

theorem lastTaken_mem {key : Key} {value : Value} (last : lastTaken history key = some value) :
    ∃ update ∈ history, update.key = key ∧ update.taken = true ∧ update.value = value := by
  induction history using List.reverseRecOn with
  | nil => cases last
  | append_singleton history update inductionHypothesis =>
    rw [lastTaken_append] at last
    split_ifs at last with now
    · exact ⟨update, List.mem_append_right _ (List.mem_singleton_self _), now.1,
        now.2, Option.some.inj last⟩
    · obtain ⟨earlier, member, found⟩ := inductionHypothesis last
      exact ⟨earlier, List.mem_append_left _ member, found⟩

/-! ## Lookups -/

/-- The counter that a lookup of a key finds. -/
def found (entry : Option (Entry Key Value)) (key : Key) : Option ℕ :=
  entry.bind fun entry => if entry.key = key then some entry.counter else none

/-- Every entry is in its slot, counts from 1 to 3 and holds the value of its latest taken update,
    and every lookup finds the counter of the history. -/
structure Replays (index : Key → Index) (table : Index → Option (Entry Key Value))
    (history : List (Update Key Value)) : Prop where
  placed : ∀ i entry, table i = some entry → index entry.key = i ∧
    1 ≤ entry.counter ∧ entry.counter ≤ 3
  valued : ∀ i entry, table i = some entry → lastTaken history entry.key = some entry.value
  counted : ∀ key, found (table (index key)) key = replay index history key

theorem replays_empty : @Replays Key Index Value _ _ index (fun _ => none) [] where
  placed _ _ none := nomatch none
  valued _ _ none := nomatch none
  counted _ := rfl

omit [DecidableEq Index] in
theorem nextEntry_placed {entry : Option (Entry Key Value)} {update : Update Key Value}
    {next : Entry Key Value}
    (before : ∀ old, entry = some old → index old.key = index update.key ∧
      1 ≤ old.counter ∧ old.counter ≤ 3)
    (after : nextEntry entry update = some next) :
    index next.key = index update.key ∧ 1 ≤ next.counter ∧ next.counter ≤ 3 := by
  cases entry with
  | none =>
    simp only [nextEntry] at after
    split_ifs at after
    cases after
    exact ⟨rfl, Nat.le_succ 1, Nat.le_succ 2⟩
  | some old =>
    obtain ⟨place, low, high⟩ := before old rfl
    simp only [nextEntry] at after
    split_ifs at after with same taken dropped taken
    · cases after
      exact ⟨rfl, by simp only; omega, by simp only; omega⟩
    · cases after
      exact ⟨place, by simp only; omega, by simp only; omega⟩
    · cases after
      exact ⟨rfl, Nat.le_succ 1, Nat.le_succ 2⟩
    · cases after
      exact ⟨place, low, high⟩

theorem nextEntry_valued {entry : Option (Entry Key Value)} {update : Update Key Value}
    {next : Entry Key Value}
    (before : ∀ old, entry = some old → lastTaken history old.key = some old.value)
    (after : nextEntry entry update = some next) :
    lastTaken (history ++ [update]) next.key = some next.value := by
  rw [lastTaken_append]
  cases entry with
  | none =>
    simp only [nextEntry] at after
    split_ifs at after with taken
    cases after
    exact if_pos ⟨rfl, taken⟩
  | some old =>
    simp only [nextEntry] at after
    split_ifs at after with same taken dropped taken
    · cases after
      exact if_pos ⟨rfl, taken⟩
    · cases after
      exact (if_neg fun now => taken now.2).trans (before old rfl)
    · cases after
      exact if_pos ⟨rfl, taken⟩
    · cases after
      exact (if_neg fun now => taken now.2).trans (before _ rfl)

/-- The slot of the updated key, as a key of the same index sees it. -/
theorem found_nextEntry {entry : Option (Entry Key Value)} {update : Update Key Value} {key : Key}
    (shared : index update.key = index key) :
    found (nextEntry entry update) key = replayStep index key (found entry key) update := by
  cases entry with
  | none =>
    by_cases same : update.key = key
    · by_cases taken : update.taken = true <;> simp [found, nextEntry, replayStep, same, taken]
    · by_cases taken : update.taken = true <;> simp [found, nextEntry, replayStep, same, taken]
  | some old =>
    by_cases same : update.key = key
    · subst same
      by_cases own : old.key = update.key
      · by_cases taken : update.taken = true
        · simp [found, nextEntry, replayStep, own, taken]
        · by_cases dropped : old.counter -
            1 = 0 <;> simp [found, nextEntry, replayStep, own, taken, dropped]
      · by_cases taken : update.taken = true <;> simp [found, nextEntry, replayStep, own, taken]
    · -- the entry of another key: only a taken update touches the slot as this key sees it
      by_cases own : old.key = update.key
      · have other : old.key ≠ key := fun equal => same (own ▸ equal)
        by_cases taken : update.taken = true
        · simp [found, nextEntry, replayStep, own, taken, same, shared]
        · by_cases dropped : old.counter -
            1 = 0 <;> simp [found, nextEntry, replayStep, own, taken, same, dropped]
      · by_cases taken : update.taken = true <;> simp [found, nextEntry, replayStep,
          own, taken, same, shared]

theorem replays_step (replays : Replays index table history) (update : Update Key Value) :
    Replays index (step index table update) (history ++ [update]) where
  placed i entry inside := by
    by_cases here : i = index update.key
    · subst here
      rw [step, Function.update_self] at inside
      exact nextEntry_placed (fun old before => replays.placed _ old before) inside
    · rw [step, Function.update_of_ne here] at inside
      exact replays.placed i entry inside
  valued i entry inside := by
    by_cases here : i = index update.key
    · subst here
      rw [step, Function.update_self] at inside
      exact nextEntry_valued (fun old before => replays.valued _ old before) inside
    · rw [step, Function.update_of_ne here] at inside
      have other : update.key ≠ entry.key :=
        fun same => here (same ▸ (replays.placed i entry inside).1.symm)
      rw [lastTaken_append, if_neg fun now => other now.1]
      exact replays.valued i entry inside
  counted key := by
    rw [replay_append, ← replays.counted]
    by_cases shared : index update.key = index key
    · rw [step, ← shared, Function.update_self, found_nextEntry shared, shared]
    · have other : update.key ≠ key := fun same => shared (same ▸ rfl)
      rw [step, Function.update_of_ne (Ne.symm shared), replayStep, if_neg other,
        if_neg fun evicts => shared evicts.1]

end DirectMapped
