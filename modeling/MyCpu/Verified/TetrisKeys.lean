import Mathlib.Order.Monotone.Basic
import MyCpu.Software.TetrisInput
import MyCpu.Verified.TetrisPlay

/-! # The keys that are typed

An arrow key is three bytes, and `input_poll` waits for each of them for a thousand looks at the
status.  If they come in this time, the inputs of the game are what the keys stand for, one after
the other, however late the keys are. -/

namespace MyCpu.Tetris

open Serial (ESC ascii)

/-! ## Keys -/

inductive Arrow where
  | up
  | down
  | right
  | left
deriving DecidableEq, Repr

/-- A byte other than an escape, or an arrow key in one of the two modes of a terminal. -/
inductive Key where
  | char (c : BitVec 8) (plain : c ≠ ESC)
  | arrow (application : Bool) (direction : Arrow)
deriving DecidableEq

/-- `A` to `D`, the last byte of an arrow key. -/
def Arrow.letter : Arrow → BitVec 8
  | .up => 0x41#8
  | .down => 0x42#8
  | .right => 0x43#8
  | .left => 0x44#8

/-- What an arrow key stands for. -/
def Arrow.input : Arrow → Input
  | .up => .INPUT_ROTATE
  | .down => .INPUT_SOFT_DROP
  | .right => .INPUT_RIGHT
  | .left => .INPUT_LEFT

/-- What its last byte alone stands for. -/
def Arrow.misread : Arrow → Input
  | .up => .INPUT_LEFT
  | .left => .INPUT_RIGHT
  | .down | .right => .INPUT_NONE

namespace Key

/-- The byte behind the escape, `[` or `O`. -/
def introducer (application : Bool) : BitVec 8 := if application then 0x4f#8 else 0x5b#8

/-- The bytes that a terminal sends. -/
def bytes : Key → List (BitVec 8)
  | .char c _ => [c]
  | .arrow application direction => [ESC, introducer application, direction.letter]

def input : Key → Input
  | .char c _ => Serial.plain_input c
  | .arrow _ direction => direction.input

theorem bytes_length (key : Key) : key.bytes.length = 1 ∨ key.bytes.length = 3 := by
  cases key with
  | char => exact .inl rfl
  | arrow => exact .inr rfl

theorem bytes_pos (key : Key) : 0 < key.bytes.length := by
  cases key.bytes_length <;> omega

end Key

/-- Bytes `i` and `i + 1` belong to one key. -/
def SameKey (keys : List Key) (i : ℕ) : Prop :=
  ∃ before key after, keys = before ++ key :: after ∧ (before.flatMap Key.bytes).length ≤ i ∧
    i + 1 < (before.flatMap Key.bytes).length + key.bytes.length

/-- The bytes of a key come soon after each other. -/
def Prompt (arrived : ℕ → ℕ) (keys : List Key) : Prop :=
  ∀ i, SameKey keys i → ∀ p, i < arrived p → i + 1 < arrived (p + 1001)

/-- Not more than one byte comes in one look, and not more than three while an arrow key is read. -/
def Steady (arrived : ℕ → ℕ) : Prop :=
  ∀ p, arrived (p + 1) ≤ arrived p + 1 ∧ arrived (p + 2003) ≤ arrived p + 3

/-! ## One call of `input_poll` -/

namespace Serial

variable {arrived : ℕ → ℕ} {serial : Serial} {c : BitVec 8} {more : List (BitVec 8)}

@[simp] theorem has_data_cons (taken polls : ℕ) :
    uart_has_data arrived ⟨c :: more, taken, polls⟩ =
      (decide (taken < arrived polls), ⟨c :: more, taken, polls + 1⟩) := by
  simp [uart_has_data]

@[simp] theorem recv_cons (taken polls : ℕ) : recv ⟨c :: more, taken, polls⟩ =
    (c, ⟨more, taken + 1, polls⟩) := rfl

/-- A byte that comes within the wait is read behind it. -/
theorem getc_wait (mono : Monotone arrived) (looks : ℕ) {taken polls : ℕ}
    (soon : taken < arrived (polls + looks)) :
    ∃ p, (polls ≤ p ∧ p ≤ polls + looks) ∧ taken < arrived p ∧
      (wait arrived looks ⟨c :: more, taken, polls⟩).uart_getc_nonblocking arrived =
        (some c, ⟨more, taken + 1, p + 1⟩) := by
  induction looks generalizing polls with
  | zero =>
    rw [Nat.add_zero] at soon
    exact ⟨polls, ⟨le_rfl, le_rfl⟩, soon, by simp [wait, uart_getc_nonblocking, soon]⟩
  | succ looks inductionHypothesis =>
    by_cases now : taken < arrived polls
    · -- the loop ends at the first look
      have still : taken < arrived (polls + 1) := now.trans_le (mono (Nat.le_succ _))
      exact ⟨polls + 1, by omega, still, by simp [wait, uart_getc_nonblocking, now, still]⟩
    · obtain ⟨p, after, there, read⟩ :=
        inductionHypothesis (show taken < arrived (polls + 1 + looks) by
          rwa [Nat.add_assoc, Nat.add_comm 1 looks])
      refine ⟨p, by omega, there, ?_⟩
      simpa [wait, now] using read

/-- Without a byte nothing is read. -/
theorem input_poll_idle (none : ¬ (serial.taken < arrived serial.polls ∧ serial.typed ≠ [])) :
    serial.input_poll arrived = (.INPUT_NONE, { serial with polls := serial.polls + 1 }) := by
  have nothing : (decide (serial.taken < arrived serial.polls) &&
      !serial.typed.isEmpty) = false := by
    simpa using none
  simp [input_poll, uart_has_data, nothing]

/-- A byte that does not come within the wait is left for later. -/
theorem getc_late (mono : Monotone arrived) (looks : ℕ) {taken polls : ℕ}
    (late : arrived (polls + looks) ≤ taken) :
    (wait arrived looks ⟨c :: more, taken, polls⟩).uart_getc_nonblocking arrived =
      (none, ⟨c :: more, taken, polls + looks + 1⟩) := by
  induction looks generalizing polls with
  | zero =>
    have missing : ¬ taken < arrived polls := Nat.not_lt.mpr late
    simp [wait, uart_getc_nonblocking, missing]
  | succ looks inductionHypothesis =>
    have missing : ¬ taken < arrived polls :=
      Nat.not_lt.mpr ((mono (Nat.le_add_right _ _)).trans late)
    have rest := inductionHypothesis (show arrived (polls + 1 + looks) ≤ taken by
      rwa [Nat.add_assoc, Nat.add_comm 1 looks])
    simp only [wait, has_data_cons, missing, decide_false, Bool.false_eq_true, if_false, rest]
    rw [Nat.add_assoc polls 1 looks, Nat.add_comm 1 looks]

variable {taken polls : ℕ} (here : taken < arrived polls)

include here

theorem input_poll_char (plain : c ≠ ESC) :
    input_poll arrived ⟨c :: more, taken, polls⟩ =
      (plain_input c, ⟨more, taken + 1, polls + 1⟩) := by
  simp [input_poll, here, plain]

theorem input_poll_arrow (mono : Monotone arrived) (application : Bool) (direction : Arrow)
    (prompt : ∀ i, taken ≤ i → i < taken + 2 → ∀ p, i < arrived p → i + 1 < arrived (p + 1001)) :
    ∃ p, (polls < p ∧ p ≤ polls + 2003) ∧
      input_poll arrived
        ⟨ESC :: Key.introducer application :: direction.letter :: more, taken, polls⟩ =
        (direction.input, ⟨more, taken + 3, p⟩) := by
  have second := prompt taken le_rfl (by omega) polls here
  obtain ⟨p, after, there, read⟩ :=
    @getc_wait arrived (Key.introducer application) (direction.letter :: more) mono 1000
      (taken + 1) (polls + 1) (by simpa [Nat.add_assoc] using second)
  have third := prompt (taken + 1) (by omega) (by omega) p there
  obtain ⟨q, after', _, read'⟩ :=
    @getc_wait arrived direction.letter more mono 1000 (taken + 1 + 1) (p + 1)
      (by simpa [Nat.add_assoc] using third)
  have introduced : Key.introducer application ∈ ascii ['[', 'O'] := by
    cases application <;> decide
  have decoded : arrow_input (some direction.letter) = direction.input := by
    cases direction <;> decide
  refine ⟨q + 1, by omega, ?_⟩
  simp [input_poll, here, escape, read, introduced, read', decoded]

/-- The last byte of an arrow key is late: it stays behind, as a key of its own. -/
theorem late_arrow (mono : Monotone arrived) (application : Bool) (direction : Arrow)
    (second : taken + 1 < arrived (polls + 1001)) (late : arrived (polls + 2002) ≤ taken + 2) :
    ∃ p, input_poll arrived
      ⟨ESC :: Key.introducer application :: direction.letter :: more, taken, polls⟩ =
        (.INPUT_NONE, ⟨direction.letter :: more, taken + 2, p⟩) ∧
      ∀ q, taken + 2 < arrived q →
        input_poll arrived ⟨direction.letter :: more, taken + 2, q⟩ =
          (direction.misread, ⟨more, taken + 3, q + 1⟩) := by
  obtain ⟨p, after, there, read⟩ :=
    @getc_wait arrived (Key.introducer application) (direction.letter :: more) mono 1000
      (taken + 1) (polls + 1) (by simpa [Nat.add_assoc] using second)
  have missing := @getc_late arrived direction.letter more mono 1000 (taken + 1 + 1) (p + 1)
    ((mono (by omega)).trans late)
  have introduced : Key.introducer application ∈ ascii ['[', 'O'] := by
    cases application <;> decide
  refine ⟨p + 1 + 1000 + 1, ?_, fun q there => ?_⟩
  · simp [input_poll, here, escape, read, introduced, missing, arrow_input]
  · have plain : direction.letter ≠ ESC := by
      cases direction <;> decide
    have misread : plain_input direction.letter = direction.misread := by
      cases direction <;> decide
    rw [input_poll_char there plain, misread]

end Serial

/-! ## Calls of `input_poll` -/

/-- The first `k` keys have been read, and nothing of the others. -/
structure HasRead (keys : List Key) (k : ℕ) (serial : Serial) : Prop where
  inside : k ≤ keys.length
  typed : serial.typed = (keys.drop k).flatMap Key.bytes
  taken : serial.taken = ((keys.take k).flatMap Key.bytes).length

section Calls

variable {arrived : ℕ → ℕ} {keys : List Key} {k : ℕ} {serial : Serial} {key : Key}

theorem HasRead.next (hasRead : HasRead keys k serial) (now : keys[k]? = some key) {polls : ℕ} :
    HasRead keys (k + 1)
      ⟨(keys.drop (k + 1)).flatMap Key.bytes, serial.taken + key.bytes.length, polls⟩ := by
  obtain ⟨bound, here⟩ := List.getElem?_eq_some_iff.mp now
  refine ⟨bound, rfl, ?_⟩
  rw [List.take_succ_eq_append_getElem bound, here, List.flatMap_append,
    List.length_append, ← hasRead.taken]
  simp

theorem sameKey (hasRead : HasRead keys k serial) (now : keys[k]? = some key) {i : ℕ}
    (after : serial.taken ≤ i)
    (before : i + 1 < serial.taken + key.bytes.length) : SameKey keys i := by
  obtain ⟨bound, here⟩ := List.getElem?_eq_some_iff.mp now
  rw [hasRead.taken] at after before
  refine ⟨keys.take k, key, keys.drop (k + 1), ?_, after, before⟩
  rw [← here, ← List.drop_eq_getElem_cons bound, List.take_append_drop]

/-- A call reads the next key, within its looks, or there is nothing to be read. -/
theorem poll_shape (mono : Monotone arrived) (prompt : Prompt arrived keys)
    (hasRead : HasRead keys k serial) :
    (∃ key p, keys[k]? = some key ∧
      (serial.polls < p ∧ p ≤ serial.polls + 1001 * (key.bytes.length - 1) + 1) ∧
        serial.input_poll arrived =
          (key.input, ⟨(keys.drop (k + 1)).flatMap Key.bytes,
          serial.taken + key.bytes.length, p⟩)) ∨
      (k = keys.length ∨ arrived serial.polls ≤ serial.taken) ∧
        serial.input_poll arrived = (.INPUT_NONE, { serial with polls := serial.polls + 1 }) := by
  by_cases here : serial.taken < arrived serial.polls ∧ serial.typed ≠ []
  · obtain ⟨there, unread⟩ := here
    have bound : k < keys.length := by
      refine Nat.lt_of_le_of_ne hasRead.inside fun same => unread ?_
      rw [hasRead.typed, same, List.drop_length, List.flatMap_nil]
    have now : keys[k]? = some keys[k] := List.getElem?_eq_getElem bound
    have typed : serial.typed = keys[k].bytes ++ (keys.drop (k + 1)).flatMap Key.bytes := by
      rw [hasRead.typed, List.drop_eq_getElem_cons bound, List.flatMap_cons]
    have close := @sameKey keys k serial keys[k] hasRead now
    generalize keys[k] = key at now typed close
    generalize (keys.drop (k + 1)).flatMap Key.bytes = more at typed
    obtain ⟨bytes, taken, polls⟩ := serial
    simp only at typed there close ⊢
    subst typed
    cases key with
    | char c plain =>
      have read := @Serial.input_poll_char arrived c more taken polls there plain
      exact .inl ⟨_, polls + 1, now, ⟨Nat.lt_succ_self _, by simp [Key.bytes]⟩, read⟩
    | arrow application direction =>
      -- the bytes behind ESC are read with bounded waiting, which is enough for a prompt sequence
      obtain ⟨p, looks, read⟩ :=
        @Serial.input_poll_arrow arrived more taken polls there mono application direction
          fun i after before => prompt i
            (close after (by simp only [Key.bytes, List.length_cons, List.length_nil]; omega))
      exact .inl ⟨_, p, now, by simpa [Key.bytes] using looks, read⟩
  · refine .inr ⟨?_, Serial.input_poll_idle here⟩
    cases hasRead.inside.eq_or_lt with
    | inl same => exact .inl same
    | inr bound =>
      refine .inr (Nat.le_of_not_lt fun there => here ⟨there, ?_⟩)
      rw [hasRead.typed, List.drop_eq_getElem_cons bound, List.flatMap_cons]
      exact List.append_ne_nil_of_left_ne_nil (List.ne_nil_of_length_pos keys[k].bytes_pos) _

theorem poll_cases (mono : Monotone arrived) (prompt : Prompt arrived keys)
    (hasRead : HasRead keys k serial) :
    serial.polls < (serial.input_poll arrived).2.polls ∧
      ((∃ key, keys[k]? = some key ∧ (serial.input_poll arrived).1 = key.input ∧
          HasRead keys (k + 1) (serial.input_poll arrived).2) ∨
        (k = keys.length ∨ arrived serial.polls ≤ serial.taken) ∧
        (serial.input_poll arrived).1 = .INPUT_NONE ∧
          HasRead keys k (serial.input_poll arrived).2) := by
  obtain ⟨key, p, now, ⟨later, _⟩, read⟩ | ⟨nothing, read⟩ := poll_shape mono prompt hasRead
  · rw [read]
    exact ⟨later, .inl ⟨key, now, rfl, hasRead.next now⟩⟩
  · rw [read]
    exact ⟨Nat.lt_succ_self _, .inr ⟨nothing, rfl, hasRead.inside, hasRead.typed, hasRead.taken⟩⟩

/-- At such a pace a call takes as many bytes as come meanwhile, but for one. -/
theorem poll_pace (mono : Monotone arrived) (prompt : Prompt arrived keys) (steady : Steady arrived)
    (all : ∀ p, arrived p ≤ (keys.flatMap Key.bytes).length) (hasRead : HasRead keys k serial)
    (close : arrived serial.polls ≤ serial.taken + 1) :
    arrived (serial.input_poll arrived).2.polls ≤ serial.taken + Serial.RX_ENTRIES ∧
      arrived (serial.input_poll arrived).2.polls ≤ (serial.input_poll arrived).2.taken + 1 := by
  obtain ⟨one, three⟩ := steady serial.polls
  rw [Serial.RX_ENTRIES]
  obtain ⟨key, p, _, ⟨_, looks⟩, read⟩ | ⟨nothing, read⟩ := poll_shape mono prompt hasRead
  · rw [read]
    simp only
    cases key.bytes_length with
    | inl single =>
      rw [single] at looks ⊢
      have soon : arrived p ≤ arrived (serial.polls + 1) := mono (by omega)
      omega
    | inr triple =>
      rw [triple] at looks ⊢
      have soon : arrived p ≤ arrived (serial.polls + 2003) := mono (by omega)
      omega
  · rw [read]
    simp only
    cases nothing with
    | inl last =>
      have taken := hasRead.taken
      rw [last, List.take_length] at taken
      have := all (serial.polls + 1)
      omega
    | inr missing => omega

end Calls

/-! ## The loop -/

namespace Typing

variable (arrived : ℕ → ℕ) (lossy : Serial → Input × Serial) (seed : BitVec 32) (keys : List Key)

/-- The loop while the keys are typed. -/
def stateAt (n : ℕ) : Typing :=
  Clocked.stateAt (fun typing (_ : Unit) => typing.step arrived lossy)
    (start seed (keys.flatMap Key.bytes)) (fun _ => ()) n

/-- What the game has been told to do. -/
def moves (inputs : List Input) : List Input := inputs.filter (· ≠ .INPUT_NONE)

/-- The moves of the game so far. -/
def movesAt (n : ℕ) : List Input :=
  Clocked.logAt (fun typing (_ : Unit) => typing.step arrived lossy)
    (fun typing _ => moves [(typing.read arrived lossy).1])
    (start seed (keys.flatMap Key.bytes)) (fun _ => ()) n

/-- The game is that of `Game.stateAt`, with the inputs that are read. -/
theorem stateAt_game (n : ℕ) :
    (stateAt arrived lossy seed keys n).game =
      Game.stateAt seed
        (fun k => ((stateAt arrived lossy seed keys k).read arrived lossy).1) n := by
  induction n with
  | zero => rfl
  | succ n inductionHypothesis =>
    have next : (stateAt arrived lossy seed keys (n + 1)).game =
        (stateAt arrived lossy seed keys n).game.step
          ((stateAt arrived lossy seed keys n).read arrived lossy).1 := rfl
    rw [next, inductionHypothesis]
    rfl

variable {arrived lossy seed keys}

theorem read_kept {typing : Typing} (kept : typing.loses arrived = false) :
    typing.read arrived lossy =
    match typing.game.point with
    | .poll | .paused => typing.serial.input_poll arrived
    | _ => (.INPUT_NONE, typing.serial) := by
  rw [read, kept]
  exact if_neg Bool.false_ne_true

/-- A step makes the move of the next key, or none. -/
theorem read_cases (mono : Monotone arrived) (prompt : Prompt arrived keys)
    {typing : Typing} {k : ℕ}
    (kept : typing.loses arrived = false) (hasRead : HasRead keys k typing.serial) :
    ∃ k' ≥ k, HasRead keys k' (typing.read arrived lossy).2 ∧
      moves ((keys.take k').map Key.input) = moves ((keys.take k).map Key.input) ++ moves
        [(typing.read arrived lossy).1] := by
  have idle : (typing.read arrived lossy).1 = .INPUT_NONE →
      HasRead keys k (typing.read arrived lossy).2 →
      ∃ k' ≥ k, HasRead keys k' (typing.read arrived lossy).2 ∧
        moves ((keys.take k').map Key.input) =
          moves ((keys.take k).map Key.input) ++ moves [(typing.read arrived lossy).1] := by
    intro none same
    exact ⟨k, le_rfl, same, by simp [none, moves]⟩
  have polled : typing.read arrived lossy = typing.serial.input_poll arrived →
      ∃ k' ≥ k, HasRead keys k' (typing.read arrived lossy).2 ∧
        moves ((keys.take k').map Key.input) =
          moves ((keys.take k).map Key.input) ++ moves [(typing.read arrived lossy).1] := by
    intro reads
    cases (poll_cases mono prompt hasRead).2 with
    | inl found =>
      obtain ⟨key, now, input, next⟩ := found
      refine ⟨k + 1, Nat.le_succ k, reads ▸ next, ?_⟩
      rw [reads, input, List.take_add_one, now]
      simp [moves]
    | inr nothing => exact idle (reads ▸ nothing.2.1) (reads ▸ nothing.2.2)
  cases place : typing.game.point with
  | poll => exact polled (by rw [read_kept kept, place])
  | paused => exact polled (by rw [read_kept kept, place])
  | lock | softDropped | handled | fallen | checked | halted =>
    have quiet : typing.read arrived lossy = (.INPUT_NONE, typing.serial) := by
      rw [read_kept kept, place]
    exact idle (congrArg Prod.fst quiet) (by rwa [quiet])

theorem moves_made (mono : Monotone arrived) (prompt : Prompt arrived keys)
    (kept : ∀ n, (stateAt arrived lossy seed keys n).loses arrived = false) (n : ℕ) :
    ∃ k, HasRead keys k (stateAt arrived lossy seed keys n).serial ∧
      movesAt arrived lossy seed keys n = moves ((keys.take k).map Key.input) := by
  induction n with
  | zero => exact ⟨0, ⟨Nat.zero_le _, rfl, rfl⟩, rfl⟩
  | succ n inductionHypothesis =>
    obtain ⟨k, hasRead, made⟩ := inductionHypothesis
    obtain ⟨k', _, next, more⟩ := @read_cases arrived lossy keys mono prompt _ k (kept n) hasRead
    refine ⟨k', next, ?_⟩
    rw [more, ← made]
    rfl

/-! ### Progress -/

/-- The number of steps until the loop reads, or has ended. -/
def stepsLeft : Point → ℕ
  | .poll | .paused | .halted => 0
  | .checked => 1
  | .fallen => 2
  | .lock .gravity stage => 3 + stagesLeft stage
  | .handled => 9
  | .softDropped => 10
  | .lock .hardDrop stage => 10 + stagesLeft stage
  | .lock .softDrop stage => 11 + stagesLeft stage
where
  stagesLeft : LockStage → ℕ
    | .add => 4
    | .clear => 3
    | .spawn => 2
    | .spawnNext => 1
    | .test => 0

theorem stepsLeft_step (game : Game) (input : Input) (busy : 0 < stepsLeft game.point) :
    stepsLeft (game.step input).point < stepsLeft game.point := by
  unfold Game.step
  cases place : game.point with
  | poll | paused | halted =>
    rw [place] at busy
    cases busy
  | lock path stage =>
    cases path <;> cases stage <;> simp [Game.lockStep, stepsLeft, stepsLeft.stagesLeft]
  | softDropped => simp [stepsLeft]
  | handled =>
    simp only
    split_ifs
    · simp [stepsLeft]
    · rw [Game.fall]
      simp only
      split_ifs <;> simp [stepsLeft, stepsLeft.stagesLeft]
  | fallen => simp [stepsLeft]
  | checked =>
    simp only
    split_ifs <;> simp [stepsLeft]

theorem stepsLeft_le (point : Point) : stepsLeft point ≤ 15 := by
  cases point with
  | lock path stage => cases path <;> cases stage <;> decide
  | poll | softDropped | paused | handled | fallen | checked | halted => decide

theorem taken_lt {k : ℕ} {serial : Serial} (hasRead : HasRead keys k serial)
    (more : k < keys.length) :
    serial.taken < (keys.flatMap Key.bytes).length := by
  have parts : (keys.flatMap Key.bytes).length =
      serial.taken + ((keys.drop k).flatMap Key.bytes).length := by
    rw [hasRead.taken, ← List.length_append, ← List.flatMap_append, List.take_append_drop]
  rw [parts, List.drop_eq_getElem_cons more, List.flatMap_cons, List.length_append]
  have := keys[k].bytes_pos
  omega

/-- While keys are left, and the loop goes on, this goes down: keys to be read and looks until all
    bytes are there, and before them the steps until the next look. -/
def Left (keys : List Key) (t : ℕ) (typing : Typing) (rank : ℕ) : Prop :=
  ∃ k, HasRead keys k typing.serial ∧
    rank = 16 * (keys.length - k + (t - typing.serial.polls)) + stepsLeft typing.game.point

theorem left_step (mono : Monotone arrived) (prompt : Prompt arrived keys) {t : ℕ}
    (all : (keys.flatMap Key.bytes).length ≤ arrived t) {typing : Typing} {rank : ℕ}
    (kept : typing.loses arrived = false) (left : Left keys t typing rank) :
    (typing.game.point = .halted ∨ HasRead keys keys.length typing.serial) ∨
      ∃ rank' < rank, Left keys t (typing.step arrived lossy) rank' := by
  obtain ⟨k, hasRead, rfl⟩ := left
  by_cases busy : 0 < stepsLeft typing.game.point
  · -- the round goes on without reading a key
    have quiet : typing.read arrived lossy = (.INPUT_NONE, typing.serial) := by
      rw [read_kept kept]
      cases place : typing.game.point with
      | poll | paused =>
        rw [place] at busy
        cases busy
      | lock | softDropped | handled | fallen | checked | halted => rfl
    have fewer := stepsLeft_step typing.game (typing.read arrived lossy).1 busy
    refine .inr ⟨_, ?_, k, by rwa [step, quiet], rfl⟩
    rw [step, quiet] at *
    simp only at fewer ⊢
    omega
  · by_cases done : k = keys.length
    · exact .inl (.inr (done ▸ hasRead))
    · -- at the end of a round the game polls, unless it is over
      have polled : typing.game.point = .halted ∨ typing.read arrived lossy =
          typing.serial.input_poll arrived := by
        rw [read_kept kept]
        cases place : typing.game.point with
        | halted => exact .inl rfl
        | poll | paused => exact .inr rfl
        | lock path stage =>
          rw [place] at busy
          cases path <;> simp [stepsLeft] at busy
        | softDropped | handled | fallen | checked =>
          rw [place] at busy
          simp [stepsLeft] at busy
      cases polled with
      | inl halted => exact .inl (.inl halted)
      | inr reads =>
        have bound := Nat.lt_of_le_of_ne hasRead.inside done
        have unread := taken_lt hasRead bound
        have small := stepsLeft_le (typing.step arrived lossy).game.point
        obtain ⟨looks, found | ⟨nothing, _, same⟩⟩ := poll_cases mono prompt hasRead
        · obtain ⟨key, _, _, next⟩ := found
          refine .inr ⟨_, ?_, k + 1, by rwa [step, reads], rfl⟩
          rw [step, reads] at small ⊢
          simp only at small ⊢
          omega
        · -- nothing has come yet, so that it will come later
          have early : typing.serial.polls < t := by
            refine Nat.lt_of_not_le fun late => ?_
            have there := all.trans (mono late)
            cases nothing with
            | inl all => exact done all
            | inr missing => omega
          refine .inr ⟨_, ?_, k, by rwa [step, reads], rfl⟩
          rw [step, reads] at small ⊢
          simp only at small ⊢
          omega

/-- At a steady pace the queue does not overrun. -/
theorem steady_kept (mono : Monotone arrived) (prompt : Prompt arrived keys)
    (steady : Steady arrived)
    (all : ∀ p, arrived p ≤ (keys.flatMap Key.bytes).length) (first : arrived 0 ≤ 1) (n : ℕ) :
    (stateAt arrived lossy seed keys n).loses arrived = false := by
  have kept : ∀ {typing : Typing} {k : ℕ}, HasRead keys k typing.serial →
      arrived typing.serial.polls ≤ typing.serial.taken + 1 → typing.loses arrived = false := by
    intro typing k hasRead close
    have held : typing.serial.overruns arrived = false :=
      decide_eq_false (Nat.not_lt.mpr (poll_pace mono prompt steady all hasRead close).1)
    unfold loses
    split <;> first | exact held | rfl
  have invariant : ∃ k, HasRead keys k (stateAt arrived lossy seed keys n).serial ∧
      arrived (stateAt arrived lossy seed keys n).serial.polls ≤
        (stateAt arrived lossy seed keys n).serial.taken + 1 := by
    induction n with
    | zero => exact ⟨0, ⟨Nat.zero_le _, rfl, rfl⟩, first⟩
    | succ n inductionHypothesis =>
      obtain ⟨k, hasRead, close⟩ := inductionHypothesis
      have quiet := kept hasRead close
      obtain ⟨k', _, next, _⟩ := @read_cases arrived lossy keys mono prompt _ k quiet hasRead
      refine ⟨k', next, ?_⟩
      change arrived ((stateAt arrived lossy seed keys n).read arrived lossy).2.polls ≤
        ((stateAt arrived lossy seed keys n).read arrived lossy).2.taken + 1
      rw [read_kept quiet]
      split <;> first | exact close | exact (poll_pace mono prompt steady all hasRead close).2
  obtain ⟨k, hasRead, close⟩ := invariant
  exact kept hasRead close

/-- A byte comes every thousand looks. -/
def paced (total looks : ℕ) : ℕ := min (looks / 1000) total

theorem paced_mono (total : ℕ) : Monotone (paced total) := by
  intro p q later
  simp only [paced]
  omega

theorem paced_steady (total : ℕ) : Steady (paced total) := by
  intro p
  simp only [paced]
  omega

theorem paced_prompt (keys : List Key) : Prompt (paced (keys.flatMap Key.bytes).length) keys := by
  intro i sameKey p there
  obtain ⟨before, key, after, rfl, _, within⟩ := sameKey
  simp only [List.flatMap_append, List.flatMap_cons, List.length_append, paced] at there ⊢
  omega

/-- Up, right, down and the space bar: one block is turned, moved, and dropped. -/
def typedKeys : List Key :=
  [.arrow false .up, .char 0x64#8 (by decide), .arrow true .down, .char 0x20#8 (by decide)]

end Typing

end MyCpu.Tetris
