import Mathlib.Data.Nat.Digits.Defs
import MyCpu.Lib.Bracketed
import MyCpu.Software.TetrisTerminal
import MyCpu.Verified.TetrisPlay

/-! # The score line of Tetris

Who reads the UART finds the score lines between their brackets, whatever is sent in between: the
other texts have no bracket.  There is a line for each change of the score, the lines or the level,
and for nothing else. -/

namespace MyCpu.Tetris

/-! ## Numbers -/

def digitChar (digit : ℕ) : BitVec 8 := BitVec.ofNat 8 (0x30 + digit)

/-- A number as it is written. -/
def decimal (n : ℕ) : List (BitVec 8) :=
  if n = 0 then [digitChar 0] else (Nat.digits 10 n).reverse.map digitChar

theorem put_digits_eq {room num : ℕ} (small : num < 10 ^ room) :
    put_digits room num = (Nat.digits 10 num).map digitChar := by
  induction room generalizing num with
  | zero =>
    rw [Nat.lt_one_iff.mp small]
    rfl
  | succ room inductionHypothesis =>
    rw [put_digits]
    by_cases zero : num = 0
    · rw [if_pos zero, zero]
      rfl
    · have less : num / 10 < 10 ^ room := Nat.div_lt_of_lt_mul (by rwa [← Nat.pow_succ'])
      rw [if_neg zero, Nat.digits_def' (by decide) (Nat.pos_of_ne_zero zero),
        inductionHypothesis less]
      rfl

/-- The buffer has room for every number. -/
theorem uart_put_number_eq (num : BitVec 32) : uart_put_number num = decimal num.toNat := by
  have small : num.toNat < 10 ^ 11 := Nat.lt_trans num.isLt (by decide)
  rw [uart_put_number, decimal, put_digits_eq small, List.map_reverse]
  exact if_congr BitVec.toNat_eq rfl rfl

theorem decimal_plain {n : ℕ} : ∀ c ∈ decimal n, 0x30#8 ≤ c ∧ c < 0x3a#8 := by
  have digit : ∀ digit < 10, 0x30#8 ≤ digitChar digit ∧ digitChar digit < 0x3a#8 := by decide
  intro c member
  rw [decimal] at member
  split_ifs at member with zero
  · rw [List.mem_singleton.mp member]
    exact digit 0 (by decide)
  · obtain ⟨value, inside, rfl⟩ := List.mem_map.mp member
    exact digit value (Nat.digits_lt_base (by decide) (List.mem_reverse.mp inside))

/-- What stands between the brackets of the score line. -/
def scoreLine (score lines level : ℕ) : List (BitVec 8) :=
  uart_puts "Score: " ++ decimal score ++ uart_puts " Lines: " ++ decimal lines ++
    uart_puts " Lv: " ++ decimal level

theorem score_text_eq (score : BitVec 32) (lines : BitVec 16) (level : BitVec 8) :
    score_text score lines level =
      0x0d#8 :: (0x5b#8 :: scoreLine score.toNat lines.toNat level.toNat ++ [0x5d#8]) ++
        uart_puts "   " := by
  have wide : (lines.setWidth 32).toNat = lines.toNat := BitVec.toNat_setWidth_of_le (by decide)
  have narrow : (level.setWidth 32).toNat = level.toNat := BitVec.toNat_setWidth_of_le (by decide)
  have opened : uart_puts "\r[Score: " = 0x0d#8 :: 0x5b#8 :: uart_puts "Score: " := rfl
  have closed : uart_puts "]   " = 0x5d#8 :: uart_puts "   " := rfl
  rw [score_text, uart_put_number_eq, uart_put_number_eq, uart_put_number_eq, wide, narrow,
    opened, closed, scoreLine]
  simp only [List.cons_append, List.append_assoc, List.nil_append]

theorem scoreLine_inside (score lines level : ℕ) : 0x5d#8 ∉ scoreLine score lines level := by
  have number : ∀ n, 0x5d#8 ∉ decimal n :=
    fun n member => absurd (decimal_plain _ member).2 (by decide)
  simp only [scoreLine, List.mem_append, number, or_false]
  decide

/-! ## The other texts -/

theorem draw_preview_outside (ready : Fin 12 → Bool) : 0x5b#8 ∉ draw_preview_sent ready := by
  intro member
  obtain ⟨sync, _, sent⟩ := List.mem_flatMap.mp member
  cases sync <;> exact absurd sent (by decide)

theorem random_trace_outside (bag : Bag) : 0x5b#8 ∉ bag.random_trace := by
  rw [Bag.random_trace]
  split_ifs <;> decide

theorem texts_outside (game : Game) (input : Input) : 0x5b#8 ∉ game.texts input := by
  fun_cases Game.texts game input with
  | case5 => exact random_trace_outside game.bag
  | case1 | case2 | case3 | case4 | case6 | case7 | case8 | case9 | case10 => decide

/-! ## What is received -/

def Terminal.numbers (terminal : Terminal) : BitVec 32 × BitVec 16 × BitVec 8 :=
  (terminal.last_printed_score, terminal.last_printed_lines, terminal.last_printed_level)

def Grid.numbers (g : Grid) : BitVec 32 × BitVec 16 × BitVec 8 :=
  (g.score, g.lines_cleared, g.level)

/-- The score line of some numbers. -/
def lineOf (numbers : BitVec 32 × BitVec 16 × BitVec 8) : List (BitVec 8) :=
  scoreLine numbers.1.toNat numbers.2.1.toNat numbers.2.2.toNat

namespace Terminal

/-- What a receiver makes of everything that has been sent. -/
def received (terminal : Terminal) : Receiver (BitVec 8) :=
  (Receiver.idle []).receives 0x5b#8 0x5d#8 terminal.sent

variable {terminal : Terminal} {lines : List (List (BitVec 8))} {g : Grid}

theorem received_puts (received : terminal.received = .idle lines) {bytes : List (BitVec 8)}
    (outside : 0x5b#8 ∉ bytes) : (terminal.puts bytes).received = .idle lines := by
  rw [Terminal.received, puts, Receiver.receives_append]
  exact (congrArg (Receiver.receives _ _ · bytes) received).trans
    (Receiver.receives_outside outside)

/-- A line is printed if the numbers are not those that were printed last. -/
theorem received_print (received : terminal.received = .idle lines) :
    (terminal.print_score_to_terminal g.score g.lines_cleared g.level).numbers = g.numbers ∧
      (terminal.print_score_to_terminal g.score g.lines_cleared g.level).received =
        .idle (lines ++ if terminal.numbers = g.numbers then [] else [lineOf g.numbers]) := by
  have same : terminal.numbers = g.numbers ↔ g.score = terminal.last_printed_score ∧
      g.lines_cleared = terminal.last_printed_lines ∧ g.level = terminal.last_printed_level := by
    rw [eq_comm, Grid.numbers, Terminal.numbers, Prod.mk.injEq, Prod.mk.injEq]
  rw [print_score_to_terminal]
  split_ifs with unchanged printed printed
  · exact ⟨printed, by rw [List.append_nil, received]⟩
  · exact absurd (same.mpr unchanged) printed
  · exact absurd (same.mp printed) unchanged
  · refine ⟨rfl, ?_⟩
    have line := @Receiver.receives_line _ _ 0x5b#8 0x5d#8 lines (lineOf g.numbers)
      (scoreLine_inside _ _ _)
    rw [Terminal.received, Receiver.receives_append]
    refine (congrArg (Receiver.receives _ _ · _) received).trans ?_
    rw [score_text_eq, ← List.singleton_append, List.append_assoc, Receiver.receives_append,
      Receiver.receives_outside (by decide), Receiver.receives_append]
    refine (congrArg (Receiver.receives _ _ · _) line).trans ?_
    exact Receiver.receives_outside (by decide)

end Terminal

/-! ## Whole games -/

namespace Session

variable (seed : BitVec 32) (inputs : ℕ → Input) (ready : ℕ → Fin 12 → Bool)

/-- The game and its texts with the inputs read so far. -/
def stateAt (n : ℕ) : Session := Clocked.stateAt step (start seed) (fun n => (inputs n, ready n)) n

theorem stateAt_game (n : ℕ) : (stateAt seed inputs ready n).game = Game.stateAt seed inputs n := by
  induction n with
  | zero => rfl
  | succ n inductionHypothesis =>
    have next : (stateAt seed inputs ready (n + 1)).game =
        (stateAt seed inputs ready n).game.step (inputs n) := rfl
    rw [next, inductionHypothesis]
    rfl

/-- What the rounds have begun with so far. -/
def rounds (n : ℕ) : List (BitVec 32 × BitVec 16 × BitVec 8) :=
  (List.range n).flatMap fun k =>
    let game := Game.stateAt seed inputs k
    if game.point = .poll then [game.grid.numbers] else []

theorem rounds_succ (n : ℕ) :
    rounds seed inputs (n + 1) = rounds seed inputs n ++
      if (Game.stateAt seed inputs n).point = .poll then
        [(Game.stateAt seed inputs n).grid.numbers] else [] := by
  rw [rounds, List.range_succ, List.flatMap_append, List.flatMap_singleton]
  rfl

/-- A receiver has got the changes in the history of the rounds, and the last numbers are
    remembered. -/
structure Followed (history : List (BitVec 32 × BitVec 16 × BitVec 8)) (terminal : Terminal) :
    Prop where
  received : terminal.received = .idle ((history.destutter (· ≠ ·)).map lineOf)
  last : history.getLast? = some terminal.numbers

variable {history : List (BitVec 32 × BitVec 16 × BitVec 8)} {terminal : Terminal}

theorem Followed.puts (followed : Followed history terminal) {bytes : List (BitVec 8)}
    (outside : 0x5b#8 ∉ bytes) :
    Followed history (terminal.puts bytes) :=
  ⟨Terminal.received_puts followed.received outside, followed.last⟩

/-- What is remembered is the end of the history, so that the comparison tells whether it has
    changed. -/
theorem followed_print {g : Grid}
    (received : terminal.received = .idle ((history.destutter (· ≠ ·)).map lineOf))
    (last : history.getLast? = some g.numbers ↔ terminal.numbers = g.numbers) :
    Followed (history ++ [g.numbers])
      (terminal.print_score_to_terminal g.score g.lines_cleared g.level) := by
  obtain ⟨numbers, printed⟩ := @Terminal.received_print terminal _ g received
  refine ⟨?_, by rw [numbers, List.getLast?_concat]⟩
  rw [printed, Receiver.destutter_concat, List.map_append]
  by_cases unchanged : terminal.numbers = g.numbers
  · rw [if_pos unchanged, if_pos (last.mpr unchanged), List.map_nil]
  · rw [if_neg unchanged, if_neg (mt last.mp unchanged), List.map_singleton]

/-- The score line comes behind the backspaces of its round. -/
theorem print_poll {session : Session} {syncs : Fin 12 → Bool}
    (drawn : session.game.point = .poll) :
    (session.print syncs).terminal =
      (session.terminal.puts
        (draw_preview_sent syncs)).print_score_to_terminal session.game.grid.score
        session.game.grid.lines_cleared session.game.grid.level := by
  rw [print, drawn]

theorem print_other {session : Session} {syncs : Fin 12 → Bool}
    (other : session.game.point ≠ .poll) :
    session.print syncs = session := by
  rw [print]
  split
  · exact absurd ‹_› other
  · rfl

theorem terminal_succ (n : ℕ) :
    (stateAt seed inputs ready (n + 1)).terminal =
      ((stateAt seed inputs ready n).print (ready n)).terminal.puts
        ((stateAt seed inputs ready n).game.texts (inputs n)) :=
  rfl

theorem received_start : (start seed).terminal.received = .idle [] := by
  refine Receiver.receives_outside ?_
  simp only [start, List.mem_append, not_or]
  exact ⟨⟨⟨⟨by decide, by decide⟩, by decide⟩, random_trace_outside _⟩, random_trace_outside _⟩

theorem followed_always (n : ℕ) :
    Followed (rounds seed inputs (n + 1)) (stateAt seed inputs ready (n + 1)).terminal := by
  induction n with
  | zero =>
    rw [terminal_succ, print_poll rfl]
    refine Followed.puts ?_ (texts_outside _ _)
    refine @followed_print [] _ (Game.start seed).grid
      (Terminal.received_puts (received_start seed) (draw_preview_outside _)) ?_
    -- the score that is remembered at first is not that of the start
    exact ⟨fun none => (nomatch none), fun same =>
      absurd (show (0xffffffff#32 : BitVec 32) = 0#32 from congrArg Prod.fst same) (by decide)⟩
  | succ n inductionHypothesis =>
    have same := stateAt_game seed inputs ready (n + 1)
    rw [terminal_succ, rounds_succ, ← same]
    refine Followed.puts ?_ (texts_outside _ _)
    by_cases drawn : (stateAt seed inputs ready (n + 1)).game.point = .poll
    · have sent := Followed.puts inductionHypothesis (draw_preview_outside (ready (n + 1)))
      rw [print_poll drawn, if_pos drawn]
      exact followed_print sent.received (by rw [sent.last, Option.some_inj])
    · rw [print_other drawn, if_neg drawn, List.append_nil]
      exact inductionHypothesis

/-- The numbers of a round are the last ones until the next round. -/
theorem last_round {n m : ℕ} (drawn : (Game.stateAt seed inputs n).point = .poll) (later : n < m)
    (kept : ∀ k, n < k → k < m → (Game.stateAt seed inputs k).point ≠ .poll) :
    (rounds seed inputs m).getLast? = some (Game.stateAt seed inputs n).grid.numbers := by
  have first : (rounds seed inputs (n + 1)).getLast? =
      some (Game.stateAt seed inputs n).grid.numbers := by
    rw [rounds_succ, if_pos drawn, List.getLast?_concat]
  refine Clocked.kept_until later first fun k after before same => ?_
  rw [rounds_succ, if_neg (kept k after before), List.append_nil]
  exact same

/-- Whatever else is sent, a receiver has got the score lines of all changes in the history of the
rounds, in their order and none twice; from a round until the next one the last of them is that of
the round. -/
theorem scores_received (n m : ℕ)
    (drawn : (Game.stateAt seed inputs n).point = .poll) (later : n < m)
    (kept : ∀ k, n < k → k < m → (Game.stateAt seed inputs k).point ≠ .poll) :
    (stateAt seed inputs ready m).terminal.received =
        .idle (((rounds seed inputs m).destutter (· ≠ ·)).map lineOf) ∧
      ((rounds seed inputs m).destutter (· ≠ ·)).getLast? =
        some (Game.stateAt seed inputs n).grid.numbers := by
  obtain ⟨before, rfl⟩ := Nat.exists_eq_succ_of_ne_zero (Nat.ne_zero_of_lt later)
  rw [Receiver.destutter_getLast]
  exact ⟨(followed_always seed inputs ready before).received,
    last_round seed inputs drawn later kept⟩

/-- With a pause in the first round nothing has changed in the second: the line is not sent
    again. -/
def pausedInputs : ℕ → Input
  | 0 | 1 => .INPUT_PAUSE
  | _ => .INPUT_SOFT_DROP

theorem paused_drawn : (Game.stateAt 1#32 pausedInputs 4).point = .poll := by decide +kernel

theorem paused_received :
    (stateAt 1#32 pausedInputs (fun _ sync => sync.val % 2 = 0) 5).terminal.received =
        .idle (((rounds 1#32 pausedInputs 5).destutter (· ≠ ·)).map lineOf) ∧
      ((rounds 1#32 pausedInputs 5).destutter (· ≠ ·)).getLast? =
        some (Game.stateAt 1#32 pausedInputs 4).grid.numbers :=
  scores_received 1#32 pausedInputs _ 4 5 paused_drawn (by decide) fun k after before =>
    absurd (Nat.lt_of_lt_of_le after (Nat.lt_succ_iff.mp before)) (Nat.lt_irrefl 4)

end Session

end MyCpu.Tetris
