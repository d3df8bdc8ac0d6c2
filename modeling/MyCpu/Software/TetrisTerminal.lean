import MyCpu.Software.Tetris

/-! # The texts of Tetris

What `main` sends to the UART: the score line of every round in which something has changed, the
backspaces with which `draw_preview` keeps the CPU going, the texts around a pause, and the trace
that `shuffle_bag` leaves. -/

namespace MyCpu.Tetris

def uart_puts (s : String) : List (BitVec 8) := s.toList.map fun c => BitVec.ofNat 8 c.toNat

/-- The loop of `uart_put_number` that fills `buf`, with so many places left in it. -/
def put_digits : ℕ → ℕ → List (BitVec 8)
  | 0, _ => []
  | room + 1, num => if num = 0 then []
      else BitVec.ofNat 8 (0x30 + num % 10) :: put_digits room (num / 10)

def uart_put_number (num : BitVec 32) : List (BitVec 8) :=
  if num = 0#32 then uart_puts "0" else (put_digits 11 num.toNat).reverse

/-- The variables of `print_score_to_terminal`, and all that has been sent. -/
structure Terminal where
  last_printed_score : BitVec 32
  last_printed_lines : BitVec 16
  last_printed_level : BitVec 8
  sent : List (BitVec 8)
deriving DecidableEq, Repr

/-- Behind the comparison with what was printed last. -/
def score_text (score : BitVec 32) (lines : BitVec 16) (level : BitVec 8) : List (BitVec 8) :=
  uart_puts "\r[Score: " ++ uart_put_number score ++ uart_puts " Lines: " ++ uart_put_number
    (lines.setWidth 32) ++
    uart_puts " Lv: " ++ uart_put_number (level.setWidth 32) ++ uart_puts "]   "

namespace Terminal

variable (terminal : Terminal)

def print_score_to_terminal (score : BitVec 32) (lines : BitVec 16) (level : BitVec 8) : Terminal :=
  if score = terminal.last_printed_score ∧ lines = terminal.last_printed_lines ∧
      level = terminal.last_printed_level then terminal
  else ⟨score, lines, level, terminal.sent ++ score_text score lines level⟩

def puts (bytes : List (BitVec 8)) : Terminal := { terminal with sent := terminal.sent ++ bytes }

end Terminal

/-- A backspace, if the UART is ready for it. -/
def cpu_sync (ready : Bool) : List (BitVec 8) := if ready then [0x08#8] else []

/-- `draw_preview` calls `cpu_sync` behind each of the nine squares that it clears and behind three
    of the cells. -/
def draw_preview_sent (ready : Fin 12 → Bool) : List (BitVec 8) :=
  (List.ofFn ready).flatMap cpu_sync

/-- `shuffle_bag` sends a dot for each shape and a star for each random number. -/
def Bag.shuffle_trace : List (BitVec 8) := uart_puts ".......******"

/-- What is sent while `shape_random` draws a shape. -/
def Bag.random_trace (bag : Bag) : List (BitVec 8) :=
  if NUM_SHAPES ≤ bag.bag_pos.toNat then shuffle_trace else []

/-- What is sent by one statement of the loop, apart from what the drawing of a round sends. -/
def Game.texts (game : Game) (input : Input) : List (BitVec 8) :=
  match game.point, input with
  | .poll, .INPUT_PAUSE => uart_puts "\r\nPAUSE\r\n"
  | .poll, .INPUT_QUIT => uart_puts "\r\nQUIT\r\n"
  | .paused, .INPUT_PAUSE => uart_puts "RESUME\r\n"
  | .paused, .INPUT_QUIT => uart_puts "QUIT\r\n"
  | .lock _ .spawnNext, _ => game.bag.random_trace
  | .handled, _ | .checked, _ => if game.game_state = .GAME_OVER then
      uart_puts "\r\nGame Over!\r\n" else []
  | _, _ => []

/-- The game and its texts. -/
structure Session where
  game : Game
  terminal : Terminal

namespace Session

variable (session : Session)

/-- `draw_preview` and the score line come before the `input_poll` of the loop. -/
def print (ready : Fin 12 → Bool) : Session :=
  match session.game.point with
  | .poll =>
    let grid := session.game.grid
    let terminal := session.terminal.puts (draw_preview_sent ready)
    { session with
      terminal := terminal.print_score_to_terminal grid.score grid.lines_cleared grid.level }
  | _ => session

/-- With the input that is read, and whether the UART is ready at each `cpu_sync`. -/
def step (input : Input × (Fin 12 → Bool)) : Session where
  game := session.game.step input.1
  terminal := (session.print input.2).terminal.puts (session.game.texts input.1)

/-- `main` up to its loop, with the seed. -/
def start (seed : BitVec 32) : Session where
  game := Game.start seed
  terminal :=
    let bag := (Bag.my_srand ⟨12345#32, .replicate NUM_SHAPES 0#8, 0#8⟩ seed).shape_init
    ⟨0xffffffff#32, 0xffff#16, 0xff#8,
      uart_puts "\r\n=== TETRIS ===\r\n" ++
        uart_puts "Press any key to start...\r\n" ++ Bag.shuffle_trace ++
        bag.random_trace ++ bag.shape_random.2.random_trace⟩

end Session

end MyCpu.Tetris
