import MyCpu.Software.Tetris

/-! # The keys of Tetris

`input_poll`, and the loop of `main` that calls it.  The program sees the UART through its
registers: the status tells whether a byte has been received, and a read of the data takes it.  How
many bytes have been received at each look at the status is left open.  The receive queue of the
UART has four entries, and a byte for which there is none may be lost: what the loop reads from then
on is left open too. -/

namespace MyCpu.Tetris

/-- The bytes that have not been read yet, the number of those that have, and the number of looks at
    the status.  The bytes that wait in the UART are the first of them. -/
structure Serial where
  typed : List (BitVec 8)
  taken : ℕ
  polls : ℕ
deriving DecidableEq, Repr

namespace Serial

variable (arrived : ℕ → ℕ) (serial : Serial)

def uart_has_data : Bool × Serial :=
  (serial.taken < arrived serial.polls && !serial.typed.isEmpty,
  { serial with polls := serial.polls + 1 })

/-- A read of `UART_RECV`. -/
def recv : BitVec 8 × Serial :=
  (serial.typed.headD 0#8, { serial with typed := serial.typed.tail, taken := serial.taken + 1 })

/-- The loop of so many looks that waits for the next byte of an escape sequence. -/
def wait : ℕ → Serial → Serial
  | 0, serial => serial
  | looks + 1, serial =>
    let (has_data, serial) := serial.uart_has_data arrived
    if has_data then serial else wait looks serial

/-- -1 is `none`. -/
def uart_getc_nonblocking : Option (BitVec 8) × Serial :=
  let (has_data, serial) := serial.uart_has_data arrived
  if has_data then (some serial.recv.1, serial.recv.2) else (none, serial)

def ESC : BitVec 8 := 0x1b#8

def ascii (chars : List Char) : List (BitVec 8) := chars.map fun c => .ofNat 8 c.toNat

/-- The last `switch` of `input_poll`. -/
def plain_input (c : BitVec 8) : Input :=
  if c ∈ ascii ['a', 'A', 'h'] then .INPUT_LEFT
  else if c ∈ ascii ['d', 'D', 'l'] then .INPUT_RIGHT
  else if c ∈ ascii ['w', 'W', 'k'] then .INPUT_ROTATE
  else if c ∈ ascii ['s', 'S', 'j'] then .INPUT_SOFT_DROP
  else if c ∈ ascii [' '] then .INPUT_HARD_DROP
  else if c ∈ ascii ['p', 'P'] then .INPUT_PAUSE
  else if c ∈ ascii ['q', 'Q'] then .INPUT_QUIT
  else .INPUT_NONE

/-- The `switch` over the third byte of an escape sequence. -/
def arrow_input : Option (BitVec 8) → Input
  | none => .INPUT_NONE
  | some c3 =>
    if c3 ∈ ascii ['A'] then .INPUT_ROTATE
    else if c3 ∈ ascii ['B'] then .INPUT_SOFT_DROP
    else if c3 ∈ ascii ['C'] then .INPUT_RIGHT
    else if c3 ∈ ascii ['D'] then .INPUT_LEFT
    else .INPUT_NONE

/-- What follows the escape. -/
def escape : Input × Serial :=
  let (c2, serial) := (wait arrived 1000 serial).uart_getc_nonblocking arrived
  if c2.any (· ∈ ascii ['[', 'O']) then
    let (c3, serial) := (wait arrived 1000 serial).uart_getc_nonblocking arrived
    (arrow_input c3, serial)
  else (.INPUT_NONE, serial)

def input_poll : Input × Serial :=
  let (has_data, serial) := serial.uart_has_data arrived
  if has_data then
    let (c, serial) := serial.recv
    if c = ESC then serial.escape arrived else (plain_input c, serial)
  else (.INPUT_NONE, serial)

/-- The entries of the receive queue. -/
def RX_ENTRIES : ℕ := 4

/-- More bytes than the queue has entries have come, before the next look behind this call of
    `input_poll`. -/
def overruns : Bool := serial.taken + RX_ENTRIES < arrived (serial.input_poll arrived).2.polls

end Serial

/-- The loop of `main` with the UART. -/
structure Typing where
  game : Game
  serial : Serial

namespace Typing

variable (arrived : ℕ → ℕ) (lossy : Serial → Input × Serial) (typing : Typing)

/-- The queue of the UART overruns in this step. -/
def loses : Bool :=
  match typing.game.point with
  | .poll | .paused => typing.serial.overruns arrived
  | _ => false

/-- What `input_poll` returns if it is called in this step, with the UART afterwards; `lossy` when
    bytes may be lost. -/
def read : Input × Serial :=
  if typing.loses arrived then lossy typing.serial
  else match typing.game.point with
    | .poll | .paused => typing.serial.input_poll arrived
    | _ => (.INPUT_NONE, typing.serial)

def step : Typing := ⟨typing.game.step (typing.read arrived lossy).1, (typing.read arrived lossy).2⟩

def start (seed : BitVec 32) (typed : List (BitVec 8)) : Typing := ⟨Game.start seed, ⟨typed, 0, 0⟩⟩

end Typing

end MyCpu.Tetris
