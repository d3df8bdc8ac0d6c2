import MyCpu.Lib.Loop
import MyCpu.Peripheral.Uart

/-! # The shell

The numbers of `shell.c`, printed and parsed without division, the line that is read from the UART,
and its words.  What is sent is a list of bytes.  A loop that does not end, and an access outside
`line_buf_words`, have no result. -/

namespace MyCpu.Shell

/-- More rounds than a loop over a word can take. -/
def ROUNDS : ℕ := 4294967296

/-- The bytes that `uart_puts` sends. -/
def uart_puts (s : String) : List Byte := s.toList.map fun c => BitVec.ofNat 8 c.toNat

/-! ## Numbers -/

/-- The loop of `udiv`, with what is left of `num`, and `quot`; `print_uint` has it with `val`, `d`
    and `digit`. -/
def divide_loop (num den : Word) : Option (Word × Word) :=
  Loop.run (Loop.whileRound (fun state : Word × Word => den ≤ state.1)
    fun state => (state.1 - den, state.2 + 1#32))
    ROUNDS (num, 0#32)

def udiv (num den : Word) : Option Word :=
  if den = 0#32 then some 0#32 else (divide_loop num den).map Prod.snd

def umod (num den : Word) : Option Word :=
  if den = 0#32 then some 0#32 else Loop.run
    (Loop.whileRound (fun num => den ≤ num) fun num => num - den) ROUNDS num

def divisors : List Word :=
  [1000000000#32, 100000000#32, 10000000#32, 1000000#32, 100000#32, 10000#32,
  1000#32, 100#32, 10#32, 1#32]

/-- The loop over the divisors; `digit` is an `int`. -/
def print_digits : List Word → Word → Bool → Option (List Byte)
  | [], _, _ => some []
  | d :: divisors, val, started => do
    let (val, digit) ← divide_loop val d
    if 0 < digit.toInt ∨ started = true then
      let rest ← print_digits divisors val true
      return (48#32 + digit).setWidth 8 :: rest
    else print_digits divisors val started

def print_uint (val : Word) : Option (List Byte) :=
  if val = 0#32 then some (uart_puts "0") else print_digits divisors val false

def hex : List Byte := uart_puts "0123456789abcdef"

def print_hex (val : Word) (digits : ℕ) : List Byte :=
  (List.range digits).reverse.map fun i => hex.getD ((val >>> (i * 4)) &&& 0xf#32).toNat 0#8

/-- The value of a digit of `parse_hex`. -/
def hex_digit (c : Byte) : Option Word :=
  if 48#8 ≤ c ∧ c ≤ 57#8 then some ((c - 48#8).zeroExtend 32)
  else if 97#8 ≤ c ∧ c ≤ 102#8 then some ((c - 97#8).zeroExtend 32 + 10#32)
  else if 65#8 ≤ c ∧ c ≤ 70#8 then some ((c - 65#8).zeroExtend 32 + 10#32)
  else none

/-- The loop of `parse_hex` over the bytes from `s` on; without a terminator it would leave them. -/
def parse_digits : List Byte → Word → Option Word
  | [], _ => none
  | c :: s, val =>
    if c = 0#8 then some val
    else
      match hex_digit c with
      | some digit => parse_digits s (val <<< 4 ||| digit)
      | none => some val

/-- The prefix is `0x` or `0X`. -/
def parse_hex (s : List Byte) : Option Word :=
  match s with
  | 48#8 :: x :: rest => if x = 120#8 ∨ x = 88#8 then parse_digits rest 0#32
      else parse_digits s 0#32
  | _ => parse_digits s 0#32

/-- The number behind `CPI:` in `cmd_perf`. -/
def print_cpi (cycles instret : Word) : Option (List Byte) := do
  let cpi_int ← udiv cycles instret
  let scaled ← udiv (cycles * 100#32) instret
  let cpi_frac ← umod scaled 100#32
  let whole ← print_uint cpi_int
  let fraction ← print_uint cpi_frac
  return whole ++ uart_puts "." ++ (if cpi_frac < 10#32 then uart_puts "0" else []) ++ fraction

/-- `cmd_perf` with the values of `mcycle` and `minstret`. -/
def cmd_perf (cycles instret : Word) : Option (List Byte) := do
  let cyclesText ← print_uint cycles
  let instretText ← print_uint instret
  let counters := uart_puts "Performance Counters:\r\n" ++ uart_puts "  mcycle:   " ++
    cyclesText ++ uart_puts "\r\n" ++
    uart_puts "  minstret: " ++ instretText ++ uart_puts "\r\n"
  if 0#32 < instret then
    let cpi ← print_cpi cycles instret
    return counters ++ uart_puts "  CPI:      " ++ cpi ++ uart_puts "\r\n"
  else return counters

/-! ## The line -/

def LINE_BUF_SIZE : ℕ := 80

def MAX_ARGS : ℕ := 8

/-- `line_buf_words` -/
abbrev LineBuf := Vector Word (LINE_BUF_SIZE / 4 + 1)

namespace LineBuf

variable (line_buf_words : LineBuf)

/-- `line_buf[index]`; the bytes of a word start with the lowest. -/
def line_buf (index : ℕ) : Option Byte :=
  line_buf_words[index >>> 2]?.map fun (word : Word) => (word >>> ((index &&& 3) <<< 3)).setWidth 8

def line_buf_write_byte (index : ℕ) (val : Byte) : Option LineBuf :=
  let word_idx := index >>> 2
  let byte_pos := (index &&& 3) <<< 3
  let mask : Word := ~~~(0xff#32 <<< byte_pos)
  line_buf_words[word_idx]?.map fun (word : Word) =>
    line_buf_words.setIfInBounds word_idx (word &&& mask ||| val.zeroExtend 32 <<< byte_pos)

end LineBuf

/-- The variables of `read_line`, with what has been sent. -/
structure LineState where
  line_buf_words : LineBuf
  len : ℕ
  sent : List Byte
deriving DecidableEq, Repr

open Loop (Outcome)

/-- What `read_line` does with a byte. -/
def read_line_round (state : LineState) (c : Byte) : Option (Outcome LineState LineState) :=
  if c = 13#8 ∨ c = 10#8 then do
    let line_buf_words ← state.line_buf_words.line_buf_write_byte state.len 0#8
    return .stop { state with line_buf_words, sent := state.sent ++ uart_puts "\r\n" }
  else if c = 0x7f#8 ∨ c = 0x08#8 then
    if 0 < state.len then
      some (.again { state with len := state.len - 1, sent := state.sent ++ [0x08#8, 0x20#8, 0x08#8] })
    else some (.again state)
  else if 0x20#8 ≤ c ∧ c < 0x7f#8 ∧ state.len < LINE_BUF_SIZE - 1 then do
    let line_buf_words ← state.line_buf_words.line_buf_write_byte state.len c
    return .again ⟨line_buf_words, state.len + 1, state.sent ++ [c]⟩
  else some (.again state)

/-- `read_line` with the bytes that come in: it returns with those it has not taken, or waits for
    the next one. -/
def read_line : List Byte → LineState → Option (Outcome LineState (LineState × List Byte))
  | [], state => some (.again state)
  | c :: input, state =>
    match read_line_round state c with
    | some (.again next) => read_line input next
    | some (.stop result) => some (.stop (result, input))
    | none => none

/-- The variables of `parse_args`; the pointers of `argv` are places in `line_buf`, and `argc` is
    their number. -/
structure ArgState where
  line_buf_words : LineBuf
  idx : ℕ
  argv : List ℕ
deriving DecidableEq, Repr

namespace ArgState

/-- `idx` goes on while the byte there is as asked for. -/
def scan (line_buf_words : LineBuf) (asked : Byte → Bool) (idx : ℕ) : Option ℕ :=
  Loop.run (fun idx => do
    let c ← line_buf_words.line_buf idx
    return if asked c then .again (idx + 1) else .stop idx) ROUNDS idx

def skip_spaces (line_buf_words : LineBuf) (idx : ℕ) : Option ℕ :=
  scan line_buf_words (fun c => c = 0x20#8) idx

def find_end (line_buf_words : LineBuf) (idx : ℕ) : Option ℕ :=
  scan line_buf_words (fun c => c ≠ 0#8 && c ≠ 0x20#8) idx

variable (state : ArgState)

/-- The word that starts behind the spaces. -/
def parse_word (idx : ℕ) : Option (Outcome ArgState ArgState) := do
  let stop ← find_end state.line_buf_words idx
  if (← state.line_buf_words.line_buf stop) ≠ 0#8 then
    let line_buf_words ← state.line_buf_words.line_buf_write_byte stop 0#8
    return .again ⟨line_buf_words, stop + 1, state.argv ++ [idx]⟩
  else return .again { state with idx := stop, argv := state.argv ++ [idx] }

def parse_round : Option (Outcome ArgState ArgState) := do
  if (← state.line_buf_words.line_buf state.idx) ≠ 0#8 ∧ state.argv.length < MAX_ARGS then
    let idx ← skip_spaces state.line_buf_words state.idx
    if (← state.line_buf_words.line_buf idx) = 0#8 then return .stop { state with idx }
    else state.parse_word idx
  else return .stop state

end ArgState

/-- `parse_args` of the line in `line_buf`. -/
def parse_args (line_buf_words : LineBuf) : Option ArgState :=
  Loop.run ArgState.parse_round ROUNDS ⟨line_buf_words, 0, []⟩

end MyCpu.Shell
