import MyCpu.Core.Csr
import MyCpu.Software.Shell

/-! # The commands of the shell

The commands of `shell.c` and its main loop, over the bytes that come in.  The CSRs
and the memory behind the shell's own variables answer as they like, and may answer
otherwise the next time. -/

namespace MyCpu.Shell

open Loop (Outcome)

/-- What the commands reach beyond the variables of the shell. -/
structure Platform (World : Type) where
  csrr : CsrAddr → World → Word × World
  load : Word → World → Word × World
  store : Word → Word → World → World

/-! ## Strings -/

/-- `str_eq` of the bytes from the two pointers on. -/
def str_eq : List Byte → List Byte → Option Bool
  | a :: as, b :: bs =>
    if a ≠ 0#8 ∧ b ≠ 0#8 then if a ≠ b then some false else str_eq as bs
    else some (a = b)
  | _, _ => none

/-- `uart_puts` of the bytes from the pointer on. -/
def puts_bytes : List Byte → Option (List Byte)
  | [] => none
  | c :: s => if c = 0#8 then some [] else (puts_bytes s).map (c :: ·)

/-- A literal with its terminator. -/
def literal (s : String) : List Byte := uart_puts s ++ [0#8]

/-- The bytes of the buffer from a pointer into it on. -/
def LineBuf.bytes_from (line_buf_words : LineBuf) (place : ℕ) : List Byte :=
  (List.range (4 * (LINE_BUF_SIZE / 4 + 1) - place)).filterMap
    fun i => line_buf_words.line_buf (place + i)

def term_clear_screen : List Byte := uart_puts "\x1b[2J\x1b[H"

/-! ## Commands -/

namespace CSRName

def mstatus : CsrAddr := CSRRegister.MSTATUS
def misa : CsrAddr := CSRRegister.MISA
def mcycle : CsrAddr := 0xb00#12
def minstret : CsrAddr := 0xb02#12
def mvendorid : CsrAddr := 0xf11#12
def marchid : CsrAddr := 0xf12#12
def mimpid : CsrAddr := 0xf13#12
def mhartid : CsrAddr := 0xf14#12

end CSRName

def UART_ENABLE : Word := 0x40000008#32

def cmd_help : List Byte :=
  uart_puts "MyCPU Shell Commands:\r\n" ++
  uart_puts "\r\n" ++
  uart_puts "  help, ?      Show this help message\r\n" ++
  uart_puts "  info         Display CPU architecture and memory map\r\n" ++
  uart_puts "  csr          Show CSR register values\r\n" ++
  uart_puts "  mem <addr>   Read memory (e.g., mem 0x20000000)\r\n" ++
  uart_puts "  memw <a> <v> Write memory (e.g., memw 0x20000020 0x01)\r\n" ++
  uart_puts "  perf         Show performance counters\r\n" ++
  uart_puts "  clear        Clear screen\r\n" ++
  uart_puts "  reboot       Software reset\r\n" ++
  uart_puts "\r\n" ++
  uart_puts "Backspace supported for line editing.\r\n"

/-- The letter of an extension, if `misa` has it. -/
def extension (misa : Word) (letter : Char) : List Byte :=
  if misa &&& (1#32 <<< (letter.toNat - 'A'.toNat)) ≠ 0#32 then
    [BitVec.ofNat 8 letter.toNat] else []

/-- What `cmd_info` sends. -/
def infoText (misa mvendorid marchid mimpid : Word) (mhartid : List Byte) : List Byte :=
  uart_puts "MyCPU RISC-V Processor\r\n" ++ uart_puts "----------------------\r\n" ++
  uart_puts "Architecture: RV32" ++ extension misa 'I' ++
    extension misa 'M' ++ extension misa 'A' ++
  extension misa 'F' ++ extension misa 'D' ++ extension misa 'C' ++ uart_puts "\r\n" ++
  uart_puts "Vendor ID:    0x" ++ print_hex mvendorid 8 ++ uart_puts "\r\n" ++
  uart_puts "Architecture: 0x" ++ print_hex marchid 8 ++ uart_puts "\r\n" ++
  uart_puts "Implement ID: 0x" ++ print_hex mimpid 8 ++ uart_puts "\r\n" ++
  uart_puts "Hart ID:      " ++ mhartid ++ uart_puts "\r\n" ++
  uart_puts "\r\nMemory Map:\r\n" ++
  uart_puts "  0x00000000  Main Memory (2MB)\r\n" ++
  uart_puts "  0x20000000  VGA Controller\r\n" ++
  uart_puts "  0x40000000  UART\r\n"

/-- What `cmd_csr` sends. -/
def csrText (mstatus misa mvendorid marchid mimpid : Word) (mhartid : List Byte) : List Byte :=
  uart_puts "CSR Registers:\r\n" ++
  uart_puts "  mstatus:   0x" ++ print_hex mstatus 8 ++ uart_puts "\r\n" ++
  uart_puts "  misa:      0x" ++ print_hex misa 8 ++ uart_puts "\r\n" ++
  uart_puts "  mvendorid: 0x" ++ print_hex mvendorid 8 ++ uart_puts "\r\n" ++
  uart_puts "  marchid:   0x" ++ print_hex marchid 8 ++ uart_puts "\r\n" ++
  uart_puts "  mimpid:    0x" ++ print_hex mimpid 8 ++ uart_puts "\r\n" ++
  uart_puts "  mhartid:   " ++ mhartid ++ uart_puts "\r\n"

section Commands

variable {World : Type} (platform : Platform World)

def cmd_info (world : World) : Option (List Byte × World) := do
  let (misa, world) := platform.csrr CSRName.misa world
  let (mvendorid, world) := platform.csrr CSRName.mvendorid world
  let (marchid, world) := platform.csrr CSRName.marchid world
  let (mimpid, world) := platform.csrr CSRName.mimpid world
  let (mhartid, world) := platform.csrr CSRName.mhartid world
  let hart ← print_uint mhartid
  return (infoText misa mvendorid marchid mimpid hart, world)

def cmd_csr (world : World) : Option (List Byte × World) := do
  let (mstatus, world) := platform.csrr CSRName.mstatus world
  let (misa, world) := platform.csrr CSRName.misa world
  let (mvendorid, world) := platform.csrr CSRName.mvendorid world
  let (marchid, world) := platform.csrr CSRName.marchid world
  let (mimpid, world) := platform.csrr CSRName.mimpid world
  let (mhartid, world) := platform.csrr CSRName.mhartid world
  let hart ← print_uint mhartid
  return (csrText mstatus misa mvendorid marchid mimpid hart, world)

/-- `addr &= ~0x3` -/
def aligned (addr : Word) : Word := addr &&& ~~~3#32

/-- The answer to `mem` with a word that has been read. -/
def memAnswer (addr value : Word) : List Byte :=
  uart_puts "0x" ++ print_hex addr 8 ++ uart_puts ": 0x" ++ print_hex value 8 ++ uart_puts "\r\n"

/-- The answer to `memw`. -/
def memwAnswer (addr val : Word) : List Byte :=
  uart_puts "Wrote 0x" ++ print_hex val 8 ++ uart_puts " to 0x" ++
    print_hex addr 8 ++ uart_puts "\r\n"

def memUsage : List Byte :=
  uart_puts "Usage: mem <address>\r\n" ++ uart_puts "Example: mem 0x20000000\r\n"

def memwUsage : List Byte :=
  uart_puts "Usage: memw <address> <value>\r\n" ++ uart_puts "Example: memw 0x20000020 0x01\r\n"

def cmd_mem (line_buf_words : LineBuf) (argv : List ℕ) (world : World) :
    Option (List Byte × World) :=
  match argv with
  | _ :: first :: _ => do
    let addr ← parse_hex (line_buf_words.bytes_from first)
    let (value, world) := platform.load (aligned addr) world
    return (memAnswer (aligned addr) value, world)
  | _ => some (memUsage, world)

def cmd_memw (line_buf_words : LineBuf) (argv : List ℕ) (world : World) :
    Option (List Byte × World) :=
  match argv with
  | _ :: first :: second :: _ => do
    let addr ← parse_hex (line_buf_words.bytes_from first)
    let val ← parse_hex (line_buf_words.bytes_from second)
    return (memwAnswer (aligned addr) val, platform.store (aligned addr) val world)
  | _ => some (memwUsage, world)

/-- `cmd_perf` with the counters as they are read. -/
def cmd_perf_read (world : World) : Option (List Byte × World) := do
  let (cycles, world) := platform.csrr CSRName.mcycle world
  let (instret, world) := platform.csrr CSRName.minstret world
  let text ← cmd_perf cycles instret
  return (text, world)

def cmd_reboot : List Byte := uart_puts "Rebooting...\r\n"

def unknownAnswer (name : List Byte) : List Byte :=
  uart_puts "Unknown command: " ++ name ++ uart_puts "\r\nType 'help' for available commands.\r\n"

/-- What is left of a command: `stop` when it jumps to the reset vector. -/
abbrev Answer (World : Type) := Outcome (List Byte × World) (List Byte × World)

/-- The chain of comparisons of `process_command`, with the bytes from `argv[0]` on. -/
def dispatch (line_buf_words : LineBuf) (argv : List ℕ) (name : List Byte) (world : World) :
    Option (Answer World) := do
  if (← str_eq name (literal "help")) || (← str_eq name (literal "?")) then
    return .again (cmd_help, world)
  else if ← str_eq name (literal "info") then return .again (← cmd_info platform world)
  else if ← str_eq name (literal "csr") then return .again (← cmd_csr platform world)
  else if ← str_eq name (literal "mem") then return .again (← cmd_mem platform line_buf_words argv world)
  else if ← str_eq name (literal "memw") then return .again (← cmd_memw platform line_buf_words argv world)
  else if ← str_eq name (literal "perf") then return .again (← cmd_perf_read platform world)
  else if (← str_eq name (literal "clear")) || (← str_eq name (literal "cls")) then
    return .again (term_clear_screen, world)
  else if (← str_eq name (literal "reboot")) || (← str_eq name (literal "reset")) then
    return .stop (cmd_reboot, world)
  else
    return .again (unknownAnswer (← puts_bytes name), world)

/-- `process_command` of the line in `line_buf`, with the buffer that it leaves. -/
def process_command (line_buf_words : LineBuf) (world : World) : Option (LineBuf × Answer World) :=
  do
    let args ← parse_args line_buf_words
    match args.argv with
    | [] => return (args.line_buf_words, .again ([], world))
    | first :: _ =>
      let answer ← dispatch platform args.line_buf_words args.argv
        (args.line_buf_words.bytes_from first) world
      return (args.line_buf_words, answer)

/-! ## The main loop -/

structure MainState (World : Type) where
  line_buf_words : LineBuf
  world : World
  input : List Byte
  sent : List Byte

/-- Where `main` waits for a byte, or where it has left for the reset vector. -/
structure Ending (World : Type) where
  world : World
  sent : List Byte
  rebooted : Bool

def banner : List Byte := uart_puts "\r\nMyCPU Shell - Type 'help' for commands\r\n"

def prompt : List Byte := uart_puts "MyCPU> "

/-- A round of the loop of `main`. -/
def main_round (state : MainState World) : Option (Outcome (MainState World) (Ending World)) := do
  match ← read_line state.input ⟨state.line_buf_words, 0, state.sent ++ prompt⟩ with
  | .again waiting => return .stop ⟨state.world, waiting.sent, false⟩
  | .stop (line, input) =>
    if 0 < line.len then
      match ← process_command platform line.line_buf_words state.world with
      | (line_buf_words, .again (text, world)) =>
        return .again ⟨line_buf_words, world, input, line.sent ++ text⟩
      | (_, .stop (text, world)) => return .stop ⟨world, line.sent ++ text, true⟩
    else return .again ⟨line.line_buf_words, state.world, input, line.sent⟩

/-- `main`, until it has taken all that comes in. -/
def main (world : World) (input : List Byte) : Option (Ending World) :=
  Loop.run (main_round platform) (input.length + 1)
    ⟨.replicate _ 0#32, platform.store UART_ENABLE 1#32 world, input, banner⟩

end Commands

end MyCpu.Shell
