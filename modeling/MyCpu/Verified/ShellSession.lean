import MyCpu.Software.ShellCommands
import MyCpu.Verified.ShellPerf
import MyCpu.Verified.ShellWords

/-! # Shell sessions

The shell as its user sees it takes one key after the other: a key edits the line, or
ends it and has the command run that its words name.  The loops of `shell.c` over the
buffer, with their terminators and comparisons, are this shell. -/

namespace MyCpu.Shell

open Loop (Outcome)
open Numeral (value)

/-! ## Command lines -/

/-- The words between the spaces. -/
def words (text : List Byte) : List (List Byte) :=
  (text.splitOnP fun c => c = 0x20#8).filter fun word => word ≠ []

/-- The values of the hexadecimal digits in front. -/
def hexDigits : List Byte → List ℕ
  | [] => []
  | c :: rest =>
    match hex_digit c with
    | some digit => digit.toNat :: hexDigits rest
    | none => []

/-- What follows `0x` or `0X`. -/
def unprefixed : List Byte → List Byte
  | 48#8 :: x :: rest => if x = 120#8 ∨ x = 88#8 then rest else 48#8 :: x :: rest
  | word => word

/-- The number that the digits in front spell, in 32 bits. -/
def hexNumber (word : List Byte) : Word := BitVec.ofNat 32 (value 16 (hexDigits (unprefixed word)))

inductive Command where
  | help
  | info
  | csr
  | mem (addr : Option Word)
  | memw (access : Option (Word × Word))
  | perf
  | clear
  | reboot
  | unknown (name : List Byte)

namespace Command

def ofName (name : List Byte) (args : List (List Byte)) : Command :=
  if name = uart_puts "help" ∨ name = uart_puts "?" then .help
  else if name = uart_puts "info" then .info
  else if name = uart_puts "csr" then .csr
  else if name = uart_puts "mem" then .mem (args[0]?.map hexNumber)
  else if name = uart_puts "memw" then
    .memw (args[0]?.bind fun addr => args[1]?.map fun val => (hexNumber addr, hexNumber val))
  else if name = uart_puts "perf" then .perf
  else if name = uart_puts "clear" ∨ name = uart_puts "cls" then .clear
  else if name = uart_puts "reboot" ∨ name = uart_puts "reset" then .reboot
  else .unknown name

/-- The command that a line asks for, if it has a word; words behind the eighth are dropped. -/
def ofLine (text : List Byte) : Option Command :=
  match (words text).take MAX_ARGS with
  | [] => none
  | name :: args => some (ofName name args)

def reboots : Command → Bool
  | .reboot => true
  | _ => false

/-- The text of a number in decimal. -/
def decimalText (val : Word) : List Byte := (numeral val.toNat).map decimal

/-- The counters, and their quotient as `cmd_perf` computes it if there is one. -/
def perfText (cycles instret : Word) : List Byte :=
  counters cycles.toNat instret.toNat ++
    if instret = 0#32 then []
    else uart_puts "  CPI:      " ++
      ((numeral (cycles.toNat / instret.toNat)).map decimal ++ uart_puts "." ++
        decimals (100 * cycles.toNat % 4294967296 / instret.toNat % 100)) ++ uart_puts "\r\n"

variable {World : Type} (platform : Platform World)

/-- The answer to a command, and what it does to the rest of the machine. -/
def run (command : Command) (world : World) : List Byte × World :=
  match command with
  | .help => (cmd_help, world)
  | .info =>
    let (misa, world) := platform.csrr CSRName.misa world
    let (mvendorid, world) := platform.csrr CSRName.mvendorid world
    let (marchid, world) := platform.csrr CSRName.marchid world
    let (mimpid, world) := platform.csrr CSRName.mimpid world
    let (mhartid, world) := platform.csrr CSRName.mhartid world
    (infoText misa mvendorid marchid mimpid (decimalText mhartid), world)
  | .csr =>
    let (mstatus, world) := platform.csrr CSRName.mstatus world
    let (misa, world) := platform.csrr CSRName.misa world
    let (mvendorid, world) := platform.csrr CSRName.mvendorid world
    let (marchid, world) := platform.csrr CSRName.marchid world
    let (mimpid, world) := platform.csrr CSRName.mimpid world
    let (mhartid, world) := platform.csrr CSRName.mhartid world
    (csrText mstatus misa mvendorid marchid mimpid (decimalText mhartid), world)
  | .mem none => (memUsage, world)
  | .mem (some addr) =>
    let (value, world) := platform.load (aligned addr) world
    (memAnswer (aligned addr) value, world)
  | .memw none => (memwUsage, world)
  | .memw (some (addr, val)) =>
    (memwAnswer (aligned addr) val, platform.store (aligned addr) val world)
  | .perf =>
    let (cycles, world) := platform.csrr CSRName.mcycle world
    let (instret, world) := platform.csrr CSRName.minstret world
    (perfText cycles instret, world)
  | .clear => (term_clear_screen, world)
  | .reboot => (cmd_reboot, world)
  | .unknown name => (unknownAnswer name, world)

end Command

/-! ## Sessions -/

/-- What a byte of the line sends back: a deleted byte is overwritten on the screen. -/
def echo (text : List Byte) (c : Byte) : List Byte :=
  if c = 0x7f#8 ∨ c = 0x08#8 then if text = [] then [] else [0x08#8, 0x20#8, 0x08#8]
  else if 0x20#8 ≤ c ∧ c < 0x7f#8 ∧ text.length < LINE_BUF_SIZE - 1 then [c]
  else []

/-- The line that is being typed, the rest of the machine, and what has been sent. -/
structure Session (World : Type) where
  text : List Byte
  world : World
  sent : List Byte
  rebooted : Bool

namespace Session

variable {World : Type} (platform : Platform World)

def start (world : World) : Session World :=
  ⟨[], platform.store UART_ENABLE 1#32 world, banner ++ prompt, false⟩

/-- The end of the line. -/
def enter (session : Session World) : Session World :=
  let sent := session.sent ++ uart_puts "\r\n"
  match Command.ofLine session.text with
  | none => ⟨[], session.world, sent ++ prompt, false⟩
  | some command =>
    let (text, world) := command.run platform session.world
    if command.reboots then ⟨[], world, sent ++ text, true⟩
      else ⟨[], world, sent ++ text ++ prompt, false⟩

def key (session : Session World) (c : Byte) : Session World :=
  if session.rebooted then session
  else if EndsLine c then session.enter platform
  else { session with text := edit session.text c, sent := session.sent ++ echo session.text c }

/-- The session after the keys. -/
def keys (session : Session World) (input : List Byte) : Session World :=
  input.foldl (key platform) session

end Session

/-! ## Strings in the buffer -/

section Strings

variable {s t : List Byte}

theorem str_eq_eq (nonzero : ∀ c ∈ s, c ≠ 0#8) (nonzero' : ∀ c ∈ t, c ≠ 0#8)
    (rest rest' : List Byte) :
    str_eq (s ++ 0#8 :: rest) (t ++ 0#8 :: rest') = some (decide (s = t)) := by
  induction s generalizing t with
  | nil =>
    cases t with
    | nil => rfl
    | cons b bs =>
      have some := nonzero' b List.mem_cons_self
      simp [str_eq, some.symm]
  | cons a as inductionHypothesis =>
    have some := nonzero a List.mem_cons_self
    cases t with
    | nil => simp [str_eq, some]
    | cons b bs =>
      have some' := nonzero' b List.mem_cons_self
      have rest :=
        @inductionHypothesis bs (fun c member => nonzero c (List.mem_cons_of_mem _ member))
          fun c member => nonzero' c (List.mem_cons_of_mem _ member)
      rw [List.cons_append, List.cons_append, str_eq, if_pos ⟨some, some'⟩, rest]
      by_cases same : a = b
      · simp [same]
      · simp [same]

theorem puts_bytes_eq (nonzero : ∀ c ∈ s, c ≠ 0#8) (rest : List Byte) :
    puts_bytes (s ++ 0#8 :: rest) = some s := by
  induction s with
  | nil => rfl
  | cons c s inductionHypothesis =>
    rw [List.cons_append, puts_bytes, if_neg (nonzero c List.mem_cons_self),
      inductionHypothesis fun c member =>
        nonzero c (List.mem_cons_of_mem _ member), Option.map_some]

theorem hex_digit_small {c : Byte} {digit : Word} (found : hex_digit c = some digit) :
    digit.toNat < 16 := by
  rw [hex_digit] at found
  split_ifs at found with decimal lower upper
  all_goals
    obtain rfl := Option.some.inj found
    simp only [BitVec.le_def, BitVec.toNat_ofNat, BitVec.toNat_add, BitVec.zeroExtend_eq_setWidth,
      BitVec.toNat_setWidth, BitVec.toNat_sub] at *
    omega

theorem parse_word_digits (nonzero : ∀ c ∈ s, c ≠ 0#8) (rest : List Byte) (n : ℕ) :
    parse_digits (s ++ 0#8 :: rest) (BitVec.ofNat 32 n) =
      some (BitVec.ofNat 32 ((hexDigits s).foldl (fun value digit => 16 * value + digit) n)) := by
  induction s generalizing n with
  | nil => rfl
  | cons c s inductionHypothesis =>
    have more := inductionHypothesis fun c member => nonzero c (List.mem_cons_of_mem _ member)
    rw [List.cons_append, parse_digits, if_neg (nonzero c List.mem_cons_self), hexDigits]
    cases found : hex_digit c with
    | none => rfl
    | some digit =>
      have shifted := shifted_digit n (hex_digit_small found)
      rw [BitVec.ofNat_toNat, BitVec.setWidth_eq] at shifted
      simp only [shifted, more, List.foldl_cons]

theorem parse_hex_word (nonzero : ∀ c ∈ s, c ≠ 0#8) (rest : List Byte) :
    parse_hex (s ++ 0#8 :: rest) = some (hexNumber s) := by
  have plain := parse_word_digits nonzero rest 0
  rw [hexNumber, value]
  unfold unprefixed
  split
  · next c x others =>
    rw [List.cons_append, List.cons_append, parse_hex]
    by_cases marked : x = 120#8 ∨ x = 88#8
    · rw [if_pos marked, if_pos marked]
      exact parse_word_digits
        (fun c member => nonzero c (List.mem_cons_of_mem _ (List.mem_cons_of_mem _ member))) rest 0
    · rw [if_neg marked, if_neg marked]
      exact plain
  · next unmarked =>
    rw [← plain]
    cases s with
    | nil => rfl
    | cons c s =>
      cases s with
      | nil =>
        rw [List.singleton_append]
        unfold parse_hex
        split
        · next same =>
          cases same
          exact if_neg (by decide)
        · rfl
      | cons x s =>
        unfold parse_hex
        split
        · next same =>
          obtain ⟨rfl, rfl, _⟩ := List.cons.inj same |>.imp_right List.cons.inj
          exact absurd rfl (unmarked _ _)
        · rfl

theorem filterMap_getElem? (s : List Byte) :
    (List.range s.length).filterMap (fun i => s[i]?) = s := by
  induction s with
  | nil => rfl
  | cons c s inductionHypothesis =>
    rw [List.length_cons, List.range_succ_eq_map, List.filterMap_cons, List.filterMap_map]
    exact congrArg (c :: ·) inductionHypothesis

theorem bytes_from_string {line_buf_words : LineBuf} {start : ℕ}
    (holds : line_buf_words.HoldsString start s) :
    ∃ rest, line_buf_words.bytes_from start = s ++ 0#8 :: rest := by
  have inside : start + s.length < LineBuf.SIZE := by
    refine Nat.lt_of_not_le fun outside => ?_
    have terminator := holds.terminator
    rw [LineBuf.line_buf_eq, Vector.getElem?_eq_none] at terminator
    · cases terminator
    · simp only [LineBuf.SIZE, LINE_BUF_SIZE] at outside ⊢
      omega
  obtain ⟨behind, split⟩ : ∃ behind, 4 * (LINE_BUF_SIZE / 4 + 1) - start =
    s.length + (1 + behind) := by
    refine ⟨LineBuf.SIZE - start - s.length - 1, ?_⟩
    simp only [LineBuf.SIZE, LINE_BUF_SIZE] at inside ⊢
    omega
  have bytes : (List.range s.length).filterMap (fun i => line_buf_words.line_buf (start + i)) =
      s := by
    refine (List.filterMap_congr fun i member => ?_).trans (filterMap_getElem? s)
    exact holds.bytes i (List.mem_range.mp member)
  have last : (List.range 1).filterMap
      ((fun i => line_buf_words.line_buf (start + i)) ∘ (s.length + ·)) = [0#8] := by
    rw [List.range_one, List.filterMap_cons, Function.comp_apply, Nat.add_zero, holds.terminator]
    rfl
  rw [LineBuf.bytes_from, split, List.range_add, List.filterMap_append, bytes,
    List.filterMap_map, List.range_add, List.filterMap_append, last]
  exact ⟨_, rfl⟩

end Strings

/-! ## Words of the line -/

section Words

variable {text word : List Byte}

/-- Behind a space everything starts anew. -/
theorem startsWord_behind (before : List Byte) (i : ℕ) :
    startsWord (before ++ 0x20#8 :: text) (before.length + 1 + i) = startsWord text i := by
  have place : ∀ k, (before ++ 0x20#8 :: text)[before.length + 1 + k]? = text[k]? := by
    intro k
    rw [Nat.add_assoc, Nat.add_comm 1, List.getElem?_append_right (Nat.le_add_right _ _),
      Nat.add_sub_cancel_left, List.getElem?_cons_succ]
  rw [startsWord, startsWord, place]
  cases i with
  | zero =>
    simp
  | succ i =>
    have earlier : before.length + 1 + (i + 1) - 1 = before.length + 1 + i := by omega
    rw [earlier, place]
    simp

theorem wordAt_behind (before : List Byte) (i : ℕ) :
    wordAt (before ++ 0x20#8 :: text) (before.length + 1 + i) = wordAt text i := by
  have dropped : (before ++ 0x20#8 :: text).drop (before.length + 1 + i) = text.drop i := by
    rw [← List.drop_drop, ← List.drop_drop, List.drop_left]
    rfl
  rw [wordAt, wordAt, dropped]

/-- What is in front of the first space is one word, or nothing. -/
theorem first_word (unspaced : ∀ c ∈ word, c ≠ 0x20#8) {tail : List Byte}
    (stops : tail.takeWhile (fun c => c ≠ 0x20#8) = []) :
    ((List.range word.length).filter (startsWord (word ++ tail))).map (wordAt (word ++ tail)) =
      [word].filter fun word => word ≠ [] := by
  have here : wordAt (word ++ tail) 0 = word := by
    rw [wordAt, List.drop_zero, List.takeWhile_append_of_pos
      fun c member => decide_eq_true (unspaced c member), stops, List.append_nil]
  cases word with
  | nil => rfl
  | cons c word =>
    have starts : startsWord (c :: word ++ tail) 0 = true := by
      rw [List.cons_append, startsWord_eq List.getElem?_cons_zero]
      simp [unspaced c List.mem_cons_self]
    have inside : ∀ i, 0 ≤ i → i < (c :: word).length → i ≠ 0 →
        startsWord (c :: word ++ tail) i = false := by
      intro i _ high other
      refine @startsWord_inside _ 0 i (Nat.pos_of_ne_zero other) ?_
      rwa [wordEnd, here, Nat.zero_add]
    have some : 0 < (c :: word).length := Nat.zero_lt_succ _
    rw [filter_range_single (Nat.le_refl 0) some starts inside, List.range_zero, List.filter_nil,
      List.nil_append, List.map_singleton, here]
    rfl

theorem words_found (text : List Byte) : (wordStarts text).map (wordAt text) = words text := by
  induction size : text.length using Nat.strong_induction_on generalizing text with
  | h n inductionHypothesis =>
    by_cases spaced : 0x20#8 ∈ text
    · obtain ⟨before, rest, rfl, unspaced⟩ := List.eq_append_cons_of_mem spaced
      have unspaced : ∀ c ∈ before, c ≠ 0x20#8 := fun c member same => unspaced (same ▸ member)
      have behind := inductionHypothesis rest.length (by simp at size; omega) rest rfl
      have space : startsWord (before ++ 0x20#8 :: rest) before.length = false :=
        startsWord_space (List.getElem?_append_right (Nat.le_refl _) |>.trans
          (by rw [Nat.sub_self]; rfl))
      have length : (before ++ 0x20#8 :: rest).length = before.length + 1 + rest.length := by
        rw [List.length_append, List.length_cons]
        omega
      have split : words (before ++ 0x20#8 :: rest) =
          ([before].filter fun word => word ≠ []) ++ words rest := by
        rw [words, List.splitOnP_append_cons_of_forall_mem
          (fun c member => by simpa using unspaced c member) 0x20#8
          (by decide), ← List.singleton_append, List.filter_append, words]
      have first := @first_word before unspaced (0x20#8 :: rest) rfl
      rw [split, ← first, ← behind, wordStarts, wordStarts, length, List.range_add,
        List.filter_append, List.map_append, List.range_succ, List.filter_append,
        List.filter_cons_of_neg (by simp [space]), List.filter_nil, List.append_nil,
        List.filter_map, List.map_map]
      refine congrArg _ ?_
      have starts : startsWord (before ++ 0x20#8 :: rest) ∘
          (before.length + 1 + ·) = startsWord rest :=
        funext fun i => startsWord_behind before i
      rw [starts]
      exact List.map_congr_left fun i _ => wordAt_behind before i
    · have unspaced : ∀ c ∈ text, c ≠ 0x20#8 := fun c member same => spaced (same ▸ member)
      have first := @first_word text unspaced [] rfl
      rw [List.append_nil] at first
      rw [wordStarts, first, words, List.splitOnP_eq_singleton
        fun c member => by simpa using unspaced c member]

end Words

/-! ## Commands -/

section Commands

variable {World : Type} (platform : Platform World)

/-- The word stands in the buffer. -/
structure Argument (line_buf_words : LineBuf) (place : ℕ) (word : List Byte) : Prop where
  string : line_buf_words.HoldsString place word
  nonzero : ∀ c ∈ word, c ≠ 0#8

variable {line_buf_words : LineBuf} {place : ℕ} {places : List ℕ} {word : List Byte}
    {args : List (List Byte)}

theorem Argument.number (argument : Argument line_buf_words place word) :
    parse_hex (line_buf_words.bytes_from place) = some (hexNumber word) := by
  obtain ⟨rest, bytes⟩ := bytes_from_string argument.string
  rw [bytes, parse_hex_word argument.nonzero]

theorem Argument.equals (argument : Argument line_buf_words place word) {s : String}
    (nonzero : ∀ c ∈ uart_puts s, c ≠ 0#8) :
    str_eq (line_buf_words.bytes_from place) (literal s) = some (decide (word = uart_puts s)) := by
  obtain ⟨rest, bytes⟩ := bytes_from_string argument.string
  rw [bytes, literal]
  exact str_eq_eq argument.nonzero nonzero rest []

theorem Argument.text (argument : Argument line_buf_words place word) :
    puts_bytes (line_buf_words.bytes_from place) = some word := by
  obtain ⟨rest, bytes⟩ := bytes_from_string argument.string
  rw [bytes, puts_bytes_eq argument.nonzero]

theorem cmd_info_eq (world : World) :
    cmd_info platform world = some (Command.info.run platform world) := by
  simp only [cmd_info, print_uint_eq, Option.bind_eq_bind, Option.bind_some, Option.pure_def]
  rfl

theorem cmd_csr_eq (world : World) :
    cmd_csr platform world = some (Command.csr.run platform world) := by
  simp only [cmd_csr, print_uint_eq, Option.bind_eq_bind, Option.bind_some, Option.pure_def]
  rfl

theorem cmd_mem_eq (arguments : List.Forall₂ (Argument line_buf_words) places args)
    (world : World) :
    cmd_mem platform line_buf_words (place :: places) world =
      some ((Command.mem (args[0]?.map hexNumber)).run platform world) := by
  cases arguments with
  | nil => rfl
  | cons first others =>
    rw [cmd_mem, first.number]
    rfl

theorem cmd_memw_eq (arguments : List.Forall₂ (Argument line_buf_words) places args)
    (world : World) :
    cmd_memw platform line_buf_words (place :: places) world =
      some ((Command.memw
        (args[0]?.bind fun addr => args[1]?.map fun val => (hexNumber addr, hexNumber val))).run
        platform world) := by
  cases arguments with
  | nil => rfl
  | cons first others =>
    cases others with
    | nil => rfl
    | cons second others =>
      rw [cmd_memw, first.number, second.number]
      rfl

theorem cmd_perf_read_eq (world : World) :
    cmd_perf_read platform world = some (Command.perf.run platform world) := by
  have text : ∀ cycles instret : Word, cmd_perf cycles instret =
      some (Command.perfText cycles instret) := by
    intro cycles instret
    by_cases zero : instret = 0#32
    · rw [cmd_perf, print_uint_eq, print_uint_eq, Command.perfText, if_pos zero,
        zero, List.append_nil]
      rfl
    · rw [cmd_perf_eq zero (print_cpi_eq zero), Command.perfText, if_neg zero]
      simp only [List.append_assoc]
  simp only [cmd_perf_read, text, Option.bind_eq_bind, Option.bind_some, Option.pure_def]
  rfl

/-- What `process_command` makes of a command. -/
def Command.answer (command : Command) (world : World) : Answer World :=
  if command.reboots then .stop (command.run platform world)
    else .again (command.run platform world)

/-- What `process_command` makes of a line. -/
def Command.answerLine (text : List Byte) (world : World) : Answer World :=
  match Command.ofLine text with
  | none => .again ([], world)
  | some command => command.answer platform world

theorem dispatch_eq (argument : Argument line_buf_words place word)
    (arguments : List.Forall₂ (Argument line_buf_words) places args) (world : World) :
    dispatch platform line_buf_words (place :: places) (line_buf_words.bytes_from place) world =
      some ((Command.ofName word args).answer platform world) := by
  rw [dispatch, argument.equals (s := "help") (by decide), argument.equals (s := "?") (by decide),
    argument.equals (s := "info") (by decide), argument.equals (s := "csr") (by decide),
    argument.equals (s := "mem") (by decide), argument.equals (s := "memw") (by decide),
    argument.equals (s := "perf") (by decide), argument.equals (s := "clear") (by decide),
    argument.equals (s := "cls") (by decide), argument.equals (s := "reboot") (by decide),
    argument.equals (s := "reset") (by decide), argument.text, cmd_info_eq, cmd_csr_eq,
    cmd_mem_eq platform arguments, cmd_memw_eq platform arguments, cmd_perf_read_eq, Command.ofName]
  simp only [Option.bind_eq_bind, Option.bind_some, Option.pure_def,
    Bool.or_eq_true, decide_eq_true_eq]
  split_ifs
  all_goals rfl

theorem process_command_eq {text : List Byte} (line : Line line_buf_words text) (world : World) :
    ∃ left, process_command platform line_buf_words world =
      some (left, Command.answerLine platform text world) := by
  obtain ⟨result, parsed, argv, terminated⟩ := parse_args_parsed line
  have arguments : List.Forall₂ (Argument result.line_buf_words) result.argv
      ((words text).take MAX_ARGS) := by
    rw [← words_found, ← List.map_take, ← argv, List.forall₂_map_right_iff, List.forall₂_same]
    refine fun start member => ⟨Parsed.string line ⟨argv, terminated⟩ member, fun c inside => ?_⟩
    exact line.nonzero c (List.mem_of_mem_drop ((List.takeWhile_sublist _).subset inside))
  obtain ⟨after, idx, places⟩ := result
  rw [process_command, parsed, Command.answerLine, Command.ofLine]
  simp only [Option.bind_eq_bind, Option.bind_some, Option.pure_def] at arguments ⊢
  generalize (words text).take MAX_ARGS = found at arguments
  cases arguments with
  | nil => exact ⟨_, rfl⟩
  | cons first others =>
    refine ⟨after, ?_⟩
    simp only [dispatch_eq platform first others, Option.bind_some]

end Commands

/-! ## The main loop -/

section Loops

variable {World : Type} (platform : Platform World) {state : LineState}
    {session : Session World} {c : Byte}
  {input : List Byte}

/-- Between two keys the buffer starts with the line, and the shell has sent the same. -/
structure Typing (state : LineState) (session : Session World) : Prop where
  editing : Editing state session.text
  nonzero : ∀ c ∈ session.text, c ≠ 0#8
  sent : state.sent = session.sent
  running : session.rebooted = false

theorem round_echo {next : LineState} {text : List Byte} (editing : Editing state text)
    (other : ¬ EndsLine c)
    (round : read_line_round state c = some (.again next)) :
    next.sent = state.sent ++ echo text c := by
  rw [EndsLine] at other
  rw [read_line_round, if_neg other] at round
  rw [echo]
  by_cases removes : c = 0x7f#8 ∨ c = 0x08#8
  · rw [if_pos removes] at round ⊢
    have empty : text = [] ↔ ¬ 0 < state.len := by
      rw [editing.len, List.length_pos_iff, not_not]
    by_cases some : 0 < state.len
    · rw [if_pos some] at round
      rw [if_neg fun none => empty.mp none some]
      cases round
      rfl
    · rw [if_neg some] at round
      rw [if_pos (empty.mpr some), List.append_nil]
      cases round
      rfl
  · rw [if_neg removes] at round ⊢
    rw [editing.len] at round
    by_cases typed : 0x20#8 ≤ c ∧ c < 0x7f#8 ∧ text.length < LINE_BUF_SIZE - 1
    · rw [if_pos typed] at round ⊢
      obtain ⟨written, _, stored⟩ := Option.bind_eq_some_iff.mp round
      cases stored
      rfl
    · rw [if_neg typed] at round ⊢
      rw [List.append_nil]
      cases round
      rfl

theorem round_newline {result : LineState} (ends : EndsLine c)
    (round : read_line_round state c = some (.stop result)) : result.sent = state.sent ++ uart_puts "\r\n" := by
  rw [EndsLine] at ends
  rw [read_line_round, if_pos ends] at round
  obtain ⟨written, _, stored⟩ := Option.bind_eq_some_iff.mp round
  cases stored
  rfl

/-- A key that does not end the line. -/
theorem Typing.key (typing : Typing state session) (other : ¬ EndsLine c) :
    ∃ next, read_line_round state c = some (.again next) ∧ Typing next (session.key platform c) ∧
      (session.key platform c).world = session.world := by
  obtain ⟨next, round, editing⟩ := round_edits typing.editing other
  have after : session.key platform c =
      { session with text := edit session.text c, sent := session.sent ++ echo session.text c } := by
    rw [Session.key, typing.running, if_neg Bool.false_ne_true, if_neg other]
  rw [after]
  refine ⟨next, round, ⟨editing, edit_nonzero typing.nonzero c, ?_, typing.running⟩, rfl⟩
  rw [round_echo typing.editing other round, typing.sent]

theorem Typing.keys (typing : Typing state session)
    (plain : ∀ c ∈ input, ¬ EndsLine c) (tail : List Byte) :
    ∃ next, read_line (input ++ tail) state = read_line tail next ∧
      Typing next (session.keys platform input) ∧
      (session.keys platform input).world = session.world := by
  induction input generalizing state session with
  | nil => exact ⟨state, rfl, typing, rfl⟩
  | cons c input inductionHypothesis =>
    obtain ⟨next, round, typing', world⟩ := typing.key platform (plain c List.mem_cons_self)
    obtain ⟨last, read, typing', world'⟩ :=
      inductionHypothesis typing' fun other member => plain other (List.mem_cons_of_mem _ member)
    refine ⟨last, ?_, typing', world'.trans world⟩
    rw [List.cons_append, read_line, round]
    exact read

/-- The key that ends the line. -/
theorem Typing.ends (typing : Typing state session) (ends : EndsLine c) (rest : List Byte) :
    ∃ result, read_line (c :: rest) state = some (.stop (result, rest)) ∧
      result.len = session.text.length ∧
      Line result.line_buf_words session.text ∧ result.sent = session.sent ++ uart_puts "\r\n" := by
  obtain ⟨result, round, len, string⟩ := round_ends typing.editing ends
  refine ⟨result, by rw [read_line, round], len, ⟨string, typing.nonzero⟩, ?_⟩
  rw [round_newline ends round, typing.sent]

/-- What is left where the session ends. -/
def Session.ending (session : Session World) : Ending World :=
  ⟨session.world, session.sent, session.rebooted⟩

/-- The session at the prompt. -/
def MainState.prompted (state : MainState World) : Session World :=
  ⟨[], state.world, state.sent ++ prompt, false⟩

theorem Session.keys_rebooted (rebooted : session.rebooted = true) (input : List Byte) :
    session.keys platform input = session := by
  induction input with
  | nil => rfl
  | cons c input inductionHypothesis =>
    rw [Session.keys, List.foldl_cons, Session.key, if_pos rebooted]
    exact inductionHypothesis

theorem Session.keys_append (session : Session World) (input tail : List Byte) :
    session.keys platform (input ++ tail) = (session.keys platform input).keys platform tail :=
      List.foldl_append

theorem Session.keys_ends (running : session.rebooted = false)
    (ends : EndsLine c) (rest : List Byte) :
    session.keys platform (c :: rest) = (session.enter platform).keys platform rest := by
  rw [Session.keys, List.foldl_cons, Session.key, running, if_neg Bool.false_ne_true,
    if_pos ends, Session.keys]

theorem typing_prompted (state : MainState World) :
    Typing ⟨state.line_buf_words, 0, state.sent ++ prompt⟩ state.prompted :=
  ⟨.start _ _, fun _ none => (by cases none), rfl, rfl⟩

/-- Where `main` goes from a line: on to the next round, or to the reset vector. -/
def MainState.after (line_buf_words : LineBuf) (input sent : List Byte) :
    Answer World → Outcome (MainState World) (Ending World)
  | .again (text, world) => .again ⟨line_buf_words, world, input, sent ++ text⟩
  | .stop (text, world) => .stop ⟨world, sent ++ text, true⟩

/-- The line goes to `process_command` unless it is empty, which asks for nothing either. -/
theorem main_round_line {state : MainState World} {line : LineState} {rest text : List Byte}
    (read : read_line state.input ⟨state.line_buf_words, 0, state.sent ++ prompt⟩ =
      some (.stop (line, rest)))
    (len : line.len = text.length) (string : Line line.line_buf_words text) :
    ∃ left, main_round platform state =
      some (MainState.after left rest line.sent
        (Command.answerLine platform text state.world)) := by
  rw [main_round, read]
  by_cases some : 0 < line.len
  · obtain ⟨left, processed⟩ := process_command_eq platform string state.world
    refine ⟨left, ?_⟩
    simp only [Option.bind_eq_bind, Option.bind_some, if_pos some, processed]
    cases Command.answerLine platform text state.world with
    | again reply => rfl
    | stop reply => rfl
  · have empty : text = [] := List.eq_nil_of_length_eq_zero (by omega)
    have nothing : Command.answerLine platform text state.world = .again ([], state.world) := by
      rw [empty]
      rfl
    refine ⟨line.line_buf_words, ?_⟩
    simp only [Option.bind_eq_bind, Option.bind_some, if_neg some, Option.pure_def,
      nothing, MainState.after, List.append_nil]

/-- A round that goes on is at the prompt of the session behind the line. -/
theorem enter_again {left : LineBuf} {rest : List Byte} {next : MainState World}
    (again : MainState.after left rest (session.sent ++ uart_puts "\r\n")
      (Command.answerLine platform session.text session.world) = .again next) :
    session.enter platform = next.prompted ∧ next.input = rest := by
  rw [Command.answerLine] at again
  rw [Session.enter]
  cases asked : Command.ofLine session.text with
  | none =>
    rw [asked] at again
    cases again
    simp only [MainState.prompted, List.append_nil, and_self]
  | some command =>
    simp only [asked, Command.answer] at again ⊢
    cases reboots : command.reboots with
    | true =>
      rw [reboots, if_pos rfl] at again
      cases again
    | false =>
      rw [reboots, if_neg Bool.false_ne_true] at again
      cases again
      rw [if_neg Bool.false_ne_true]
      exact ⟨rfl, rfl⟩

theorem enter_stop {left : LineBuf} {rest : List Byte} {ending : Ending World}
    (stop : MainState.after left rest (session.sent ++ uart_puts "\r\n")
      (Command.answerLine platform session.text session.world) = .stop ending) :
    (session.enter platform).ending = ending ∧ (session.enter platform).rebooted = true := by
  rw [Command.answerLine] at stop
  rw [Session.enter]
  cases asked : Command.ofLine session.text with
  | none =>
    rw [asked] at stop
    cases stop
  | some command =>
    simp only [asked, Command.answer] at stop ⊢
    cases reboots : command.reboots with
    | true =>
      rw [reboots, if_pos rfl] at stop
      cases stop
      rw [if_pos rfl]
      exact ⟨rfl, rfl⟩
    | false =>
      rw [reboots, if_neg Bool.false_ne_true] at stop
      cases stop

/-- A round of `main` takes the session over a line, or to its end. -/
theorem main_round_keys (state : MainState World) :
    (∃ next, main_round platform state = some (.again next) ∧
        state.prompted.keys platform state.input = next.prompted.keys platform next.input ∧
        next.input.length < state.input.length) ∨
      main_round platform state = some
        (.stop (state.prompted.keys platform state.input).ending) := by
  cases found : state.input.find? fun c => EndsLine c with
  | some c =>
    obtain ⟨ends, bytes, rest, input, before⟩ := List.find?_eq_some_iff_append.mp found
    have ends : EndsLine c := of_decide_eq_true ends
    have plain : ∀ c ∈ bytes, ¬ EndsLine c := fun c member => by simpa using before c member
    obtain ⟨next, read, typing, world⟩ := (typing_prompted state).keys platform plain (c :: rest)
    obtain ⟨line, read', len, string, sent⟩ := typing.ends ends rest
    rw [read', ← input] at read
    obtain ⟨left, round⟩ := main_round_line platform read len string
    have entered : state.prompted.keys platform state.input =
        ((state.prompted.keys platform bytes).enter platform).keys platform rest := by
      rw [input, Session.keys_append, Session.keys_ends platform typing.running ends]
    rw [entered, round, sent]
    -- up to the key that ends the line the session only edits, and the command runs on its world
    have world : state.world = (state.prompted.keys platform bytes).world := world.symm
    rw [world]
    cases reached : MainState.after left rest
      ((state.prompted.keys platform bytes).sent ++ uart_puts "\r\n")
        (Command.answerLine platform (state.prompted.keys platform bytes).text
          (state.prompted.keys platform bytes).world) with
    | again next =>
      obtain ⟨prompted, left⟩ := enter_again platform reached
      refine .inl ⟨next, rfl, by rw [prompted, left], ?_⟩
      rw [left, input, List.length_append, List.length_cons]
      omega
    | stop ending =>
      obtain ⟨ended, rebooted⟩ := enter_stop platform reached
      right
      rw [Session.keys_rebooted platform rebooted, ended]
  | none =>
    -- the keys run out before the line ends, so the round waits in `getchar`
    have plain : ∀ c ∈ state.input, ¬ EndsLine c := fun c member => by
      simpa using List.find?_eq_none.mp found c member
    obtain ⟨waiting, read, typing, world⟩ := (typing_prompted state).keys platform plain []
    rw [List.append_nil, read_line] at read
    right
    rw [main_round, read]
    simp only [Option.bind_eq_bind, Option.bind_some, Option.pure_def,
      Session.ending, world, typing.sent, typing.running]
    rfl

/-- The shell is the abstract one, whatever is typed and whatever the rest of the machine answers:
    no access leaves the buffer, and every loop ends. -/
theorem main_session (world : World) (input : List Byte) :
    main platform world input = some
      ((Session.start platform world).keys platform input).ending := by
  have round : ∀ state : MainState World,
      state.prompted.keys platform state.input =
        (Session.start platform world).keys platform input →
      (∃ next, main_round platform state = some (.again next) ∧
          next.prompted.keys platform next.input =
            (Session.start platform world).keys platform input ∧
          next.input.length < state.input.length) ∨
        ∃ ending, main_round platform state = some (.stop ending) ∧
          ending = ((Session.start platform world).keys platform input).ending := by
    intro state same
    obtain ⟨next, again, same', shorter⟩ | stop := main_round_keys platform state
    · exact .inl ⟨next, again, same'.symm.trans same, shorter⟩
    · exact .inr ⟨_, stop, congrArg _ same⟩
  obtain ⟨ending, run, reached⟩ := @Loop.run_total _ _ (main_round platform) (input.length + 1)
    (⟨.replicate _ 0#32, platform.store UART_ENABLE 1#32 world, input,
    banner⟩ : MainState World) _ _
    (fun state => state.input.length) round rfl (Nat.lt_succ_self _)
  rw [← reached]
  exact run

end Loops

end MyCpu.Shell
