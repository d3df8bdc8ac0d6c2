import MyCpu.Verified.ShellSession

/-! # Dialogues with the shell

What a user relies on: the screen shows the line that the shell will take, and a word
that `memw` has written is the one that `mem` answers. -/

namespace MyCpu.Shell

variable {World : Type} (platform : Platform World)

/-- Memory that only the shell writes. -/
def plainMemory : Platform (Word → Word) where
  csrr := fun _ world => (0#32, world)
  load := fun addr world => (world addr, world)
  store := fun addr val world => Function.update world addr val

/-! ## The screen -/

/-- A line of the screen, and the cursor in it. -/
structure Screen where
  cells : ℕ → Byte
  cursor : ℕ

namespace Screen

/-- A backspace moves the cursor; every other byte is put under it. -/
def receive (screen : Screen) (c : Byte) : Screen :=
  if c = 0x08#8 then { screen with cursor := screen.cursor - 1 }
  else ⟨Function.update screen.cells screen.cursor c, screen.cursor + 1⟩

/-- From a column on the screen shows the text and nothing else, with the cursor behind it. -/
structure Shows (screen : Screen) (column : ℕ) (text : List Byte) : Prop where
  cursor : screen.cursor = column + text.length
  cells : ∀ i, screen.cells (column + i) = text.getD i 0x20#8

end Screen

section Screen

variable {screen : Screen} {column : ℕ} {text : List Byte} {c : Byte}

theorem getD_append_last (text : List Byte) (c : Byte) (i : ℕ) :
    (text ++ [c]).getD i 0x20#8 = if i = text.length then c else text.getD i 0x20#8 := by
  rw [List.getD_eq_getElem?_getD, List.getD_eq_getElem?_getD]
  obtain inside | rfl | outside := Nat.lt_trichotomy i text.length
  · rw [List.getElem?_append_left inside, if_neg (Nat.ne_of_lt inside)]
  · rw [List.getElem?_concat_length, if_pos rfl, Option.getD_some]
  · rw [List.getElem?_eq_none (by simp; omega), List.getElem?_eq_none (Nat.le_of_lt outside),
      if_neg (Nat.ne_of_gt outside)]

theorem Screen.Shows.typed (shows : screen.Shows column text) (other : c ≠ 0x08#8) :
    (screen.receive c).Shows column (text ++ [c]) := by
  rw [Screen.receive, if_neg other]
  refine ⟨?_, fun i => ?_⟩
  · rw [List.length_append, List.length_singleton, shows.cursor, Nat.add_assoc]
  · simp only [getD_append_last, ← shows.cells, Function.update_apply, shows.cursor,
      Nat.add_left_cancel_iff]

/-- Backspace, space and backspace again take the last byte away. -/
theorem Screen.Shows.erased (shows : screen.Shows column (text ++ [c])) :
    ([0x08#8, 0x20#8, 0x08#8].foldl Screen.receive screen).Shows column text ∧
      ∀ i < column, ([0x08#8, 0x20#8, 0x08#8].foldl Screen.receive screen).cells i =
        screen.cells i := by
  have place : screen.cursor - 1 = column + text.length := by
    rw [shows.cursor, List.length_append, List.length_singleton,
      ← Nat.add_assoc, Nat.add_sub_cancel]
  have erased : [0x08#8, 0x20#8, 0x08#8].foldl Screen.receive screen =
      ⟨Function.update screen.cells (column + text.length) 0x20#8, column + text.length⟩ := by
    simp [Screen.receive, place]
  rw [erased]
  refine ⟨⟨rfl, fun i => ?_⟩, fun i left => ?_⟩
  · simp only [Function.update_apply, shows.cells, getD_append_last, Nat.add_left_cancel_iff]
    split_ifs with last
    · rw [last, List.getD_eq_getElem?_getD, List.getElem?_eq_none (Nat.le_refl _)]
      rfl
    · rfl
  · exact Function.update_of_ne (by omega) _ _

/-- A key changes the screen as it changes the line. -/
theorem Screen.Shows.echoed (shows : screen.Shows column text) (c : Byte) :
    ((echo text c).foldl Screen.receive screen).Shows column (edit text c) ∧
      ∀ i < column, ((echo text c).foldl Screen.receive screen).cells i = screen.cells i := by
  rw [echo, edit]
  split_ifs with removes empty typed
  · obtain rfl := empty
    exact ⟨shows, fun _ _ => rfl⟩
  · rw [← List.dropLast_append_getLast empty] at shows
    exact shows.erased
  · have other : c ≠ 0x08#8 := fun same => removes (.inr same)
    refine ⟨shows.typed other, fun i left => ?_⟩
    rw [List.foldl_cons, List.foldl_nil, Screen.receive, if_neg other]
    have behind := shows.cursor
    exact Function.update_of_ne (by omega) _ _
  · exact ⟨shows, fun _ _ => rfl⟩

/-- What is sent back for the keys of a line makes the screen show the line that the shell has, and leaves what
    stands in front of it. -/
theorem screen_shows_line {session : Session World} (running : session.rebooted = false) {input : List Byte}
    (plain : ∀ c ∈ input, ¬ EndsLine c) (shows : screen.Shows column session.text) :
    ∃ back, (session.keys platform input).sent = session.sent ++ back ∧
      (back.foldl Screen.receive screen).Shows column (session.keys platform input).text ∧
      ∀ i < column, (back.foldl Screen.receive screen).cells i = screen.cells i := by
  induction input generalizing session screen with
  | nil => exact ⟨[], (List.append_nil _).symm, shows, fun _ _ => rfl⟩
  | cons c input inductionHypothesis =>
    have other := plain c List.mem_cons_self
    have after : session.keys platform (c :: input) = Session.keys platform
        { session with text := edit session.text c, sent := session.sent ++ echo session.text c } input := by
      rw [Session.keys, List.foldl_cons, Session.key, running, if_neg Bool.false_ne_true, if_neg other, Session.keys]
    obtain ⟨shows', kept⟩ := shows.echoed c
    obtain ⟨back, sent, shown, kept'⟩ := @inductionHypothesis _
      { session with text := edit session.text c, sent := session.sent ++ echo session.text c } running
      (fun other member => plain other (List.mem_cons_of_mem _ member)) shows'
    rw [after]
    refine ⟨echo session.text c ++ back, ?_, ?_, fun i left => ?_⟩
    · rw [sent, List.append_assoc]
    · rw [List.foldl_append]
      exact shown
    · rw [List.foldl_append, kept' i left, kept i left]

end Screen

/-- `mem` with a slip that is corrected, behind the prompt. -/
theorem slip_shown :
    ∃ back, ((Session.start plainMemory fun _ => 0#32).keys plainMemory
      (uart_puts "mex\x7fm")).sent =
        banner ++ prompt ++ back ∧
      (back.foldl Screen.receive ⟨fun _ => 0x20#8, 7⟩).Shows 7 (uart_puts "mem") ∧
      ∀ i < 7, (back.foldl Screen.receive ⟨fun _ => 0x20#8, 7⟩).cells i = 0x20#8 :=
  @screen_shows_line _ plainMemory _ _ (Session.start plainMemory fun _ => 0#32) rfl _
    (by decide) ⟨rfl, fun _ => rfl⟩

/-! ## Writing and reading memory -/

/-- A byte that is typed as it is. -/
def Printable (c : Byte) : Prop := 0x20#8 ≤ c ∧ c < 0x7f#8

instance (c : Byte) : Decidable (Printable c) := inferInstanceAs (Decidable (_ ∧ _))

theorem Printable.plain {c : Byte} (printable : Printable c) : ¬ EndsLine c := by
  rintro (rfl | rfl) <;> exact absurd printable (by decide)

theorem Printable.kept {c : Byte} (printable : Printable c) : ¬ (c = 0x7f#8 ∨ c = 0x08#8) := by
  rintro (rfl | rfl) <;> exact absurd printable (by decide)

/-- Printable bytes are appended to the line, and sent back, while there is room. -/
theorem Session.keys_printable {session : Session World}
    (running : session.rebooted = false) {input : List Byte}
    (printable : ∀ c ∈ input, Printable c)
    (room : session.text.length + input.length < LINE_BUF_SIZE) :
    session.keys platform input =
      { session with text := session.text ++ input, sent := session.sent ++ input } := by
  induction input generalizing session with
  | nil => simp only [Session.keys, List.foldl_nil, List.append_nil]
  | cons c input inductionHypothesis =>
    have typed := printable c List.mem_cons_self
    rw [List.length_cons] at room
    have fits : 0x20#8 ≤ c ∧ c < 0x7f#8 ∧ session.text.length < LINE_BUF_SIZE - 1 :=
      ⟨typed.1, typed.2, by omega⟩
    have after : session.key platform c =
        { session with text := session.text ++ [c], sent := session.sent ++ [c] } := by
      rw [Session.key, running, if_neg Bool.false_ne_true, if_neg typed.plain, edit,
        echo, if_neg typed.kept, if_neg typed.kept, if_pos fits, if_pos fits]
    have rest := @inductionHypothesis
      { session with text := session.text ++ [c], sent := session.sent ++ [c] } running
      (fun c member => printable c (List.mem_cons_of_mem _ member)) (by simp; omega)
    rw [Session.keys, List.foldl_cons, after]
    refine rest.trans ?_
    simp only [List.append_assoc, List.singleton_append]

/-- A number as it is typed. -/
def spelled (val : Word) : List Byte := uart_puts "0x" ++ print_hex val 8

theorem hexChar_printable : ∀ digit < 16, Printable (hexChar digit) ∧ hexChar digit ≠ 0x20#8 := by
  decide

theorem spelled_printable (val : Word) : ∀ c ∈ spelled val, Printable c ∧ c ≠ 0x20#8 := by
  intro c member
  rw [spelled, List.mem_append, print_hex_eq, List.mem_map] at member
  obtain front | ⟨digit, place, rfl⟩ := member
  · revert c
    decide
  · exact hexChar_printable digit (Numeral.padded_lt (by decide) place)

theorem spelled_length (val : Word) : (spelled val).length = 10 := by
  rw [spelled, List.length_append, print_hex_eq, List.length_map, Numeral.padded_length]
  rfl

theorem hexNumber_spelled (val : Word) : hexNumber (spelled val) = val := by
  have nonzero : ∀ c ∈ spelled val, c ≠ 0#8 := by
    rintro c member rfl
    exact absurd (spelled_printable val 0#8 member).1 (by decide)
  have parsed : parse_hex (spelled val ++ 0#8 :: []) = some val := parse_printed val []
  rw [parse_hex_word nonzero] at parsed
  exact Option.some.inj parsed

/-- The words of a line that starts with a word. -/
theorem words_cons {word : List Byte} (unspaced : ∀ c ∈ word, c ≠ 0x20#8)
    (some : word ≠ []) (rest : List Byte) :
    words (word ++ 0x20#8 :: rest) = word :: words rest := by
  rw [words, List.splitOnP_append_cons_of_forall_mem
    (fun c member => by simpa using unspaced c member) 0x20#8
    (by decide), List.filter_cons_of_pos (by simpa using some), words]

theorem words_single {word : List Byte} (unspaced : ∀ c ∈ word, c ≠ 0x20#8) (some : word ≠ []) :
    words word = [word] := by
  rw [words, List.splitOnP_eq_singleton fun c member => by simpa using unspaced c member,
    List.filter_cons_of_pos (by simpa using some), List.filter_nil]

def memLine (addr : Word) : List Byte := uart_puts "mem" ++ 0x20#8 :: spelled addr

def memwLine (addr val : Word) : List Byte :=
  uart_puts "memw" ++ 0x20#8 :: (spelled addr ++ 0x20#8 :: spelled val)

theorem spelled_nonempty (val : Word) : spelled val ≠ [] := by
  rw [← List.length_pos_iff, spelled_length]
  decide

theorem memLine_asks (addr : Word) : Command.ofLine (memLine addr) = some (.mem (some addr)) := by
  have split : words (memLine addr) = [uart_puts "mem", spelled addr] := by
    rw [memLine, words_cons (by decide) (by decide), words_single
      (fun c member => (spelled_printable addr c member).2)
      (spelled_nonempty addr)]
  have named : Command.ofName (uart_puts "mem") [spelled addr] =
      .mem (some (hexNumber (spelled addr))) := rfl
  rw [Command.ofLine, split, ← hexNumber_spelled addr, ← named, hexNumber_spelled]
  rfl

theorem memwLine_asks (addr val : Word) :
    Command.ofLine (memwLine addr val) = some (.memw (some (addr, val))) := by
  have split : words (memwLine addr val) = [uart_puts "memw", spelled addr, spelled val] := by
    rw [memwLine, words_cons (by decide) (by decide),
      words_cons (fun c member => (spelled_printable addr c member).2) (spelled_nonempty addr),
      words_single (fun c member => (spelled_printable val c member).2) (spelled_nonempty val)]
  have named : Command.ofName (uart_puts "memw") [spelled addr, spelled val] =
      .memw (some (hexNumber (spelled addr), hexNumber (spelled val))) := rfl
  rw [hexNumber_spelled, hexNumber_spelled] at named
  rw [Command.ofLine, split, ← named]
  rfl

theorem memLine_printable (addr : Word) : ∀ c ∈ memLine addr, Printable c := by
  intro c member
  rw [memLine, List.mem_append, List.mem_cons] at member
  obtain name | rfl | address := member
  · revert c
    decide
  · decide
  · exact (spelled_printable addr c address).1

theorem memwLine_printable (addr val : Word) : ∀ c ∈ memwLine addr val, Printable c := by
  intro c member
  rw [memwLine, List.mem_append, List.mem_cons, List.mem_append, List.mem_cons] at member
  obtain name | rfl | address | rfl | value := member
  · revert c
    decide
  · decide
  · exact (spelled_printable addr c address).1
  · decide
  · exact (spelled_printable val c value).1

/-- The session behind a line of printable bytes that asks for a command. -/
theorem Session.keys_line {session : Session World} (fresh : session.text = [])
    (running : session.rebooted = false)
    {line : List Byte} (printable : ∀ c ∈ line, Printable c)
    (room : line.length < LINE_BUF_SIZE) {command : Command}
    (asks : Command.ofLine line = some command) (stays : command.reboots = false) :
    session.keys platform (line ++ [0x0d#8]) =
      ⟨[], (command.run platform session.world).2,
        session.sent ++ line ++ uart_puts "\r\n" ++
          (command.run platform session.world).1 ++ prompt, false⟩ := by
  have typed := Session.keys_printable platform running printable (by rw [fresh]; simpa using room)
  rw [fresh, List.nil_append] at typed
  have entered := @Session.keys_ends _ platform
    ⟨line, session.world, session.sent ++ line, session.rebooted⟩ 0x0d#8
    running (.inl rfl) []
  rw [Session.keys_append, typed, entered, Session.enter]
  simp only [asks, stays, Bool.false_eq_true, if_false, Session.keys, List.foldl_nil]

/-- A word that `memw` writes is what `mem` then answers, if the memory keeps it. -/
theorem memw_then_mem {session : Session World} (fresh : session.text = [])
    (running : session.rebooted = false)
    (addr val : Word)
    (kept : (platform.load (aligned addr) (platform.store (aligned addr) val session.world)).1 =
      val) :
    (session.keys platform (memwLine addr val ++ [0x0d#8] ++ (memLine addr ++ [0x0d#8]))).sent =
      session.sent ++ memwLine addr val ++ uart_puts "\r\n" ++ memwAnswer
        (aligned addr) val ++ prompt ++
        memLine addr ++ uart_puts "\r\n" ++ memAnswer (aligned addr) val ++ prompt := by
  have lengths : (memwLine addr val).length < LINE_BUF_SIZE ∧
      (memLine addr).length < LINE_BUF_SIZE := by
    simp only [memwLine, memLine, List.length_append, List.length_cons, spelled_length]
    decide
  have written := Session.keys_line platform fresh running (memwLine_printable addr val) lengths.1
    (memwLine_asks addr val) rfl
  rw [Session.keys_append, written]
  rw [Session.keys_line platform rfl rfl (memLine_printable addr) lengths.2 (memLine_asks addr) rfl]
  have answer : ((Command.mem (some addr)).run platform
      ((Command.memw (some (addr, val))).run platform session.world).2).1 =
        memAnswer (aligned addr) val :=
    congrArg (memAnswer (aligned addr)) kept
  simp only [answer]
  rfl

theorem plainMemory_answers :
    ((Session.start plainMemory fun _ => 0#32).keys plainMemory
        (memwLine 0x2002#32 0xCAFEF00D#32 ++ [0x0d#8] ++ (memLine 0x2002#32 ++ [0x0d#8]))).sent =
      banner ++ prompt ++ memwLine 0x2002#32 0xCAFEF00D#32 ++ uart_puts "\r\n" ++
        memwAnswer 0x2000#32 0xCAFEF00D#32 ++ prompt ++ memLine 0x2002#32 ++ uart_puts "\r\n" ++
        memAnswer 0x2000#32 0xCAFEF00D#32 ++ prompt :=
  @memw_then_mem _ plainMemory
    (Session.start plainMemory fun _ => 0#32) rfl rfl 0x2002#32 0xCAFEF00D#32
    (by simp [plainMemory])

end MyCpu.Shell
