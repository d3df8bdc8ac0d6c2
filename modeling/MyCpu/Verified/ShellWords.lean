import Mathlib.Data.List.TakeWhile
import MyCpu.Verified.ShellLine

/-! # The words of the line

A word is a stretch of the line without spaces that cannot be made longer.  `parse_args` finds the
first words in their order, and puts a terminator behind each. -/

namespace MyCpu.Shell

open Loop (Outcome)

/-! ## Words -/

/-- A word starts at a byte that is no space, at the start of the line or behind a space. -/
def startsWord (text : List Byte) (i : ℕ) : Bool :=
  text[i]?.any (fun c => c ≠ 0x20#8) && (i = 0 || text[i - 1]? = some 0x20#8)

def wordStarts (text : List Byte) : List ℕ := (List.range text.length).filter (startsWord text)

/-- The word goes on to the next space or to the end of the line. -/
def wordAt (text : List Byte) (start : ℕ) : List Byte :=
  (text.drop start).takeWhile fun c => c ≠ 0x20#8

def wordEnd (text : List Byte) (start : ℕ) : ℕ := start + (wordAt text start).length

section Stretches

variable {text : List Byte} {p : Byte → Bool} {first : ℕ}

/-- The end of the stretch of such bytes that starts at `first`. -/
def stretchEnd (text : List Byte) (p : Byte → Bool) (first : ℕ) : ℕ :=
  first + ((text.drop first).takeWhile p).length

theorem stretch_bytes {i : ℕ} (low : first ≤ i) (high : i < stretchEnd text p first) :
    ∃ c, text[i]? = some c ∧ ((text.drop first).takeWhile p)[i - first]? = some c ∧ p c = true := by
  have inside : i - first < ((text.drop first).takeWhile p).length := by
    rw [stretchEnd] at high
    omega
  have byte := List.prefix_iff_getElem?.mp (List.takeWhile_prefix p) (i - first) inside
  rw [List.getElem?_drop, Nat.add_sub_cancel' low] at byte
  exact ⟨_, byte, List.getElem?_eq_getElem inside, List.mem_takeWhile_imp (List.getElem_mem inside)⟩

theorem stretch_stops (text : List Byte) (p : Byte → Bool) (first : ℕ) {c : Byte}
    (byte : text[stretchEnd text p first]? = some c) : p c = false := by
  rw [stretchEnd, ← List.getElem?_drop] at byte
  generalize text.drop first = rest at byte
  induction rest with
  | nil => cases byte
  | cons head rest inductionHypothesis =>
    cases wanted : p head with
    | true =>
      rw [List.takeWhile_cons_of_pos wanted, List.length_cons, List.getElem?_cons_succ] at byte
      exact inductionHypothesis byte
    | false =>
      rw [List.takeWhile_cons_of_neg (by simp [wanted])] at byte
      cases byte
      exact wanted

theorem stretch_inside (p : Byte → Bool) (inside : first ≤ text.length) :
    stretchEnd text p first ≤ text.length := by
  have prefixed := (List.takeWhile_prefix (l := text.drop first) p).length_le
  rw [List.length_drop] at prefixed
  rw [stretchEnd]
  omega

theorem stretch_start (text : List Byte) (p : Byte → Bool) (first : ℕ) :
    first ≤ stretchEnd text p first :=
  Nat.le_add_right _ _

theorem stretch_congr {q : Byte → Bool} (same : ∀ c ∈ text, p c = q c) (first : ℕ) :
    stretchEnd text p first = stretchEnd text q first := by
  have rest : ∀ c ∈ text.drop first, p c = q c :=
    fun c member => same c (List.mem_of_mem_drop member)
  rw [stretchEnd, stretchEnd]
  congr 2
  generalize text.drop first = rest' at rest
  induction rest' with
  | nil => rfl
  | cons c more inductionHypothesis =>
    rw [List.takeWhile_cons, List.takeWhile_cons, rest c List.mem_cons_self,
      inductionHypothesis fun other member => rest other (List.mem_cons_of_mem _ member)]

end Stretches

section Words

variable {text : List Byte} {start : ℕ}

theorem startsWord_eq {i : ℕ} {c : Byte} (byte : text[i]? = some c) :
    startsWord text i = (decide (c ≠ 0x20#8) && (i = 0 || text[i - 1]? = some 0x20#8)) := by
  rw [startsWord, byte]
  rfl

theorem startsWord_space {i : ℕ} (byte : text[i]? = some 0x20#8) : startsWord text i = false := by
  rw [startsWord_eq byte]
  rfl

/-- Inside a word no other one starts. -/
theorem startsWord_inside {i : ℕ} (low : start < i) (high : i < wordEnd text start) :
    startsWord text i = false := by
  obtain ⟨c, byte, _, _⟩ := stretch_bytes (Nat.le_of_lt low) high
  obtain ⟨before, byte', _, other⟩ :=
    stretch_bytes (show start ≤ i - 1 by omega) (show i - 1 < wordEnd text start by omega)
  have nonspace : before ≠ 0x20#8 := of_decide_eq_true other
  have behind : i ≠ 0 := by omega
  rw [startsWord_eq byte, byte']
  simp [nonspace, behind]

theorem wordEnd_space {c : Byte} (byte : text[wordEnd text start]? = some c) : c = 0x20#8 := by
  have stopped := stretch_stops text (fun c => c ≠ 0x20#8) start byte
  simpa using stopped

theorem filter_range_none {p : ℕ → Bool} {first last : ℕ} (order : first ≤ last)
    (none : ∀ i, first ≤ i → i < last → p i = false) : (List.range last).filter p =
      (List.range first).filter p := by
  induction last, order using Nat.le_induction with
  | base => rfl
  | succ last order inductionHypothesis =>
    rw [List.range_succ, List.filter_append, inductionHypothesis
      fun i low high => none i low (by omega), List.filter_cons_of_neg
        (by simp [none last order (Nat.lt_succ_self _)]), List.filter_nil, List.append_nil]

/-- Where exactly one word starts in a stretch of the line. -/
theorem filter_range_single {p : ℕ → Bool} {first place last : ℕ}
    (low : first ≤ place) (high : place < last)
    (here : p place = true) (none : ∀ i, first ≤ i → i < last → i ≠ place → p i = false) :
    (List.range last).filter p = (List.range first).filter p ++ [place] := by
  rw [@filter_range_none p (place + 1) last high
    fun i behind inside => none i (by omega) inside (by omega), List.range_succ, List.filter_append,
    filter_range_none low fun i behind before => none i behind (by omega) (by omega),
    List.filter_cons_of_pos here, List.filter_nil]

end Words

/-! ## Scans -/

section Scan

variable {line_buf_words : LineBuf} {asked : Byte → Bool}

/-- The scan stops at the first byte that is not asked for, at the terminator at the latest. -/
theorem scan_eq (stops : asked 0#8 = false) {rest : List Byte} {idx rounds : ℕ}
    (here : ∀ i ≤ rest.length, line_buf_words.line_buf (idx + i) = (rest ++ [0#8])[i]?)
    (enough : rest.length < rounds) :
    Loop.run (fun idx => do
      let c ← line_buf_words.line_buf idx
      return if asked c then .again (idx + 1) else .stop idx) rounds idx =
        some (idx + (rest.takeWhile asked).length) := by
  induction rest generalizing idx rounds with
  | nil =>
    obtain ⟨rounds, rfl⟩ := Nat.exists_eq_succ_of_ne_zero (Nat.ne_of_gt enough)
    have byte : line_buf_words.line_buf idx = some 0#8 := here 0 (Nat.le_refl _)
    refine Loop.run_stop ?_
    simp [byte, stops]
  | cons c rest inductionHypothesis =>
    obtain ⟨rounds, rfl⟩ := Nat.exists_eq_succ_of_ne_zero (show rounds ≠ 0 by omega)
    have byte : line_buf_words.line_buf idx = some c := here 0 (Nat.zero_le _)
    cases wanted : asked c with
    | true =>
      have next : ∀ i ≤ rest.length, line_buf_words.line_buf (idx + 1 + i) =
          (rest ++ [0#8])[i]? := by
        intro i inside
        rw [Nat.add_assoc, Nat.add_comm 1 i]
        exact here (i + 1) (Nat.succ_le_succ inside)
      rw [@Loop.run_again _ _ _ _ _ (idx + 1) (by simp [byte, wanted]),
        inductionHypothesis next (Nat.lt_of_succ_lt_succ enough),
        List.takeWhile_cons_of_pos wanted, List.length_cons]
      congr 1
      omega
    | false =>
      rw [List.takeWhile_cons_of_neg (by simp [wanted])]
      refine Loop.run_stop ?_
      simp [byte, wanted]

end Scan

/-! ## The loop -/

/-- The line in the buffer before it is parsed. -/
structure Line (original : LineBuf) (text : List Byte) : Prop where
  string : original.HoldsString 0 text
  nonzero : ∀ c ∈ text, c ≠ 0#8

/-- The buffer with terminators behind some words. -/
def Terminated (original : LineBuf) (text : List Byte) (argv : List ℕ) (line_buf_words : LineBuf) :
    Prop :=
  ∀ i, line_buf_words.line_buf i =
    if ∃ start ∈ argv, i = wordEnd text start then some 0#8 else original.line_buf i

/-- Between two rounds `idx` stands behind the words found so far, where another word may start. -/
structure Parsing (original : LineBuf) (text : List Byte) (state : ArgState) : Prop where
  place : state.idx ≤ text.length
  boundary : state.idx = 0 ∨ state.idx = text.length ∨ text[state.idx - 1]? = some 0x20#8
  argv : state.argv = (List.range state.idx).filter (startsWord text)
  count : state.argv.length ≤ MAX_ARGS
  ahead : ∀ i, state.idx ≤ i → state.line_buf_words.line_buf i = original.line_buf i
  terminated : Terminated original text state.argv state.line_buf_words

/-- The first words, and a terminator behind each of them. -/
structure Parsed (original : LineBuf) (text : List Byte) (result : ArgState) : Prop where
  argv : result.argv = (wordStarts text).take MAX_ARGS
  terminated : Terminated original text result.argv result.line_buf_words

section Rounds

variable {original : LineBuf} {text : List Byte} {state : ArgState}

theorem Line.byte (line : Line original text) {i : ℕ} (inside : i ≤ text.length) :
    original.line_buf i = (text ++ [0#8])[i]? := by
  by_cases last : i = text.length
  · have terminator := line.string.terminator
    rw [Nat.zero_add] at terminator
    rw [last, terminator, List.getElem?_concat_length]
  · have byte := line.string.bytes i (by omega)
    rw [Nat.zero_add] at byte
    rw [byte, List.getElem?_append_left (by omega)]

theorem Line.size (line : Line original text) : text.length < LineBuf.SIZE := by
  have terminator := line.string.terminator
  rw [Nat.zero_add, LineBuf.line_buf_eq] at terminator
  refine Nat.lt_of_not_le fun outside => ?_
  rw [Vector.getElem?_eq_none
    (by simp only [LineBuf.SIZE, LINE_BUF_SIZE] at outside ⊢; omega)] at terminator
  cases terminator

/-- From `idx` on the scans see the line and its terminator. -/
theorem Parsing.rest (line : Line original text) (parsing : Parsing original text state) {first : ℕ}
    (behind : state.idx ≤ first) (inside : first ≤ text.length) :
    ∀ i ≤ (text.drop first).length,
      state.line_buf_words.line_buf (first + i) = (text.drop first ++ [0#8])[i]? := by
  intro i low
  rw [List.length_drop] at low
  rw [parsing.ahead _ (by omega), line.byte (by omega),
    ← List.drop_append_of_le_length inside, List.getElem?_drop]

theorem scanned (line : Line original text)
    (parsing : Parsing original text state) {asked : Byte → Bool}
    (stops : asked 0#8 = false) {first : ℕ} (behind : state.idx ≤ first)
    (inside : first ≤ text.length) :
    ArgState.scan state.line_buf_words asked first =
      some (first + ((text.drop first).takeWhile asked).length) := by
  refine scan_eq stops (parsing.rest line behind inside) ?_
  have size := line.size
  simp only [LineBuf.SIZE, ROUNDS, List.length_drop] at size ⊢
  omega

/-- No word starts among the spaces that are skipped. -/
theorem startsWord_skipped {idx i : ℕ} (low : idx ≤ i)
    (high : i < stretchEnd text (fun c => c = 0x20#8) idx) :
    startsWord text i = false := by
  obtain ⟨c, byte, _, space⟩ := stretch_bytes low high
  have same : c = 0x20#8 := of_decide_eq_true space
  exact startsWord_space (same ▸ byte)

theorem startsWord_found {c : Byte} (parsing : Parsing original text state)
    (byte : text[stretchEnd text (fun c => c = 0x20#8) state.idx]? = some c) :
    startsWord text (stretchEnd text (fun c => c = 0x20#8) state.idx) = true := by
  have other := stretch_stops text (fun c => c = 0x20#8) state.idx byte
  have low := stretch_start text (fun c => c = 0x20#8) state.idx
  rw [startsWord_eq byte]
  generalize here : stretchEnd text (fun c => decide (c = 0x20#8)) state.idx = place at *
  have nonspace : c ≠ 0x20#8 := of_decide_eq_false other
  have inside : place < text.length := (List.getElem?_eq_some_iff.mp byte).1
  have before : place = 0 ∨ text[place - 1]? = some 0x20#8 := by
    by_cases skipped : state.idx < place
    · obtain ⟨space, byte', _, same⟩ := stretch_bytes (show state.idx ≤ place - 1 by omega)
        (show place - 1 < stretchEnd text (fun c => c = 0x20#8) state.idx by omega)
      rw [byte', of_decide_eq_true same]
      exact .inr rfl
    · have unmoved : place = state.idx := by omega
      cases parsing.boundary with
      | inl first => exact .inl (by omega)
      | inr later =>
        cases later with
        | inl last => omega
        | inr space => exact .inr (unmoved ▸ space)
  simpa [nonspace] using before

/-- The end of the word, as the scan finds it. -/
theorem find_end_eq (line : Line original text) (parsing : Parsing original text state) {start : ℕ}
    (behind : state.idx ≤ start) (inside : start ≤ text.length) :
    ArgState.find_end state.line_buf_words start = some (wordEnd text start) := by
  have same : stretchEnd text (fun c => c ≠ 0#8 && c ≠ 0x20#8) start = wordEnd text start := by
    refine stretch_congr (fun c member => ?_) start
    rw [decide_eq_true (line.nonzero c member), Bool.true_and]
  rw [ArgState.find_end, scanned line parsing (by decide) behind inside, ← same, stretchEnd]

/-- One more word: it starts behind the spaces, and nothing else starts before its end. -/
theorem argv_extended (parsing : Parsing original text state) {start last : ℕ}
    (found : stretchEnd text (fun c => c = 0x20#8) state.idx = start)
    (here : startsWord text start = true)
    (behind : start < last) (ends : last ≤ wordEnd text start + 1)
    (space : last = wordEnd text start + 1 → startsWord text (wordEnd text start) = false) :
    state.argv ++ [start] = (List.range last).filter (startsWord text) := by
  have low := stretch_start text (fun c => c = 0x20#8) state.idx
  rw [parsing.argv]
  refine (filter_range_single (found ▸ low) behind here fun i first inside other => ?_).symm
  by_cases skipped : i < start
  · exact startsWord_skipped first (found.symm ▸ skipped)
  · by_cases within : i < wordEnd text start
    · exact startsWord_inside (by omega) within
    · have here : i = wordEnd text start := by omega
      rw [here]
      exact space (by omega)

theorem terminated_extended (parsing : Parsing original text state) {start : ℕ}
    {line_buf_words : LineBuf}
    (bytes : ∀ i, line_buf_words.line_buf i =
      if i = wordEnd text start then some 0#8 else state.line_buf_words.line_buf i) :
    Terminated original text (state.argv ++ [start]) line_buf_words := by
  intro i
  rw [bytes, parsing.terminated]
  by_cases here : i = wordEnd text start
  · rw [if_pos here, if_pos ⟨start, List.mem_append_right _ List.mem_cons_self, here⟩]
  · rw [if_neg here]
    refine if_congr ⟨fun ⟨other, member, place⟩ => ⟨other, List.mem_append_left _ member, place⟩,
      fun ⟨other, member, place⟩ => ?_⟩ rfl rfl
    rw [List.mem_append, List.mem_singleton] at member
    cases member with
    | inl earlier => exact ⟨other, earlier, place⟩
    | inr newest => exact absurd (newest ▸ place) here

theorem wordEnd_behind {start : ℕ} (here : startsWord text start = true)
    (inside : start < text.length) :
    start < wordEnd text start := by
  refine Nat.lt_of_le_of_ne (stretch_start text _ start) fun empty => ?_
  obtain ⟨c, byte⟩ : ∃ c, text[start]? = some c := ⟨_, List.getElem?_eq_getElem inside⟩
  have space := @wordEnd_space text start c (empty ▸ byte)
  rw [startsWord_space (space ▸ byte)] at here
  cases here

theorem argv_count {start : ℕ} (room : state.argv.length < MAX_ARGS) :
    (state.argv ++ [start]).length ≤ MAX_ARGS := by
  rw [List.length_append, List.length_singleton]
  exact room

/-- The line ends with the word: its terminator is that of the word. -/
theorem Parsing.last (parsing : Parsing original text state) {start : ℕ}
    (found : stretchEnd text (fun c => c = 0x20#8) state.idx = start)
    (here : startsWord text start = true)
    (inside : start < text.length) (room : state.argv.length < MAX_ARGS)
    (ends : wordEnd text start = text.length)
    (terminator : state.line_buf_words.line_buf (wordEnd text start) = some 0#8) :
    Parsing original text { state with idx := wordEnd text start, argv := state.argv ++ [start] } := by
  have low : state.idx ≤ start := found ▸ stretch_start text _ state.idx
  have longer := wordEnd_behind here inside
  refine ⟨ends.le, .inr (.inl ends), ?_, argv_count room, fun i behind => ?_, ?_⟩
  · exact argv_extended parsing found here longer (Nat.le_succ _) (by simp only; omega)
  · exact parsing.ahead i (by simp only at behind; omega)
  · refine terminated_extended parsing fun i => ?_
    split_ifs with at_end
    · rw [at_end, terminator]
    · rfl

/-- A space follows, and is replaced by a terminator. -/
theorem Parsing.next (parsing : Parsing original text state) {start : ℕ}
    (found : stretchEnd text (fun c => c = 0x20#8) state.idx = start)
    (here : startsWord text start = true)
    (inside : start < text.length) (room : state.argv.length < MAX_ARGS)
    (space : text[wordEnd text start]? = some 0x20#8) {written : LineBuf}
    (after : ∀ i, written.line_buf i =
      if i = wordEnd text start then some 0#8 else state.line_buf_words.line_buf i) :
    Parsing original text ⟨written, wordEnd text start + 1, state.argv ++ [start]⟩ := by
  have low : state.idx ≤ start := found ▸ stretch_start text _ state.idx
  have longer := wordEnd_behind here inside
  refine ⟨(List.getElem?_eq_some_iff.mp space).1, .inr (.inr ?_), ?_,
    argv_count room, fun i behind => ?_, terminated_extended parsing after⟩
  · rw [Nat.add_sub_cancel]
    exact space
  · exact argv_extended parsing found here (Nat.lt_succ_of_lt longer) (Nat.le_refl _)
      fun _ => startsWord_space space
  · rw [after, if_neg (by simp only at behind; omega)]
    exact parsing.ahead i (by simp only at behind; omega)

/-- The word is taken, and a terminator written unless the line ends there. -/
theorem parse_word_spec (line : Line original text)
    (parsing : Parsing original text state) {start : ℕ}
    (found : stretchEnd text (fun c => c = 0x20#8) state.idx = start) (inside : start < text.length)
    (room : state.argv.length < MAX_ARGS) :
    ∃ next, state.parse_word start = some (.again next) ∧ Parsing original text next ∧ state.idx < next.idx := by
  have low : state.idx ≤ start := found ▸ stretch_start text _ state.idx
  have here : startsWord text start = true := by
    rw [← found] at inside ⊢
    exact startsWord_found parsing (List.getElem?_eq_getElem inside)
  have longer := wordEnd_behind here inside
  have bound : wordEnd text start ≤ text.length := stretch_inside _ (Nat.le_of_lt inside)
  have byte := (parsing.ahead (wordEnd text start) (by omega)).trans (line.byte bound)
  rw [ArgState.parse_word, find_end_eq line parsing low (Nat.le_of_lt inside)]
  simp only [Option.bind_eq_bind, Option.bind_some, byte]
  by_cases last : wordEnd text start = text.length
  · have terminator : (text ++ [0#8])[wordEnd text start]? = some 0#8 := by
      rw [last, List.getElem?_concat_length]
    rw [terminator] at byte ⊢
    exact ⟨_, rfl, parsing.last found here inside room last byte, by simp only; omega⟩
  · have before : wordEnd text start < text.length := by omega
    have size := line.size
    obtain ⟨c, space⟩ : ∃ c, text[wordEnd text start]? = some c :=
      ⟨_, List.getElem?_eq_getElem before⟩
    rw [wordEnd_space space] at space
    obtain ⟨written, write, after⟩ :=
      @LineBuf.line_buf_write state.line_buf_words (wordEnd text start) (by omega) 0#8
    have nonzero : (0x20#8 : Byte) ≠ 0#8 := by decide
    rw [List.getElem?_append_left before, space]
    simp only [Option.bind_some, if_pos nonzero, write]
    exact ⟨_, rfl, parsing.next found here inside room space after, by simp only; omega⟩

theorem filter_range_append {p : ℕ → Bool} {idx last : ℕ} (inside : idx ≤ last) :
    ∃ more, (List.range last).filter p = (List.range idx).filter p ++ more := by
  obtain ⟨rest, rfl⟩ := Nat.exists_eq_add_of_le inside
  exact ⟨_, by rw [List.range_add, List.filter_append]⟩

/-- All words have been found, or as many as there may be. -/
theorem parsed_stop (parsing : Parsing original text state)
    (all : state.argv.length = MAX_ARGS ∨
      ∀ i, state.idx ≤ i → i < text.length → startsWord text i = false) :
    state.argv = (wordStarts text).take MAX_ARGS := by
  rw [wordStarts]
  cases all with
  | inl full =>
    obtain ⟨more, starts⟩ := @filter_range_append (startsWord text) _ _ parsing.place
    rw [starts, ← parsing.argv, List.take_left' full]
  | inr none =>
    rw [filter_range_none parsing.place none, ← parsing.argv, List.take_of_length_le parsing.count]

theorem parse_round_spec (line : Line original text) (parsing : Parsing original text state) :
    (∃ next, state.parse_round = some (.again next) ∧ Parsing original text next ∧
        text.length - next.idx < text.length - state.idx) ∨
      ∃ result, state.parse_round = some (.stop result) ∧ Parsed original text result := by
  have byte := (parsing.ahead state.idx (Nat.le_refl _)).trans (line.byte parsing.place)
  have skipped : ArgState.skip_spaces state.line_buf_words state.idx =
      some (stretchEnd text (fun c => c = 0x20#8) state.idx) :=
    scanned line parsing (by decide) (Nat.le_refl _) parsing.place
  have bound : stretchEnd text (fun c => c = 0x20#8) state.idx ≤ text.length :=
    stretch_inside _ parsing.place
  have low := stretch_start text (fun c => c = 0x20#8) state.idx
  have byte' := (parsing.ahead _ low).trans (line.byte bound)
  rw [ArgState.parse_round, byte]
  by_cases more : state.idx < text.length
  · obtain ⟨c, here⟩ : ∃ c, text[state.idx]? = some c := ⟨_, List.getElem?_eq_getElem more⟩
    have nonzero : c ≠ 0#8 := line.nonzero c (List.mem_of_getElem? here)
    rw [List.getElem?_append_left more, here]
    by_cases room : state.argv.length < MAX_ARGS
    · simp only [Option.bind_eq_bind, Option.bind_some,
        if_pos (And.intro nonzero room), skipped, byte']
      by_cases found : stretchEnd text (fun c => c = 0x20#8) state.idx < text.length
      · obtain ⟨c', start⟩ :
          ∃ c', text[stretchEnd text (fun c => c = 0x20#8) state.idx]? = some c' :=
          ⟨_, List.getElem?_eq_getElem found⟩
        have nonzero' : c' ≠ 0#8 := line.nonzero c' (List.mem_of_getElem? start)
        obtain ⟨next, parsed, parsing', further⟩ := parse_word_spec line parsing rfl found room
        rw [List.getElem?_append_left found, start]
        simp only [Option.bind_some, if_neg nonzero']
        exact .inl ⟨next, parsed, parsing', by omega⟩
      · -- nothing but spaces up to the end of the line
        have last : stretchEnd text (fun c => c = 0x20#8) state.idx = text.length := by omega
        rw [last, List.getElem?_concat_length]
        have words : state.argv = (wordStarts text).take MAX_ARGS :=
          parsed_stop parsing
            (.inr fun i first inside => startsWord_skipped first (last.symm ▸ inside))
        exact .inr ⟨_, rfl, words, parsing.terminated⟩
    · have full : state.argv.length = MAX_ARGS :=
        Nat.le_antisymm parsing.count (Nat.le_of_not_lt room)
      simp only [Option.bind_eq_bind, Option.bind_some,
        if_neg fun both : c ≠ 0#8 ∧ _ => room both.2]
      exact .inr ⟨state, rfl, parsed_stop parsing (.inl full), parsing.terminated⟩
  · have last : state.idx = text.length := Nat.le_antisymm parsing.place (Nat.le_of_not_lt more)
    rw [last, List.getElem?_concat_length]
    refine .inr ⟨state, rfl, parsed_stop parsing
      (.inr fun i first inside => ?_), parsing.terminated⟩
    omega

end Rounds

/-! ## The whole line -/

section Whole

variable {original : LineBuf} {text : List Byte}

theorem parse_args_parsed (line : Line original text) :
    ∃ result, parse_args original = some result ∧ Parsed original text result := by
  have size := line.size
  refine @Loop.run_total _ _ _ _ _ (Parsing original text) _ (fun state => text.length - state.idx)
    (fun state parsing => parse_round_spec line parsing) ?_ ?_
  · exact ⟨Nat.zero_le _, .inl rfl, rfl, Nat.zero_le _, fun _ _ => rfl, fun i => by simp⟩
  · simp only [LineBuf.SIZE, ROUNDS] at size ⊢
    omega

/-- Each of the words is a string in the buffer. -/
theorem Parsed.string (line : Line original text) {result : ArgState}
    (parsed : Parsed original text result) {start : ℕ}
    (member : start ∈ result.argv) : result.line_buf_words.HoldsString start
      (wordAt text start) := by
  have inside : start < text.length := by
    rw [parsed.argv] at member
    exact List.mem_range.mp (List.mem_filter.mp (List.mem_of_mem_take member)).1
  have bound : wordEnd text start ≤ text.length := stretch_inside _ (Nat.le_of_lt inside)
  refine ⟨fun i low => ?_, ?_⟩
  · have high : start + i < wordEnd text start := Nat.add_lt_add_left low start
    obtain ⟨c, byte, byte', other⟩ := stretch_bytes (Nat.le_add_right start i) high
    have nonspace : c ≠ 0x20#8 := of_decide_eq_true other
    rw [Nat.add_sub_cancel_left] at byte'
    rw [parsed.terminated, if_neg, line.byte (by omega), List.getElem?_append_left (by omega), byte]
    · exact byte'.symm
    · rintro ⟨start', _, place⟩
      rw [place] at byte
      exact nonspace (wordEnd_space byte)
  · rw [parsed.terminated, if_pos ⟨start, member, rfl⟩]

end Whole

theorem Editing.start (line_buf_words : LineBuf) (sent : List Byte) :
    Editing ⟨line_buf_words, 0, sent⟩ [] :=
  ⟨rfl, Nat.zero_le _, fun _ none => absurd none (Nat.not_lt_zero _)⟩

/-- The line is the edited one, and its first words are the arguments. -/
theorem line_parsed (line_buf_words : LineBuf) (sent : List Byte) {bytes : List Byte}
    (plain : ∀ c ∈ bytes, ¬ EndsLine c) :
    (∃ waiting, read_line bytes ⟨line_buf_words, 0, sent⟩ = some (.again waiting)) ∧
      ∀ c, EndsLine c → ∀ rest, ∃ state, read_line (bytes ++ c :: rest) ⟨line_buf_words, 0, sent⟩ =
          some (.stop (state, rest)) ∧
        state.len = (edited bytes).length ∧ state.line_buf_words.HoldsString 0 (edited bytes) ∧
        ∃ result, parse_args state.line_buf_words = some result ∧
          result.argv = (wordStarts (edited bytes)).take MAX_ARGS ∧
          (∀ start ∈ result.argv, result.line_buf_words.HoldsString start
            (wordAt (edited bytes) start)) ∧
          Terminated state.line_buf_words (edited bytes) result.argv result.line_buf_words := by
  have editing := Editing.start line_buf_words sent
  constructor
  · obtain ⟨waiting, read, _⟩ := read_line_waits editing plain
    exact ⟨waiting, read⟩
  · intro c ends rest
    obtain ⟨state, read, len, string⟩ := read_line_returns editing plain ends rest
    have line : Line state.line_buf_words (edited bytes) := ⟨string, edited_nonzero bytes⟩
    obtain ⟨result, args, parsed⟩ := parse_args_parsed line
    exact ⟨state, read, len, string, result, args, parsed.argv,
      fun start => parsed.string line, parsed.terminated⟩

/-- `mem`, two spaces, a slip that is corrected, and the address. -/
theorem mem_parsed :
    ∃ state result,
      read_line (uart_puts "mem  1x\x7f0\r") ⟨.replicate 21 0#32, 0, []⟩ =
        some (.stop (state, [])) ∧
        state.line_buf_words.HoldsString 0 (uart_puts "mem  10") ∧
        parse_args state.line_buf_words = some result ∧
        result.argv = [0, 5] ∧ result.line_buf_words.HoldsString 5 (uart_puts "10") := by
  obtain ⟨_, returns⟩ := @line_parsed (.replicate 21 0#32) [] (uart_puts "mem  1x\x7f0") (by decide)
  obtain ⟨state, read, _, string, result, args, argv, strings, _⟩ := returns 13#8 (.inl rfl) []
  have line : edited (uart_puts "mem  1x\x7f0") = uart_puts "mem  10" := by decide
  rw [line] at string argv strings
  have starts : (wordStarts (uart_puts "mem  10")).take MAX_ARGS = [0, 5] := by decide
  have word : wordAt (uart_puts "mem  10") 5 = uart_puts "10" := by decide
  rw [starts] at argv
  have second := strings 5 (argv ▸ by decide)
  rw [word] at second
  exact ⟨state, result, read, string, args, argv, second⟩

end MyCpu.Shell
