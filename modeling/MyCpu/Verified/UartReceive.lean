import MyCpu.Verified.Receiver
import MyCpu.Verified.UartTransmit

/-! # What the receiver hands to the CPU

Bytes go from the receiver through the queue to the CPU.  While the queue is full
the receiver holds a byte and does not listen.  It listens again as soon as the byte
has been moved on, and then takes any low level for a start bit, also in the middle
of a frame.  As long as it only starts where all its samples fall into the cells of
one frame, the CPU gets a subsequence of the bytes sent. -/

namespace MyCpu

open SerialLine UartConstants

/-! ## The queue as a list -/

namespace Queue

/-- So many entries of a ring, from `first` on. -/
def segment (ram : BitVec 2 → Byte) (first : BitVec 2) (length : ℕ) : List Byte :=
  (List.range length).map fun i => ram (first + BitVec.ofNat 2 i)

/-- The bytes in the queue, oldest first. -/
def contents (queue : Queue) : List Byte := segment queue.ram queue.deqPtr queue.count

section Segments

variable (ram : BitVec 2 → Byte) (first : BitVec 2) (length : ℕ)

theorem segment_succ :
    segment ram first (length + 1) = ram first :: segment ram (first + 1#2) length := by
  rw [segment, List.range_succ_eq_map, List.map_cons, List.map_map, segment]
  congr 1
  · exact congrArg ram (BitVec.add_zero first)
  · refine List.map_congr_left fun i _ => congrArg ram ?_
    rw [BitVec.add_assoc, Nat.succ_eq_one_add, BitVec.ofNat_add]

theorem segment_push (room : length < 4) (byte : Byte) :
    segment (Function.update ram (first + BitVec.ofNat 2 length) byte) first (length + 1) =
      segment ram first length ++ [byte] := by
  -- a write behind the segment makes it longer
  rw [segment, List.range_succ, List.map_append, List.map_singleton, Function.update_self, segment]
  congr 1
  refine List.map_congr_left fun i inside => ?_
  rw [List.mem_range] at inside
  refine @Function.update_of_ne (BitVec 2) (fun _ => Byte) _ _ _ (fun same => ?_) byte ram
  have equal := congrArg BitVec.toNat ((BitVec.add_right_inj first).mp same)
  rw [BitVec.toNat_ofNat, BitVec.toNat_ofNat] at equal
  omega

end Segments

variable (queue : Queue)

/-- The pointers of a queue, with other entries. -/
private def pointers (enqPtr deqPtr : BitVec 2) (maybeFull : Bool) : Queue :=
  ⟨fun _ => 0#8, enqPtr, deqPtr, maybeFull⟩

/-- The entries lie between the two pointers. -/
theorem count_spec :
    queue.enqPtr = queue.deqPtr + BitVec.ofNat 2 queue.count ∧ queue.count ≤ 4 ∧
      (queue.empty = true ↔ queue.count = 0) ∧ (queue.full = true ↔ queue.count = 4) := by
  have all : ∀ (enqPtr deqPtr : BitVec 2) (maybeFull : Bool),
      enqPtr = deqPtr + BitVec.ofNat 2 (pointers enqPtr deqPtr maybeFull).count ∧
        (pointers enqPtr deqPtr maybeFull).count ≤ 4 ∧
        ((pointers enqPtr deqPtr maybeFull).empty = true ↔
          (pointers enqPtr deqPtr maybeFull).count = 0) ∧
        ((pointers enqPtr deqPtr maybeFull).full = true ↔
          (pointers enqPtr deqPtr maybeFull).count = 4) := by
    decide
  exact all queue.enqPtr queue.deqPtr queue.maybeFull

theorem count_step (enq : UartIO) (deqReady : Bool) :
    (queue.step enq deqReady).count + (queue.deq.valid && deqReady).toNat =
      queue.count + (enq.valid && queue.enqReady deqReady).toNat := by
  have all : ∀ (enqPtr deqPtr : BitVec 2) (maybeFull valid deqReady : Bool),
      ((pointers enqPtr deqPtr maybeFull).step ⟨valid, 0#8⟩ deqReady).count +
          ((pointers enqPtr deqPtr maybeFull).deq.valid && deqReady).toNat =
        (pointers enqPtr deqPtr maybeFull).count +
          (valid && (pointers enqPtr deqPtr maybeFull).enqReady deqReady).toNat := by
    decide
  exact all queue.enqPtr queue.deqPtr queue.maybeFull enq.valid deqReady

theorem contents_step (enq : UartIO) (deqReady : Bool) :
    queue.contents ++ (if enq.valid && queue.enqReady deqReady then [enq.bits] else []) =
      (if queue.deq.valid && deqReady then [queue.deq.bits] else []) ++
        (queue.step enq deqReady).contents := by
  obtain ⟨place, bound, isEmpty, isFull⟩ := queue.count_spec
  have counted := queue.count_step enq deqReady
  rw [contents, contents]
  cases taken : queue.deq.valid && deqReady with
  | true =>
    -- the front entry is not overwritten before it is read
    obtain ⟨rest, length⟩ : ∃ rest, queue.count = rest + 1 := by
      refine ⟨queue.count - 1, ?_⟩
      have nonempty : queue.count ≠ 0 := by
        intro none
        simp [deq, isEmpty.mpr none] at taken
      omega
    rw [length] at counted place bound ⊢
    rw [BitVec.ofNat_add, BitVec.add_comm (BitVec.ofNat 2 rest), ← BitVec.add_assoc] at place
    cases added : enq.valid && queue.enqReady deqReady with
    | true =>
      rw [taken, added] at counted
      have same : (queue.step enq deqReady).count = rest + 1 := by simpa using counted
      rw [same, segment_succ]
      simp only [step, added, taken, if_true, List.cons_append, List.nil_append]
      rw [place, segment_push _ _ _ (by omega)]
      rfl
    | false =>
      rw [taken, added] at counted
      have shorter : (queue.step enq deqReady).count = rest := by simpa using counted
      rw [shorter, segment_succ]
      simp only [step, added, taken, if_true, Bool.false_eq_true, if_false,
        List.append_nil, List.cons_append, List.nil_append]
      rfl
  | false =>
    cases added : enq.valid && queue.enqReady deqReady with
    | true =>
      have room : queue.count ≠ 4 := by
        -- a full queue takes an entry only if it gives one away
        intro isFour
        have nonempty : queue.empty = false := by
          rw [← Bool.not_eq_true, isEmpty]
          omega
        simp only [enqReady, isFull.mpr isFour, Bool.not_true, Bool.false_or,
          Bool.and_eq_true] at added
        simp [deq, nonempty, added.2] at taken
      rw [taken, added] at counted
      have longer : (queue.step enq deqReady).count = queue.count + 1 := by simpa using counted
      rw [longer]
      simp only [step, added, taken, if_true, Bool.false_eq_true, if_false, List.nil_append]
      rw [place, segment_push _ _ _ (by omega)]
    | false =>
      rw [taken, added] at counted
      have same : (queue.step enq deqReady).count = queue.count := by simpa using counted
      rw [same]
      simp only [step, added, taken, Bool.false_eq_true, if_false, List.append_nil, List.nil_append]

end Queue

/-! ## Where the receiver starts -/

/-- The sender as the receiver sees it behind the synchroniser. -/
def synchronised (sender : ℕ → Sending) : ℕ → Sending
  | n + 2 => sender n
  | _ => .silent

/-- All samples of a reception that starts now fall into the cells of the frame on the line. -/
def StartsInside (config : UartConfig) : Sending → Prop
  | .silent => False
  | .frame _ offset =>
    config.bitTime ≤ offset + config.startTime ∧ offset + config.startTime < 2 * config.bitTime

instance (config : UartConfig) : DecidablePred (StartsInside config) := fun sending =>
  match sending with
  | .silent => instDecidableFalse
  | .frame _ _ => instDecidableAnd

namespace Rx

/-- The byte that the receiver holds. -/
def held (core : Core) : List Byte := if core.valReg then [core.shiftReg] else []

/-- The byte that the receiver hands on in this cycle. -/
def handed (core : Core) (ready : Bool) : List Byte :=
  if core.valReg && ready then [core.shiftReg] else []

/-- The receiver while the sender is seen in a phase; `before` are the bytes of the frames before
    the one on the line, and `kept` are those handed on or held by the receiver. -/
inductive Listens (config : UartConfig) (core : Core) (before kept : List Byte) :
    Sending → Prop where
  | quiet {sending : Sending} (idle : core.bitsReg = 0) (sub : kept.Sublist before) :
    Listens config core before kept sending
  | receiving {byte : Byte} {start offset k : ℕ} (inside : StartsInside config (.frame byte start))
    (within : Receiving config
      (fun elapsed => level config.bitTime byte (start + elapsed)) offset k core)
    (sub : kept.Sublist before) : Listens config core before kept (.frame byte (start + offset))
  | heard {byte : Byte} {offset : ℕ} (idle : core.bitsReg = 0)
    (late : 2 * config.bitTime ≤ offset + config.startTime)
    (sub : kept.Sublist (before ++ [byte])) :
    Listens config core before kept (.frame byte offset)

theorem held_free {core : Core} (free : core.valReg = false) : held core = [] := by
  rw [held, free]
  rfl

theorem handed_free {core : Core} (free : core.valReg = false) (ready : Bool) :
    handed core ready = [] := by
  rw [handed, free]
  rfl

section Edges

variable {config : UartConfig} {rx : Rx} {rxd ready : Bool} {before earlier : List Byte}
    {sending next : Sending}

theorem Listens.sublist {core : Core} {kept : List Byte}
    (listens : Listens config core before kept sending) :
    kept.Sublist (before ++ sending.current) := by
  -- what is kept has been sent, the frame on the line included
  cases listens with
  | quiet idle sub => exact sub.trans (List.sublist_append_left _ _)
  | receiving inside within sub => exact sub.trans (List.sublist_append_left _ _)
  | heard idle late sub => exact sub

theorem resting_step (idle : rx.core.bitsReg = 0) (resting : rx.starts = false) :
    (rx.step config rxd ready).core.bitsReg = 0 ∧
      held rx.core = handed rx.core ready ++ held (rx.step config rxd ready).core := by
  have kept : ∃ count, (rx.step config rxd ready).core =
      ⟨rx.shiftReg, count, 0, rx.valReg && !ready⟩ := by
    simp only [core] at idle
    by_cases counting : rx.cntReg = 0
    · have quiet : rx.rxReg = true ∨ rx.valReg = true := by
        simp only [starts, counting, idle] at resting
        cases level : rx.rxReg with
        | true => exact .inl rfl
        | false => exact .inr (by simpa [level] using resting)
      exact ⟨0, step_idle counting idle quiet⟩
    · exact ⟨rx.cntReg - 1, by rw [step_count counting, idle]⟩
  obtain ⟨count, same⟩ := kept
  rw [same]
  refine ⟨rfl, ?_⟩
  by_cases holds : rx.valReg = true
  · cases ready <;> simp [held, handed, core, holds]
  · simp [held, handed, core, holds]

/-- The frame on the line goes on, or it is over and counts among those before. -/
theorem follows_cases {bitTime bits : ℕ} (follows : sending.Follows bitTime bits next) :
    (∃ byte offset, sending = .frame byte offset ∧ next = .frame byte (offset + 1)) ∨
      next.current = next.starting := by
  have ended : next.Between → next.current = next.starting := by
    intro between
    cases between with
    | inl silent => rw [silent]; rfl
    | inr begins =>
      obtain ⟨byte, begins⟩ := begins
      rw [begins]
      rfl
  cases sending with
  | silent => exact .inr (ended follows)
  | frame byte offset =>
    rw [Sending.Follows] at follows
    split at follows
    · exact .inl ⟨byte, offset, rfl, follows⟩
    · exact .inr (ended follows)

theorem resting_next {kept : List Byte} {core : Core} (idle : core.bitsReg = 0)
    (follows : sending.Follows config.bitTime 10 next) (sub : kept.Sublist before) :
    ∃ before', before' ++ next.current = before ++ sending.current ++ next.starting ∧
      Listens config core before' kept next := by
  cases follows_cases follows with
  | inl goesOn =>
    obtain ⟨byte, offset, rfl, rfl⟩ := goesOn
    exact ⟨before, (List.append_nil _).symm, .quiet idle sub⟩
  | inr ended =>
    exact ⟨before ++
      sending.current, by rw [ended], .quiet idle (sub.trans (List.sublist_append_left _ _))⟩

/-- A reception that starts inside a frame. -/
theorem starting_next {rx : Rx} (rxd ready : Bool) {sending : Sending}
    (sub : (earlier ++ held rx.core).Sublist before) (starting : rx.starts = true)
    (inside : StartsInside config sending) (follows : sending.Follows config.bitTime 10 next) :
    ∃ before', before' ++ next.current = before ++ sending.current ++ next.starting ∧
      Listens config (rx.step config rxd ready).core before'
        (earlier ++ handed rx.core ready ++ held (rx.step config rxd ready).core) next := by
  simp only [starts, Bool.and_eq_true, decide_eq_true_eq, Bool.not_eq_true'] at starting
  obtain ⟨⟨⟨expired, stopped⟩, low⟩, free⟩ := starting
  cases sending with
  | silent => exact inside.elim
  | frame byte offset =>
    obtain ⟨early, late⟩ := inside
    rw [Sending.Follows, if_pos (by omega)] at follows
    subst follows
    have within :=
      @receiving_start config (fun elapsed => level config.bitTime byte (offset + elapsed)) rx rxd
        ready expired stopped low free
    refine ⟨before, (List.append_nil _).symm, .receiving ⟨early, late⟩ within ?_⟩
    rw [held_free within.free, handed_free free, List.append_nil, List.append_nil]
    rwa [held_free free, List.append_nil] at sub

/-- The reception of the frame on the line goes on, or its byte is complete. -/
theorem received_next {byte : Byte} {start offset k : ℕ} (rxd ready : Bool)
    (inside : StartsInside config (.frame byte start))
    (within : Receiving config
      (fun elapsed => level config.bitTime byte (start + elapsed)) offset k rx.core)
    (sub : (earlier ++ held rx.core).Sublist before)
    (seen : rx.rxReg = level config.bitTime byte (start + offset))
    (follows : (Sending.frame byte (start + offset)).Follows config.bitTime 10 next) :
    ∃ before', before' ++ next.current = before ++ [byte] ++ next.starting ∧
      Listens config (rx.step config rxd ready).core before'
        (earlier ++ handed rx.core ready ++ held (rx.step config rxd ready).core) next := by
  have free := within.free
  obtain ⟨early, late⟩ := inside
  have elapsed := receiving_early within
  simp only [UartConfig.lastSample] at elapsed
  rw [Sending.Follows, if_pos (by omega)] at follows
  subst follows
  rw [held_free free, List.append_nil] at sub
  rw [handed_free free, List.append_nil]
  refine ⟨before, (List.append_nil _).symm, ?_⟩
  cases @receiving_next config _ offset k rx rxd ready within seen with
  | inl more =>
    obtain ⟨k', goesOn⟩ := more
    rw [Nat.add_assoc start]
    refine .receiving ⟨early, late⟩ goesOn ?_
    rwa [held_free goesOn.free, List.append_nil]
  | inr complete =>
    -- the last sample: the byte of the frame is kept from now on
    obtain ⟨now, received⟩ := complete
    have same := received_byte received early late
    refine .heard received.bits (by simp only [UartConfig.lastSample] at now; omega) ?_
    rw [held, received.held, if_pos rfl, same]
    exact sub.append (List.Sublist.refl _)

theorem listens_next (rxd ready : Bool)
    (listens : Listens config rx.core before (earlier ++ held rx.core) sending)
    (seen : rx.rxReg = sending.level config.bitTime)
    (inside : rx.starts = true → StartsInside config sending)
    (follows : sending.Follows config.bitTime 10 next) :
    ∃ before', before' ++ next.current = before ++ sending.current ++ next.starting ∧
      Listens config (rx.step config rxd ready).core before'
        (earlier ++ handed rx.core ready ++ held (rx.step config rxd ready).core) next := by
  cases listens with
  | quiet idle sub =>
    cases starting : rx.starts with
    | false =>
      obtain ⟨still, moved⟩ := @resting_step config rx rxd ready idle starting
      rw [List.append_assoc earlier, ← moved]
      exact resting_next still follows sub
    | true => exact starting_next rxd ready sub starting (inside starting) follows
  | receiving first within sub => exact received_next rxd ready first within sub seen follows
  | @heard byte offset idle late sub =>
    cases starting : rx.starts with
    | true => exact absurd (inside starting).2 (by omega)
    | false =>
      obtain ⟨still, moved⟩ := @resting_step config rx rxd ready idle starting
      rw [List.append_assoc earlier, ← moved]
      cases follows_cases follows with
      | inl goesOn =>
        obtain ⟨_, _, same, rfl⟩ := goesOn
        cases same
        exact ⟨before, (List.append_nil _).symm, .heard still (by omega) sub⟩
      | inr ended => exact ⟨before ++ [byte], by rw [ended]; rfl, .quiet still sub⟩

end Edges

end Rx

/-! ## The run -/

section Synchronised

variable {bitTime bits : ℕ} {line : ℕ → Bool} {sender : ℕ → Sending}

theorem synchronised_follows (sends : Sends bitTime bits line sender) (n : ℕ) :
    (synchronised sender n).Follows bitTime bits (synchronised sender (n + 1)) := by
  cases n with
  | zero => exact .inl rfl
  | succ n =>
    cases n with
    | zero => exact sends.first
    | succ n => exact sends.follows n

theorem begun_synchronised (sender : ℕ → Sending) (n : ℕ) :
    begun sender n = begun sender (n - 1) ++ (synchronised sender (n + 1)).starting := by
  -- the receiver has seen all but the latest two samples
  cases n with
  | zero => rfl
  | succ n => rfl

theorem begun_isPrefix (sender : ℕ → Sending) (n : ℕ) :
    begun sender (n - 1) <+: begun sender n := by
  rw [begun_synchronised sender n]
  exact List.prefix_append _ _

end Synchronised

namespace Uart

section Definitions

variable (config : UartConfig) (inputs : ℕ → Inputs)

/-- The bytes that reads of `RX_DATA` have taken out of the queue in the first `n` cycles. -/
def dequeued (n : ℕ) : List Byte :=
  Clocked.logAt (step config)
    (fun uart _ => if uart.rxFifo.deq.valid && uart.deqReady then [uart.rxFifo.deq.bits]
      else []) reset inputs n

/-- The CPU gets a subsequence of the bytes sent. -/
def InventsNothing (sender : ℕ → Sending) : Prop :=
  ∀ n, (dequeued config inputs n).Sublist (begun sender n)

end Definitions

variable {config : UartConfig} {inputs : ℕ → Inputs} {sender : ℕ → Sending}

theorem rxReg_synchronised (sends : Sends config.bitTime 10 (fun n => (inputs n).rxd) sender)
    (n : ℕ) :
    (stateAt config inputs n).rx.rxReg = (synchronised sender n).level config.bitTime := by
  -- the receiver sees the line of two cycles ago
  cases n with
  | zero => rfl
  | succ n =>
    cases n with
    | zero => rfl
    | succ n => exact sends.level n

theorem queue_next (n : ℕ) :
    dequeued config inputs (n + 1) ++ (stateAt config inputs (n + 1)).rxFifo.contents =
      dequeued config inputs n ++ (stateAt config inputs n).rxFifo.contents ++
        Rx.handed (stateAt config inputs n).rx.core (stateAt config inputs n).enqReady := by
  have moved := (stateAt config inputs n).rxFifo.contents_step (stateAt config inputs n).rxChannel
    (stateAt config inputs n).deqReady
  rw [List.append_assoc (dequeued config inputs n)]
  refine Eq.trans (List.append_assoc _ _ _) (congrArg (dequeued config inputs n ++ ·) ?_)
  exact moved.symm

theorem kept_always (sends : Sends config.bitTime 10 (fun n => (inputs n).rxd) sender)
    (inside : ∀ n, (stateAt config inputs n).rx.starts = true →
      StartsInside config (synchronised sender n)) (n : ℕ) :
    ∃ before, before ++ (synchronised sender n).current = begun sender (n - 1) ∧
      Rx.Listens config (stateAt config inputs n).rx.core before
        (dequeued config inputs n ++ (stateAt config inputs n).rxFifo.contents ++
          Rx.held (stateAt config inputs n).rx.core) (synchronised sender n) := by
  -- every byte that was taken out, is in the queue or is held has been sent
  induction n with
  | zero =>
    have empty : Queue.reset.contents = [] := by decide
    refine ⟨[], rfl, .quiet rfl ?_⟩
    change ([] ++ Queue.reset.contents ++ []).Sublist []
    rw [empty]
    exact List.Sublist.refl _
  | succ n inductionHypothesis =>
    obtain ⟨before, all, listens⟩ := inductionHypothesis
    obtain ⟨before', all', listens'⟩ :=
      Rx.listens_next (inputs n).rxd (stateAt config inputs n).enqReady listens
        (rxReg_synchronised sends n) (inside n) (synchronised_follows sends n)
    refine ⟨before', ?_, ?_⟩
    · rw [all', all, Nat.add_sub_cancel, ← begun_synchronised]
    · rw [queue_next]
      exact listens'

/-- The CPU gets a subsequence of the bytes sent, if the receiver always starts early enough in a
    start bit. -/
theorem invents_nothing (config : UartConfig) (inputs : ℕ → Inputs) (sender : ℕ → Sending)
    (sends : Sends config.bitTime 10 (fun n => (inputs n).rxd) sender)
    (inside : ∀ n, (stateAt config inputs n).rx.starts = true →
      StartsInside config (synchronised sender n)) :
    InventsNothing config inputs sender := by
  intro n
  obtain ⟨before, all, listens⟩ := kept_always sends inside n
  have sent := listens.sublist
  rw [all, List.append_assoc] at sent
  exact ((List.sublist_append_left _ _).trans sent).trans (begun_isPrefix sender n).sublist

/-- Six bytes in a row, and one more after a pause. -/
def pausedBytes (slot : ℕ) : Option Byte :=
  if slot < 6 ∨ slot = 7 then some (.ofNat 8 (0x41 + slot)) else none

/-- `RX_DATA` is read from the pause on, so that the bytes before fill the queue and the
    receiver. -/
def fullQueue (n : ℕ) : Inputs where
  channels :=
    { ARVALID := 190 ≤ n
      ARADDR := REG_RX_DATA
      RREADY := true
      AWVALID := false
      AWADDR := 0#8
      WVALID := false
      WDATA := 0#32
      WSTRB := 0#4
      BREADY := false }
  rxd := (slotted 30 pausedBytes n).level 3

theorem fullQueue_sends : Sends fastest.bitTime 10 (fun n => (fullQueue n).rxd)
    (slotted 30 pausedBytes) :=
  @slotted_sends fastest.bitTime 10 (by decide) pausedBytes _ fun _ => rfl

theorem fullQueue_inside (n : ℕ) (starts : (stateAt fastest fullQueue n).rx.starts = true) :
    StartsInside fastest (synchronised (slotted 30 pausedBytes) n) := by
  by_cases early : n < 242
  · revert starts
    revert n
    decide +kernel
  · -- the line is high again
    obtain ⟨m, rfl⟩ : ∃ m, n = m + 2 := ⟨n - 2, by omega⟩
    have high := rxReg_synchronised fullQueue_sends (m + 2)
    have silent : pausedBytes (m / 30) = none := if_neg (by omega)
    rw [synchronised, slotted, silent] at high
    rw [Rx.starts, high] at starts
    simp [Sending.level] at starts

/-- The sixth byte is lost, and the next one comes through. -/
theorem fullQueue_received :
    InventsNothing fastest fullQueue (slotted 30 pausedBytes) ∧
      dequeued fastest fullQueue 250 = [0x41#8, 0x42#8, 0x43#8, 0x44#8, 0x45#8, 0x48#8] :=
  ⟨invents_nothing fastest fullQueue
    (slotted 30 pausedBytes) fullQueue_sends fullQueue_inside, by decide +kernel⟩

/-- Six frames of zeros; the first read comes in the middle of the sixth one. -/
def lateRead (n : ℕ) : Inputs where
  channels :=
    { ARVALID := 155 ≤ n
      ARADDR := REG_RX_DATA
      RREADY := true
      AWVALID := false
      AWADDR := 0#8
      WVALID := false
      WDATA := 0#32
      WSTRB := 0#4
      BREADY := false }
  rxd := if n < 180 then level 3 0#8 (n % 30) else true

def lateReadSender (n : ℕ) : Sending := if n < 180 then .frame 0#8 (n % 30) else .silent

theorem lateRead_sends : Sends fastest.bitTime 10 (fun n => (lateRead n).rxd) lateReadSender := by
  have sender : lateReadSender = slotted 30 fun slot => if slot < 6 then some 0#8 else none := by
    funext n
    have slot : n / 30 < 6 ↔ n < 180 := Nat.div_lt_iff_lt_mul (by decide)
    by_cases inside : n < 180
    · simp only [lateReadSender, slotted, if_pos inside, if_pos (slot.mpr inside)]
    · simp only [lateReadSender, slotted, if_neg inside, if_neg (mt slot.mp inside)]
  rw [sender]
  refine @slotted_sends fastest.bitTime 10 (by decide) _ _ fun n => ?_
  rw [← show lateReadSender n = slotted (10 * fastest.bitTime) _ n from congrFun sender n]
  simp only [lateRead, lateReadSender]
  split_ifs
  · rfl
  · rfl

/-- The read lets the receiver start at the second data bit, and the CPU gets a byte that was never
    sent. -/
theorem lateRead_invented :
    Sends fastest.bitTime 10 (fun n => (lateRead n).rxd) lateReadSender ∧
      ¬ InventsNothing fastest lateRead lateReadSender := by
  refine ⟨lateRead_sends, fun nothing => ?_⟩
  have taken : 0xc0#8 ∈ dequeued fastest lateRead 187 := by decide +kernel
  have unsent : 0xc0#8 ∉ begun lateReadSender 187 := by decide +kernel
  exact unsent ((nothing 187).subset taken)

end Uart

end MyCpu
