import Mathlib.Data.List.Infix
import Mathlib.Data.BitVec
import Mathlib.Tactic.Ring

/-! # Asynchronous serial lines

A frame is a low start bit, eight data bits with the low one first, and a number
of high stop bits, each of a fixed length in samples.  `Framed` says which bytes
a list of samples carries: frames with any number of high samples between them.
The bytes are determined by the samples. -/

namespace SerialLine

/-! ## Frames -/

/-- The level of bit `k` of a frame. -/
def frameBit (byte : BitVec 8) (k : ℕ) : Bool :=
  if k = 0 then false else if k ≤ 8 then byte.getLsbD (k - 1) else true

/-- The level `offset` samples after the start of a frame. -/
def level (bitTime : ℕ) (byte : BitVec 8) (offset : ℕ) : Bool := frameBit byte (offset / bitTime)

/-- The samples of a frame of `bits` bits. -/
def frame (bitTime bits : ℕ) (byte : BitVec 8) : List Bool :=
  (List.range (bits * bitTime)).map (level bitTime byte)

section Frames

variable {bitTime bits : ℕ} {byte : BitVec 8}

/-- The level is that of the bit whose cell the sample lies in. -/
theorem level_cell {k offset : ℕ} (lower : k * bitTime ≤ offset)
    (upper : offset < (k + 1) * bitTime) :
    level bitTime byte offset = frameBit byte k := by
  rw [level, Nat.div_eq_of_lt_le lower upper]

theorem level_data {k offset : ℕ} (data : k < 8) (lower : (k + 1) * bitTime ≤ offset)
    (upper : offset < (k + 2) * bitTime) : level bitTime byte offset = byte.getLsbD k := by
  rw [level_cell lower upper, frameBit, if_neg (Nat.succ_ne_zero k),
    if_pos (by omega), Nat.add_sub_cancel]

theorem level_start {offset : ℕ} (start : offset < bitTime) :
    level bitTime byte offset = false := by
  rw [@level_cell bitTime byte 0 offset (by omega) (by omega)]
  rfl

theorem level_stop {offset : ℕ} (positive : 0 < bitTime) (stop : 9 * bitTime ≤ offset) :
    level bitTime byte offset = true := by
  have high : 9 ≤ offset / bitTime := (Nat.le_div_iff_mul_le positive).mpr stop
  rw [level, frameBit, if_neg (by omega), if_neg (by omega)]

theorem frame_length : (frame bitTime bits byte).length = bits * bitTime := by
  rw [frame, List.length_map, List.length_range]

theorem frame_get {offset : ℕ} (inside : offset < bits * bitTime) :
    (frame bitTime bits byte)[offset]? = some (level bitTime byte offset) := by
  rw [frame, List.getElem?_map, List.getElem?_range inside]
  rfl

theorem frame_take_succ {offset : ℕ} (inside : offset < bits * bitTime) :
    (frame bitTime bits byte).take (offset + 1) =
      (frame bitTime bits byte).take offset ++ [level bitTime byte offset] := by
  rw [List.take_add_one, frame_get inside]
  rfl

/-- A frame is read off its samples. -/
theorem frame_injective {other : BitVec 8} (positive : 0 < bitTime) (enough : 9 ≤ bits)
    (same : frame bitTime bits byte = frame bitTime bits other) : byte = other := by
  apply BitVec.eq_of_getLsbD_eq
  intro k data
  have inside : (k + 1) * bitTime < bits * bitTime :=
    Nat.mul_lt_mul_of_pos_right (by omega) positive
  have sample := congrArg (fun line => getElem? line ((k + 1) * bitTime)) same
  simp only [frame_get inside, Option.some.injEq] at sample
  have cell : (k + 1) * bitTime < (k + 2) * bitTime :=
    Nat.mul_lt_mul_of_pos_right (by omega) positive
  rw [level_data data (Nat.le_refl _) cell, level_data data (Nat.le_refl _) cell] at sample
  exact sample

/-- A frame begins with a low sample. -/
theorem frame_head (positive : 0 < bitTime) (enough : 9 ≤ bits) :
    ∃ rest, frame bitTime bits byte = false :: rest := by
  have inside : 0 < bits * bitTime := Nat.mul_pos (by omega) positive
  have first := @frame_get bitTime bits byte 0 inside
  rw [level_start positive] at first
  cases samples : frame bitTime bits byte with
  | nil => simp [samples] at first
  | cons sample rest =>
    rw [samples, List.getElem?_cons_zero, Option.some.injEq] at first
    exact ⟨rest, by rw [first]⟩

end Frames

/-! ## Lines -/

/-- The line carries the bytes: frames of `bits` bits with high samples between them. -/
inductive Framed (bitTime bits : ℕ) : List Bool → List (BitVec 8) → Prop where
  | nil : Framed bitTime bits [] []
  | high {line : List Bool} {bytes : List (BitVec 8)} (rest : Framed bitTime bits line bytes) :
    Framed bitTime bits (true :: line) bytes
  | frame {line : List Bool} {bytes : List (BitVec 8)} (byte : BitVec 8)
      (rest : Framed bitTime bits line bytes) :
    Framed bitTime bits (frame bitTime bits byte ++ line) (byte :: bytes)

namespace Framed

variable {bitTime bits : ℕ} {line line' : List Bool} {bytes bytes' : List (BitVec 8)}

theorem append (framed : Framed bitTime bits line bytes)
    (framed' : Framed bitTime bits line' bytes') :
    Framed bitTime bits (line ++ line') (bytes ++ bytes') := by
  induction framed with
  | nil => exact framed'
  | high _ inductionHypothesis => exact .high inductionHypothesis
  | frame byte _ inductionHypothesis =>
    rw [List.append_assoc, List.cons_append]
    exact .frame byte inductionHypothesis

theorem append_high (framed : Framed bitTime bits line bytes) :
    Framed bitTime bits (line ++ [true]) bytes := by
  have longer := framed.append (@Framed.high bitTime bits [] [] .nil)
  rwa [List.append_nil] at longer

theorem append_frame (framed : Framed bitTime bits line bytes) (byte : BitVec 8) :
    Framed bitTime bits (line ++ SerialLine.frame bitTime bits byte) (bytes ++ [byte]) := by
  have longer := framed.append (.frame byte .nil)
  rwa [List.append_nil] at longer

theorem unique (positive : 0 < bitTime) (enough : 9 ≤ bits)
    (framed : Framed bitTime bits line bytes)
    (framed' : Framed bitTime bits line bytes') : bytes = bytes' := by
  induction framed generalizing bytes' with
  | nil =>
    generalize samples : ([] : List Bool) = line at framed'
    cases framed' with
    | nil => rfl
    | high => cases samples
    | frame byte =>
      obtain ⟨tail, head⟩ := @frame_head bitTime bits byte positive enough
      rw [head] at samples
      cases samples
  | @high line bytes rest inductionHypothesis =>
    generalize samples : true :: line = whole at framed'
    cases framed' with
    | nil => cases samples
    | high rest' =>
      cases samples
      exact inductionHypothesis rest'
    | frame byte =>
      obtain ⟨tail, head⟩ := @frame_head bitTime bits byte positive enough
      rw [head] at samples
      cases samples
  | @frame line bytes byte rest inductionHypothesis =>
    generalize samples : SerialLine.frame bitTime bits byte ++ line = whole at framed'
    cases framed' with
    | nil =>
      obtain ⟨tail, head⟩ := @frame_head bitTime bits byte positive enough
      rw [head] at samples
      cases samples
    | high =>
      obtain ⟨tail, head⟩ := @frame_head bitTime bits byte positive enough
      rw [head] at samples
      cases samples
    | @frame line' bytes' byte' rest' =>
      -- frames have one length, so the two line up
      obtain ⟨same, tails⟩ := List.append_inj samples (by rw [frame_length, frame_length])
      rw [frame_injective positive enough same, inductionHypothesis (tails ▸ rest')]

end Framed

/-! ## Senders

A sender on the line is silent, or a number of samples into a frame.  After a
frame the next one may follow at once. -/

inductive Sending where
  | silent
  | frame (byte : BitVec 8) (offset : ℕ)
deriving DecidableEq, Repr

namespace Sending

/-- The level of the line. -/
def level (bitTime : ℕ) : Sending → Bool
  | .silent => true
  | .frame byte offset => SerialLine.level bitTime byte offset

/-- No frame goes on in the next sample. -/
def Between (next : Sending) : Prop := next = .silent ∨ ∃ byte, next = .frame byte 0

/-- One sample later. -/
def Follows (bitTime bits : ℕ) : Sending → Sending → Prop
  | .silent, next => next.Between
  | .frame byte offset, next =>
    if offset + 1 < bits * bitTime then next = .frame byte (offset + 1) else next.Between

theorem follows_within {bitTime bits : ℕ} {byte : BitVec 8} {offset : ℕ}
    (more : offset + 1 < bits * bitTime) :
    Follows bitTime bits (.frame byte offset) (.frame byte (offset + 1)) := by
  rw [Follows, if_pos more]

/-- The byte whose frame is on the line. -/
def current : Sending → List (BitVec 8)
  | .silent => []
  | .frame byte _ => [byte]

/-- The byte whose frame begins with this sample. -/
def starting : Sending → List (BitVec 8)
  | .frame byte 0 => [byte]
  | _ => []

/-- A bound on the samples until the sender is silent or begins another frame. -/
def left (bitTime bits : ℕ) : Sending → ℕ
  | .silent => 0
  | .frame _ offset => bits * bitTime - offset + 1

theorem left_lt {bitTime bits : ℕ} {sending next : Sending}
    (follows : sending.Follows bitTime bits next)
    (busy : sending ≠ .silent) (same : next.starting = []) : next.left bitTime bits <
      sending.left bitTime bits := by
  cases sending with
  | silent => exact absurd rfl busy
  | frame byte offset =>
    rw [Follows] at follows
    split_ifs at follows with more
    · rw [follows, left, left]
      omega
    · cases follows with
      | inl silent =>
        rw [silent]
        exact Nat.succ_pos _
      | inr begins =>
        obtain ⟨other, rfl⟩ := begins
        cases same

end Sending

/-- The line consists of frames of `bits` bits with high samples between them. -/
structure Sends (bitTime bits : ℕ) (line : ℕ → Bool) (sender : ℕ → Sending) : Prop where
  first : (sender 0).Between
  follows : ∀ n, (sender n).Follows bitTime bits (sender (n + 1))
  level : ∀ n, line n = (sender n).level bitTime

/-- The bytes whose frames have begun in the first `n` samples. -/
def begun (sender : ℕ → Sending) : ℕ → List (BitVec 8)
  | 0 => []
  | n + 1 => begun sender n ++ (sender n).starting

/-- In each slot of the length of a frame stands a frame or nothing. -/
def slotted (length : ℕ) (frames : ℕ → Option (BitVec 8)) (n : ℕ) : Sending :=
  match frames (n / length) with
  | some byte => .frame byte (n % length)
  | none => .silent

/-- The next sample is in the same slot or the first of the next one. -/
theorem slot_next {length : ℕ} (positive : 0 < length) (n : ℕ) :
    (n % length + 1 < length → (n + 1) / length = n / length ∧ (n + 1) % length = n % length + 1) ∧
      (¬ n % length + 1 < length → (n + 1) % length = 0) := by
  have place : n + 1 = length * (n / length) + (n % length + 1) := by
    rw [← Nat.add_assoc, Nat.div_add_mod]
  constructor
  · intro more
    constructor
    · rw [place, Nat.mul_add_div positive, Nat.div_eq_of_lt more, Nat.add_zero]
    · rw [place, Nat.mul_add_mod, Nat.mod_eq_of_lt more]
  · intro last
    have full : n % length + 1 = length := by
      have below := Nat.mod_lt n positive
      omega
    rw [place, full, ← Nat.mul_succ, Nat.mul_mod_right]

theorem slotted_between {length : ℕ} {frames : ℕ → Option (BitVec 8)} {n : ℕ}
    (starts : n % length = 0) :
    (slotted length frames n).Between := by
  rw [slotted, starts]
  cases frames (n / length) with
  | none => exact Or.inl rfl
  | some byte => exact Or.inr ⟨byte, rfl⟩

/-- A line with frames in such slots. -/
theorem slotted_sends {bitTime bits : ℕ} (positive : 0 < bits * bitTime)
    {frames : ℕ → Option (BitVec 8)}
    {line : ℕ → Bool} (level : ∀ n, line n = (slotted (bits * bitTime) frames n).level bitTime) :
    Sends bitTime bits line (slotted (bits * bitTime) frames) where
  first := slotted_between (Nat.zero_mod _)
  follows := by
    intro n
    obtain ⟨goesOn, ends⟩ := slot_next positive n
    by_cases more : n % (bits * bitTime) + 1 < bits * bitTime
    · obtain ⟨slot, offset⟩ := goesOn more
      rw [slotted, slotted, slot, offset]
      cases frames (n / (bits * bitTime)) with
      | none => exact Or.inl rfl
      | some byte => exact Sending.follows_within more
    · have next := @slotted_between (bits * bitTime) frames (n + 1) (ends more)
      rw [slotted]
      cases frames (n / (bits * bitTime)) with
      | none => exact next
      | some byte =>
        simp only [Sending.Follows]
        rwa [if_neg more]
  level := level

end SerialLine
