import MyCpu.Verified.TRexRedraw

/-! # The score of the T-Rex game

A cactus takes 73 iterations from the right edge until it is gone, and it can be run into in three
of them.  So what happens depends only on the iterations since the last collision and on the height
of the dinosaur in these three. -/

namespace MyCpu.TRex

namespace Scored

variable {scored : Scored}

/-! ## One iteration -/

/-- The dinosaur runs into the cactus in the iteration with this key. -/
def Struck (scored : Scored) (key : Option Byte) : Prop :=
  let game := (scored.game.handle_input key).update_physics
  game.cactus_x > 5 ∧ 13 > game.cactus_x + 4 ∧ game.dino_y + 8 > cactus_y

instance (key : Option Byte) : Decidable (scored.Struck key) := inferInstanceAs (Decidable (_ ∧ _))

/-- The score changes nothing in the game. -/
theorem step_game (key : Option Byte) : (scored.step key).game = scored.game.step key := by
  have collided : ∀ other : Scored, other.collide.game = other.game.collide := by
    intro other
    rw [collide, Game.collide]
    split_ifs <;> rfl
  have moved : ∀ other : Scored, other.moveCactus.game = other.game.moveCactus := by
    intro other
    rw [moveCactus, Game.moveCactus]
    split_ifs <;> rfl
  rw [step, Game.step, Game.move, moved, collided]

theorem physics_cactus (game : Game) (key : Option Byte) :
    (game.handle_input key).update_physics.cactus_x = game.cactus_x := by
  have input : (game.handle_input key).cactus_x = game.cactus_x := by
    cases key with
    | none => rfl
    | some key =>
      rw [Game.handle_input, Game.duck_input, Game.jump_input]
      split_ifs <;> rfl
  rw [Game.update_physics]
  split_ifs <;> exact input

/-- The rest of an iteration. -/
def finish (game : Game) : Game :=
  { game.draw.upload.send [(VgaReg.CTRL, 0#32 <<< 4 ||| 0x01#32)] with
    body_picture := game.draw.upload.body_picture + 1 }

/-- It only draws. -/
theorem finish_same (game : Game) :
    (finish game).cactus_x = game.cactus_x ∧ (finish game).dino_y = game.dino_y ∧
      (finish game).y_velocity = game.y_velocity := by
  rw [finish, Game.upload, Game.draw]
  split_ifs <;> exact ⟨rfl, rfl, rfl⟩

/-- What an iteration has moved before it is drawn. -/
def moved (scored : Scored) (key : Option Byte) : Scored :=
  { scored with game := (scored.game.handle_input key).update_physics }.collide.moveCactus

theorem step_finish (key : Option Byte) :
    scored.step key = { scored.moved key with game := finish (scored.moved key).game } := rfl

/-- An iteration in which the dinosaur runs into the cactus. -/
theorem step_struck {key : Option Byte} (struck : scored.Struck key) :
    (scored.step key).game.cactus_x = 63 ∧ (scored.step key).score = 0 ∧
      (scored.step key).sent = scored.sent ++ die_texts := by
  have collided : { scored with game := (scored.game.handle_input key).update_physics }.collide =
      { game := { (scored.game.handle_input key).update_physics with cactus_x := 64 }.draw_die
        score := 0
        sent := scored.sent ++ die_texts } := if_pos struck
  have fresh : { (scored.game.handle_input key).update_physics with
      cactus_x := 64 }.draw_die.cactus_x = 64 := rfl
  have moves : (scored.moved key).game.cactus_x = 63 ∧ (scored.moved key).score = 0 ∧
      (scored.moved key).sent = scored.sent ++ die_texts := by
    rw [moved, collided, moveCactus]
    simp only [fresh]
    exact ⟨rfl, rfl, rfl⟩
  rw [step_finish]
  exact ⟨(finish_same _).1.trans moves.1, moves.2⟩

/-- Any other iteration. -/
theorem step_clear {key : Option Byte} (clear : ¬ scored.Struck key) :
    (scored.step key).game.cactus_x =
      (if scored.game.cactus_x - 1 < -8 then 64 else scored.game.cactus_x - 1) ∧
      (scored.step key).score = (if scored.game.cactus_x - 1 < -8 then
        scored.score + 1 else scored.score) ∧
      (scored.step key).sent =
        scored.sent ++ if scored.game.cactus_x - 1 < -8 then
          print_score (scored.score + 1) else [] := by
  have collided : { scored with game := (scored.game.handle_input key).update_physics }.collide =
      { scored with game := (scored.game.handle_input key).update_physics } := if_neg clear
  have same := physics_cactus scored.game key
  rw [step_finish, moved, collided, moveCactus]
  simp only [(finish_same _).1, same]
  by_cases gone : scored.game.cactus_x - 1 < -8
  · simp only [if_pos gone, and_self]
  · simp only [if_neg gone, List.append_nil, and_self]

/-- The height and the speed are those of the physics. -/
theorem step_height (key : Option Byte) :
    (scored.step key).game.dino_y = (scored.game.handle_input key).update_physics.dino_y ∧
      (scored.step key).game.y_velocity =
        (scored.game.handle_input key).update_physics.y_velocity := by
  have same : (scored.moved key).game.dino_y =
      (scored.game.handle_input key).update_physics.dino_y ∧
      (scored.moved key).game.y_velocity =
        (scored.game.handle_input key).update_physics.y_velocity := by
    rw [moved, moveCactus, collide]
    split_ifs <;> exact ⟨rfl, rfl⟩
  obtain ⟨_, height, speed⟩ := finish_same (scored.moved key).game
  rw [step_finish]
  exact ⟨height.trans same.1, speed.trans same.2⟩

/-! ## One cactus after another -/

/-- The game, so many iterations after the last collision. -/
structure Follows (passed : ℕ) (scored : Scored) : Prop where
  cactus_x : scored.game.cactus_x = 64 - (passed % 73 : ℕ)
  score : scored.score = (passed / 73 : ℕ)

section Following

variable {passed : ℕ} {key : Option Byte}

theorem struck_iff (follows : Follows passed scored) :
    scored.Struck key ↔ (56 ≤ passed % 73 ∧ passed % 73 ≤ 58) ∧
      46 < (scored.step key).game.dino_y := by
  have place := follows.cactus_x
  rw [(step_height key).1]
  simp only [Struck, physics_cactus, place, cactus_y]
  omega

theorem follows_struck (struck : scored.Struck key) : Follows 1 (scored.step key) := by
  obtain ⟨place, score, _⟩ := step_struck struck
  exact ⟨place, score⟩

/-- The cactus leaves at the left edge every 73 iterations. -/
theorem gone_iff (follows : Follows passed scored) :
    scored.game.cactus_x - 1 < -8 ↔ (passed + 1) % 73 = 0 := by
  rw [follows.cactus_x]
  omega

theorem follows_clear (follows : Follows passed scored) (clear : ¬ scored.Struck key) :
    Follows (passed + 1) (scored.step key) := by
  obtain ⟨place, score, _⟩ := step_clear clear
  have gone := gone_iff follows
  rw [follows.cactus_x] at gone place
  rw [follows.score] at score
  rw [follows.cactus_x] at score
  by_cases last : (passed + 1) % 73 = 0
  · rw [if_pos (gone.mpr last)] at place score
    exact ⟨by omega, by omega⟩
  · rw [if_neg (mt gone.mp last)] at place score
    exact ⟨by omega, by omega⟩

end Following

section Run

variable (vga_framebuffer : Canvas) (vga : VgaStore) (keys : ℕ → Option Byte)

/-- The game after so many iterations. -/
def playAt (n : ℕ) : Scored := Clocked.stateAt step (start vga_framebuffer vga) keys n

def StruckAt (n : ℕ) : Prop := (playAt vga_framebuffer vga keys n).Struck (keys n)

instance (n : ℕ) : Decidable (StruckAt vga_framebuffer vga keys n) :=
  inferInstanceAs (Decidable (Scored.Struck _ _))

/-- The number of iterations since the last collision began, or since the start. -/
def sinceStruck : ℕ → ℕ
  | 0 => 0
  | n + 1 => if StruckAt vga_framebuffer vga keys n then 1 else sinceStruck n + 1

theorem playAt_succ (n : ℕ) :
    playAt vga_framebuffer vga keys (n + 1) = (playAt vga_framebuffer vga keys n).step (keys n) :=
      rfl

theorem play_follows (n : ℕ) :
    Follows (sinceStruck vga_framebuffer vga keys n) (playAt vga_framebuffer vga keys n) := by
  induction n with
  | zero =>
    rw [sinceStruck]
    exact ⟨rfl, rfl⟩
  | succ n inductionHypothesis =>
    rw [playAt_succ, sinceStruck]
    split_ifs with struck
    · exact follows_struck struck
    · exact follows_clear inductionHypothesis struck

/-- The score counts the cacti since the last collision, each is 73 iterations on its way, and the
    dinosaur runs into it exactly if it is too low in the iterations 57, 58 or 59 of these.  What is
    sent follows from it. -/
theorem score_law (n : ℕ) :
    (playAt vga_framebuffer vga keys n).score = (sinceStruck vga_framebuffer vga keys n / 73 : ℕ) ∧
      (StruckAt vga_framebuffer vga keys n ↔
        (56 ≤ sinceStruck vga_framebuffer vga keys n % 73 ∧
          sinceStruck vga_framebuffer vga keys n % 73 ≤ 58) ∧
          46 < (playAt vga_framebuffer vga keys (n + 1)).game.dino_y) ∧
      (playAt vga_framebuffer vga keys (n + 1)).sent =
        (playAt vga_framebuffer vga keys n).sent ++
          if StruckAt vga_framebuffer vga keys n then die_texts
          else if (sinceStruck vga_framebuffer vga keys n + 1) % 73 = 0 then
            print_score (sinceStruck vga_framebuffer vga keys n / 73 + 1 : ℕ)
          else [] := by
  have follows := play_follows vga_framebuffer vga keys n
  refine ⟨follows.score, struck_iff follows, ?_⟩
  rw [playAt_succ]
  by_cases struck : StruckAt vga_framebuffer vga keys n
  · rw [if_pos struck]
    exact (step_struck struck).2.2
  · rw [if_neg struck, (step_clear struck).2.2, follows.score]
    congr 1
    exact if_congr (gone_iff follows) rfl rfl

/-! ## Jumping over it -/

/-- One iteration of height and speed without a key. -/
def fall (place : ℤ × ℤ) : ℤ × ℤ :=
  if place.1 + place.2 < 50 then (place.1 + place.2, place.2 + 1) else (50, 0)

/-- Height and speed so many iterations after the one in which the jump begins. -/
def arc : ℕ → ℤ × ℤ
  | 0 => (44, -5)
  | j + 1 => fall (arc j)

theorem arc_high : ∀ j < 12, (arc j).1 ≤ 46 := by decide

theorem arc_landed (j : ℕ) : arc (12 + j) = (50, 0) := by
  induction j with
  | zero => decide
  | succ j inductionHypothesis =>
    rw [← Nat.add_assoc, arc, inductionHypothesis]
    decide

/-- A key with which the dinosaur jumps. -/
def Jump (key : Option Byte) : Prop := key = some 0x77#8 ∨ key = some 0x20#8

/-- No key, or one that does nothing. -/
def Idle (key : Option Byte) : Prop := ¬ Jump key ∧ key ≠ some 0x73#8

instance (key : Option Byte) : Decidable (Jump key) := inferInstanceAs (Decidable (_ ∨ _))

instance (key : Option Byte) : Decidable (Idle key) := inferInstanceAs (Decidable (_ ∧ _))

/-- Height and speed. -/
def place (scored : Scored) : ℤ × ℤ := (scored.game.dino_y, scored.game.y_velocity)

theorem place_height (scored : Scored) : scored.place.1 = scored.game.dino_y := rfl

theorem physics_place (game : Game) :
    (game.update_physics.dino_y, game.update_physics.y_velocity) = fall (game.dino_y, game.y_velocity) := by
  by_cases air : game.dino_y + game.y_velocity < 50
  · have moved : game.update_physics =
        { game with dino_y := game.dino_y + game.y_velocity, y_velocity := game.y_velocity + GRAVITY } := if_pos air
    rw [moved, fall, if_pos air]
    rfl
  · have landed : game.update_physics = { game with dino_y := GROUND_Y, y_velocity := 0 } :=
      if_neg air
    rw [landed, fall, if_neg air]
    rfl

theorem step_place (key : Option Byte) :
    (scored.step key).place =
      fall ((scored.game.handle_input key).dino_y, (scored.game.handle_input key).y_velocity) := by
  rw [← physics_place, place, (step_height key).1, (step_height key).2]

theorem step_idle {key : Option Byte} (idle : Idle key) :
    (scored.step key).place = fall scored.place := by
  have input : scored.game.handle_input key = scored.game := by
    cases key with
    | none => rfl
    | some key =>
      have jump : ¬ (key = 0x77#8 ∨ key = 0x20#8) :=
        fun jump => idle.1 (jump.imp (congrArg some) (congrArg some))
      have duck : key ≠ 0x73#8 := fun duck => idle.2 (congrArg some duck)
      rw [Game.handle_input, Game.jump_input, if_neg fun both => jump both.1,
        Game.duck_input, if_neg duck]
  rw [step_place, input, place]

theorem step_jump {key : Option Byte} (jump : Jump key) (ground : scored.game.dino_y = GROUND_Y) :
    (scored.step key).place = arc 0 := by
  have input : ((scored.game.handle_input key).dino_y, (scored.game.handle_input key).y_velocity) =
      (50, -6) := by
    obtain ⟨byte, rfl, up⟩ : ∃ byte, key = some byte ∧ (byte = 0x77#8 ∨ byte = 0x20#8) := by
      cases jump with
      | inl up => exact ⟨_, up, .inl rfl⟩
      | inr space => exact ⟨_, space, .inr rfl⟩
    have duck : byte ≠ 0x73#8 := by
      rintro rfl
      exact absurd up (by decide)
    rw [Game.handle_input, Game.jump_input, if_pos ⟨up, ground⟩, Game.duck_input, if_neg duck]
    simp only [ground, GROUND_Y, JUMP_IMPULSE]
  rw [step_place, input]
  decide

variable {vga_framebuffer : Canvas} {vga : VgaStore} {keys : ℕ → Option Byte} {n : ℕ}

/-- From the ground, and with no key behind it, a jump runs along its arc. -/
theorem jump_arc (ground : (playAt vga_framebuffer vga keys n).game.dino_y = GROUND_Y)
    (jump : Jump (keys n)) {j : ℕ}
    (idle : ∀ k, n < k → k ≤ n + j → Idle (keys k)) :
    (playAt vga_framebuffer vga keys (n + j + 1)).place = arc j := by
  induction j with
  | zero => exact step_jump jump ground
  | succ j inductionHypothesis =>
    rw [playAt_succ, step_idle (idle _ (by omega) (by omega)), arc]
    exact congrArg fall (inductionHypothesis fun k after before => idle k after (by omega))

/-- A jump begun while the cactus is ahead gets to its other side exactly if it is begun at the 17th
    column or later, if no other key moves the dinosaur until then. -/
theorem jump_clears (vga_framebuffer : Canvas) (vga : VgaStore) (keys : ℕ → Option Byte) (n : ℕ)
    (ground : (playAt vga_framebuffer vga keys n).game.dino_y = GROUND_Y) (jump : Jump (keys n))
    (ahead : 8 ≤ (playAt vga_framebuffer vga keys n).game.cactus_x)
    (idle : ∀ k : ℕ, n < k → k ≤ n + (playAt vga_framebuffer vga keys n).game.cactus_x - 6 →
      Idle (keys k)) :
    (∀ k : ℕ, n ≤ k → k ≤ n + (playAt vga_framebuffer vga keys n).game.cactus_x - 6 →
        ¬ StruckAt vga_framebuffer vga keys k) ↔
      (playAt vga_framebuffer vga keys n).game.cactus_x ≤ 17 := by
  have follows := play_follows vga_framebuffer vga keys n
  generalize passed : sinceStruck vga_framebuffer vga keys n = p at follows
  rw [follows.cactus_x] at ahead idle ⊢
  -- as long as nothing is struck the iterations are counted on
  have counted : ∀ j, (∀ k, n ≤ k → k < n + j → ¬ StruckAt vga_framebuffer vga keys k) →
      sinceStruck vga_framebuffer vga keys (n + j) = p + j := by
    intro j clear
    induction j with
    | zero => exact passed
    | succ j inductionHypothesis =>
      rw [← Nat.add_assoc, sinceStruck, if_neg (clear (n + j) (by omega) (by omega)),
        inductionHypothesis fun k after before => clear k after (by omega), Nat.add_assoc]
  have height : ∀ j, p % 73 + j ≤ 58 →
      (playAt vga_framebuffer vga keys (n + j + 1)).game.dino_y = (arc j).1 := by
    intro j bound
    have quiet : ∀ k, n < k → k ≤ n + j → Idle (keys k) :=
      fun k after before => idle k after (by omega)
    have along : (playAt vga_framebuffer vga keys (n + j + 1)).place = arc j :=
      jump_arc ground jump quiet
    rw [← along, place_height]
  constructor
  · intro clear
    by_contra early
    -- the dinosaur has landed when the cactus is under it
    obtain ⟨j, last⟩ : ∃ j, p % 73 + (12 + j) = 58 := ⟨46 - p % 73, by omega⟩
    have since := counted (12 + j) fun k after before => clear k after (by omega)
    have landed := height (12 + j) (by omega)
    rw [arc_landed] at landed
    refine clear (n + (12 + j)) (by omega) (by omega) ((struck_iff (play_follows _ _ _ _)).mpr ?_)
    rw [← playAt_succ, landed, since]
    omega
  · intro late k after before struck
    induction k using Nat.strong_induction_on with
    | _ k inductionHypothesis =>
      obtain ⟨j, rfl⟩ := Nat.exists_eq_add_of_le after
      have since := counted j fun i first second =>
        fun hit => inductionHypothesis i second first (by omega) hit
      have high := (struck_iff (play_follows _ _ _ _)).mp struck
      rw [← playAt_succ, height j (by omega), since] at high
      have raised := arc_high j (by omega)
      omega

/-! ### A player who never fails -/

/-- A jump in the same iteration of every cactus. -/
def autopilot (k : ℕ) : Option Byte := if k % 73 = 47 then some 0x77#8 else none

/-- Height and speed in each iteration of a cactus. -/
def flight (p : ℕ) : ℤ × ℤ := if 48 ≤ p ∧ p < 60 then arc (p - 48) else (50, 0)

theorem flight_fall : ∀ p < 73, p ≠ 47 → flight ((p + 1) % 73) = fall (flight p) := by decide

/-- The autopilot is never struck, and so every score is reached. -/
theorem autopilot_clear (vga_framebuffer : Canvas) (vga : VgaStore) (n : ℕ) :
    (sinceStruck vga_framebuffer vga autopilot n = n ∧
        (playAt vga_framebuffer vga autopilot n).place = flight (n % 73)) ∧
      ¬ StruckAt vga_framebuffer vga autopilot n := by
  induction n using Nat.strong_induction_on with
  | _ n inductionHypothesis =>
    have now : sinceStruck vga_framebuffer vga autopilot n = n ∧
        (playAt vga_framebuffer vga autopilot n).place = flight (n % 73) := by
      cases n with
      | zero => exact ⟨rfl, rfl⟩
      | succ n =>
        obtain ⟨⟨since, before⟩, clear⟩ := inductionHypothesis n (Nat.lt_succ_self n)
        rw [sinceStruck, if_neg clear, since, playAt_succ]
        refine ⟨rfl, ?_⟩
        by_cases press : n % 73 = 47
        · have ground : (playAt vga_framebuffer vga autopilot n).game.dino_y = GROUND_Y := by
            rw [← place_height, before, press]
            decide
          have jump : Jump (autopilot n) := by rw [autopilot, if_pos press]; decide
          rw [step_jump jump ground, show (n + 1) % 73 = 48 by omega]
          decide
        · have idle : Idle (autopilot n) := by rw [autopilot, if_neg press]; decide
          rw [step_idle idle, before, ← flight_fall _ (Nat.mod_lt n (by decide)) press]
          congr 1
          omega
    refine ⟨now, fun struck => ?_⟩
    -- the iterations in which it could be struck are those of the jump
    have high : ∀ p, 56 ≤ p → p ≤ 58 → (flight (p + 1)).1 ≤ 46 := by decide
    obtain ⟨⟨first, last⟩, low⟩ := (struck_iff (play_follows _ _ _ _)).mp struck
    rw [now.1] at first last
    have idle : Idle (autopilot n) := by rw [autopilot, if_neg (by omega)]; decide
    have next := congrArg Prod.fst (@step_idle (playAt vga_framebuffer vga autopilot n) _ idle)
    rw [place_height, now.2, ← flight_fall _ (by omega) (by omega),
      Nat.mod_eq_of_lt (by omega)] at next
    have raised := high _ first last
    omega

/-- The first jump of the autopilot. -/
theorem jump_cleared :
    ¬ StruckAt (fun _ => 0#8) ⟨VgaRegisters.reset, fun _ => 0#32⟩ autopilot 56 ∧
      ¬ StruckAt (fun _ => 0#8) ⟨VgaRegisters.reset, fun _ => 0#32⟩ autopilot 57 ∧
      ¬ StruckAt (fun _ => 0#8) ⟨VgaRegisters.reset, fun _ => 0#32⟩ autopilot 58 := by
  obtain ⟨⟨since, along⟩, _⟩ :=
    autopilot_clear (fun _ => 0#8) ⟨VgaRegisters.reset, fun _ => 0#32⟩ 47
  have cactus :=
    (play_follows (fun _ => 0#8) ⟨VgaRegisters.reset, fun _ => 0#32⟩ autopilot 47).cactus_x
  have ground :
      (playAt (fun _ => 0#8) ⟨VgaRegisters.reset, fun _ => 0#32⟩ autopilot 47).game.dino_y =
        GROUND_Y := by
    rw [← place_height, along]
    decide
  rw [since] at cactus
  have idle : ∀ k : ℕ, 47 < k → (k : ℤ) ≤ (47 : ℕ) + (64 - (47 % 73 : ℕ)) - 6 →
      Idle (autopilot k) := by
    intro k after before
    rw [autopilot, if_neg (by omega)]
    decide
  have jumped :=
    jump_clears (fun _ => 0#8) ⟨VgaRegisters.reset, fun _ => 0#32⟩ autopilot 47 ground (by decide)
      (by rw [cactus]; decide) (by rw [cactus]; exact idle)
  rw [cactus] at jumped
  have clear := jumped.mpr (by decide)
  exact ⟨clear 56 (by decide) (by decide), clear 57 (by decide) (by decide),
    clear 58 (by decide) (by decide)⟩

end Run

end Scored

end MyCpu.TRex
