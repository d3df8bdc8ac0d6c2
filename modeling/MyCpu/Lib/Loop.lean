import Mathlib.Data.Nat.Notation

/-! # Loops

A loop runs round by round, for a bounded number of rounds.  It has no result where a round is
undefined, as when it reads outside an array, and where the rounds run out: a result says that the
loop ends, and more rounds leave it as it is.  The rules ask for an invariant and for a measure that
every further round lowers. -/

namespace Loop

/-- How a round ends. -/
inductive Outcome (State Result : Type*) where
  | again (state : State)
  | stop (result : Result)

variable {State Result : Type*}

def run (round : State → Option (Outcome State Result)) : ℕ → State → Option Result
  | 0, _ => none
  | rounds + 1, state =>
    match round state with
    | some (.again next) => run round rounds next
    | some (.stop result) => some result
    | none => none

/-- A round of a loop with its condition in front. -/
def whileRound (goesOn : State → Bool) (body : State → State) (state : State) :
    Option (Outcome State State) :=
  some (if goesOn state then .again (body state) else .stop state)

section Rounds

variable {round : State → Option (Outcome State Result)} {rounds : ℕ} {state : State}

theorem run_again {next : State} (again : round state = some (.again next)) :
    run round (rounds + 1) state = run round rounds next := by
  rw [run, again]

theorem run_stop {result : Result} (stop : round state = some (.stop result)) :
    run round (rounds + 1) state = some result := by
  rw [run, stop]

/-- The loop ends, with a result as the last round promises it. -/
theorem run_total {Inv : State → Prop} {Post : Result → Prop} (measure : State → ℕ)
    (step : ∀ state, Inv state →
      (∃ next, round state = some (.again next) ∧ Inv next ∧ measure next < measure state) ∨
        ∃ result, round state = some (.stop result) ∧ Post result)
    (inv : Inv state) (enough : measure state < rounds) :
    ∃ result, run round rounds state = some result ∧ Post result := by
  induction rounds generalizing state with
  | zero => exact absurd enough (Nat.not_lt_zero _)
  | succ rounds inductionHypothesis =>
    cases step state inv with
    | inl goesOn =>
      obtain ⟨next, again, inv, lower⟩ := goesOn
      rw [run_again again]
      exact inductionHypothesis inv (by omega)
    | inr ends =>
      obtain ⟨result, stop, post⟩ := ends
      exact ⟨result, run_stop stop, post⟩

end Rounds

section While

variable {goesOn : State → Bool} {body : State → State}

theorem whileRound_again {state : State} (again : goesOn state = true) :
    whileRound goesOn body state = some (.again (body state)) := by
  rw [whileRound, if_pos again]

theorem whileRound_stop {state : State} (stop : goesOn state = false) :
    whileRound goesOn body state = some (.stop state) := by
  rw [whileRound, stop, if_neg Bool.false_ne_true]

/-- The loop ends with its invariant, and with its condition false. -/
theorem while_total {Inv : State → Prop} (measure : State → ℕ)
    (kept : ∀ state, Inv state → goesOn state = true → Inv (body state) ∧
      measure (body state) < measure state)
    {state : State} (inv : Inv state) {rounds : ℕ} (enough : measure state < rounds) :
    ∃ last, run (whileRound goesOn body) rounds state = some last ∧ Inv last ∧
      goesOn last = false := by
  refine @run_total _ _ _ _ _ Inv _ measure (fun state inv => ?_) inv enough
  cases decided : goesOn state with
  | true => exact .inl ⟨body state, whileRound_again decided, kept state inv decided⟩
  | false => exact .inr ⟨state, whileRound_stop decided, inv, decided⟩

end While

end Loop
