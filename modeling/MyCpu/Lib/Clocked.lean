import Mathlib.Data.List.Infix
import Mathlib.Data.Nat.Find
import Mathlib.Logic.Function.Iterate

/-! # Clocked machines

A synchronous machine is a function `step : State → Input → State` applied once
at every clock edge to an unbounded stream of inputs.  This module gives its
states and its event log, the induction rule for invariants, the response and the
progress rule for liveness, and forward simulation of a machine by an autonomous
specification that runs ahead of it.

In the simulation the specification has already performed steps whose events the
machine has not produced yet.  The relation carries these events as `pending`;
as long as every edge moves events from `pending` to the log in order, the log is
a prefix of the specification's. -/

namespace Clocked

variable {State Input Event Spec : Type*}

/-! ## Runs -/

/-- The state after `n` clock edges. -/
def stateAt (step : State → Input → State) (start : State) (inputs : ℕ → Input) : ℕ → State
  | 0 => start
  | n + 1 => step (stateAt step start inputs n) (inputs n)

/-- The events of the first `n` cycles. -/
def logAt (step : State → Input → State) (emit : State → Input → List Event) (start : State)
    (inputs : ℕ → Input) : ℕ → List Event
  | 0 => []
  | n + 1 => logAt step emit start inputs n ++ emit (stateAt step start inputs n) (inputs n)

section Runs

variable (step : State → Input → State) (emit : State → Input → List Event)
  (start : State) (inputs : ℕ → Input)

@[simp] theorem stateAt_zero : stateAt step start inputs 0 = start := rfl

theorem stateAt_succ (n : ℕ) :
    stateAt step start inputs (n + 1) = step (stateAt step start inputs n) (inputs n) := rfl

@[simp] theorem logAt_zero : logAt step emit start inputs 0 = [] := rfl

theorem logAt_succ (n : ℕ) :
    logAt step emit start inputs (n + 1) =
      logAt step emit start inputs n ++ emit (stateAt step start inputs n) (inputs n) := rfl

end Runs

/-! ## Invariants -/

/-- What holds at the start and is kept by every allowed edge holds in every state of a run whose
    edges are allowed. -/
theorem invariant_stateAt {step : State → Input → State} {Inv : State → Prop}
    {Allowed : State → Input → Prop} {start : State} {inputs : ℕ → Input} (initial : Inv start)
    (preserved : ∀ state input, Inv state → Allowed state input → Inv (step state input)) (n : ℕ)
    (allowed : ∀ k < n, Allowed (stateAt step start inputs k) (inputs k)) :
    Inv (stateAt step start inputs n) := by
  induction n with
  | zero => exact initial
  | succ n inductionHypothesis =>
    exact preserved _ _ (inductionHypothesis (fun k bound => allowed k (by omega)))
      (allowed n (Nat.lt_succ_self n))

/-- The rule without a side condition on the edges. -/
theorem invariant_always {step : State → Input → State} {Inv : State → Prop} {start : State}
    {inputs : ℕ → Input} (initial : Inv start)
    (preserved : ∀ state input, Inv state → Inv (step state input)) (n : ℕ) :
    Inv (stateAt step start inputs n) := by
  induction n with
  | zero => exact initial
  | succ n inductionHypothesis => exact preserved _ _ inductionHypothesis

/-- What holds at a time and is kept until another time holds then. -/
@[elab_as_elim]
theorem kept_until {motive : ℕ → Prop} {n m : ℕ} (later : n ≤ m) (holds : motive n)
    (kept : ∀ k, n ≤ k → k < m → motive k → motive (k + 1)) : motive m := by
  induction m, later using Nat.le_induction with
  | base => exact holds
  | succ m later inductionHypothesis =>
    have before := inductionHypothesis fun k after before => kept k after (Nat.lt_succ_of_lt before)
    exact kept m later (Nat.lt_succ_self m) before

/-- The rule for an invariant of the state together with the log so far. -/
theorem invariant_logAt {step : State → Input → State} {emit : State → Input → List Event}
    {Inv : State → List Event → Prop} {Allowed : Input → Prop} {start : State} {inputs : ℕ → Input}
    (initial : Inv start [])
    (preserved : ∀ state input log, Inv state log → Allowed input →
      Inv (step state input) (log ++ emit state input))
    (allowed : ∀ k, Allowed (inputs k)) (n : ℕ) :
    Inv (stateAt step start inputs n) (logAt step emit start inputs n) := by
  induction n with
  | zero => exact initial
  | succ n inductionHypothesis => exact preserved _ _ _ inductionHypothesis (allowed n)

theorem logAt_isPrefix (step : State → Input → State)
    (emit : State → Input → List Event) (start : State)
    (inputs : ℕ → Input) {n m : ℕ} (earlier : n ≤ m) :
    logAt step emit start inputs n <+: logAt step emit start inputs m := by
  induction earlier with
  | refl => exact List.prefix_rfl
  | step _ inductionHypothesis => exact inductionHypothesis.trans (List.prefix_append _ _)

/-! ## Observers -/

/-- What an observer of the machine remembers after `n` clock edges. -/
def observedAt {Memo : Type*} (step : State → Input → State)
    (observe : Memo → State → Input → Memo) (start : State)
    (first : Memo) (inputs : ℕ → Input) : ℕ → Memo
  | 0 => first
  | n + 1 => observe (observedAt step observe start first inputs n)
      (stateAt step start inputs n) (inputs n)

/-- The rule for an invariant of the state together with what an observer remembers of the run. -/
theorem invariant_observedAt {Memo : Type*} {step : State → Input → State}
    {observe : Memo → State → Input → Memo}
    {Inv : State → Memo → Prop} {Allowed : State → Input → Prop} {start : State}
    {first : Memo} {inputs : ℕ → Input}
    (initial : Inv start first)
    (preserved : ∀ state memo input, Inv state memo → Allowed state input →
      Inv (step state input) (observe memo state input)) (n : ℕ)
    (allowed : ∀ k < n, Allowed (stateAt step start inputs k) (inputs k)) :
    Inv (stateAt step start inputs n) (observedAt step observe start first inputs n) := by
  induction n with
  | zero => exact initial
  | succ n inductionHypothesis =>
    exact preserved _ _ _ (inductionHypothesis fun k bound => allowed k (Nat.lt_succ_of_lt bound))
      (allowed n (Nat.lt_succ_self n))

/-! ## Response -/

/-- What happens at some time happens a first time. -/
theorem first_from {Happens : ℕ → Prop} {n : ℕ} (eventually : ∃ m ≥ n, Happens m) :
    ∃ m ≥ n, Happens m ∧ ∀ k, n ≤ k → k < m → ¬ Happens k := by
  classical
  obtain ⟨later, happens⟩ := Nat.find_spec eventually
  exact ⟨_, later, happens, fun k after before now => Nat.find_min eventually before ⟨after, now⟩⟩

/-- A waiting state is followed by a target state when every edge keeps waiting until `Go` holds in
    some cycle, and the edge of that cycle reaches the target. -/
theorem response {step : State → Input → State} (Waiting Target : State → Prop)
    (Go : State → Input → Prop)
    (Allowed : Input → Prop) {start : State} {inputs : ℕ → Input}
    (allowed : ∀ k, Allowed (inputs k))
    (waits : ∀ state input, Waiting state → Allowed input → ¬ Go state input →
      Waiting (step state input))
    (fires : ∀ state input, Waiting state → Allowed input → Go state input →
      Target (step state input)) (n : ℕ)
    (waiting : Waiting (stateAt step start inputs n))
    (fair : ∃ m ≥ n, Go (stateAt step start inputs m) (inputs m)) :
    ∃ m > n, Target (stateAt step start inputs m) := by
  obtain ⟨last, later, fired⟩ := fair
  obtain ⟨distance, rfl⟩ := Nat.exists_eq_add_of_le later
  clear later
  induction distance generalizing n with
  | zero => exact ⟨n + 1, Nat.lt_succ_self n, fires _ _ waiting (allowed n) fired⟩
  | succ distance inductionHypothesis =>
    by_cases now : Go (stateAt step start inputs n) (inputs n)
    · exact ⟨n + 1, Nat.lt_succ_self n, fires _ _ waiting (allowed n) now⟩
    · have shifted : n + (distance + 1) = n + 1 + distance := by omega
      rw [shifted] at fired
      obtain ⟨m, later, reached⟩ :=
        inductionHypothesis (n + 1) (waits _ _ waiting (allowed n) now) fired
      exact ⟨m, by omega, reached⟩

/-! ## Progress -/

/-- A rank that no cycle lowers, and that every cycle with `Go` raises, passes every bound when `Go`
    keeps returning. -/
theorem unbounded {Reached : ℕ → ℕ → Prop} {Go : ℕ → Prop}
    (keeps : ∀ n rank, Reached n rank → ∃ rank' ≥ rank, Reached (n + 1) rank')
    (raises : ∀ n rank, Reached n rank → Go n → ∃ rank' > rank, Reached (n + 1) rank')
    (fair : ∀ n, ∃ k ≥ n, Go k) {rank : ℕ} (initial : Reached 0 rank) (bound : ℕ) :
    ∃ n, ∃ rank' ≥ bound, Reached n rank' := by
  have persists : ∀ {n k rank}, n ≤ k → Reached n rank → ∃ rank' ≥ rank, Reached k rank' := by
    intro n k rank later reached
    induction later with
    | refl => exact ⟨rank, le_rfl, reached⟩
    | step _ inductionHypothesis =>
      obtain ⟨middle, risen, reached'⟩ := inductionHypothesis
      obtain ⟨rank', risen', reached''⟩ := keeps _ _ reached'
      exact ⟨rank', risen.trans risen', reached''⟩
  induction bound with
  | zero => exact ⟨0, rank, Nat.zero_le rank, initial⟩
  | succ bound inductionHypothesis =>
    obtain ⟨n, low, enough, reached⟩ := inductionHypothesis
    obtain ⟨k, later, go⟩ := fair n
    obtain ⟨middle, risen, waiting⟩ := persists later reached
    obtain ⟨rank', raised, reached'⟩ := raises k middle waiting go
    exact ⟨k + 1, rank', by omega, reached'⟩

/-- A rank that every cycle lowers until something happens. -/
theorem runs_out {Due : ℕ → ℕ → Prop} {Happens : ℕ → Prop}
    (lowers : ∀ n rank, Due n rank → Happens n ∨ ∃ rank' < rank, Due (n + 1) rank')
    {n rank : ℕ} (due : Due n rank) :
    ∃ m ≥ n, Happens m := by
  induction rank using Nat.strong_induction_on generalizing n with
  | _ rank inductionHypothesis =>
    cases lowers n rank due with
    | inl now => exact ⟨n, le_rfl, now⟩
    | inr later =>
      obtain ⟨rank', less, due'⟩ := later
      obtain ⟨m, after, happens⟩ := inductionHypothesis rank' less due'
      exact ⟨m, by omega, happens⟩

/-- A log that is behind another one, and grows while it is, catches up with every part of it. -/
theorem catches_all {log target : ℕ → List Event} (grows : ∀ {n m}, n ≤ m → target n <+: target m)
    (behind : ∀ n, log n <+: target n)
    (more : ∀ n, log n ≠ target n → ∃ m ≥ n, (log n).length < (log m).length)
    (n : ℕ) : ∃ m ≥ n, target n <+: log m := by
  -- by induction on the number of events that are still missing
  have closer : ∀ missing m, n ≤ m → (target n).length ≤ (log m).length + missing →
      ∃ m ≥ n, target n <+: log m := by
    intro missing
    induction missing with
    | zero =>
      intro m later enough
      exact ⟨m, later, List.prefix_of_prefix_length_le (grows later) (behind m) enough⟩
    | succ missing inductionHypothesis =>
      intro m later enough
      by_cases caught : log m = target m
      · exact ⟨m, later, by rw [caught]; exact grows later⟩
      · obtain ⟨m', after, longer⟩ := more m caught
        exact inductionHypothesis m' (by omega) (by omega)
  exact closer (target n).length n le_rfl (Nat.le_add_left _ _)

/-- What a tick at one phase of the period brings about, and no cycle undoes, holds after every
    period. -/
theorem within_period {Done : ℕ → Prop} {count : ℕ → ℕ} {tick : ℕ → Bool}
    {first last start period phase : ℕ}
    (counts : ∀ k, count (k + 1) = count k + (tick k).toNat) (small : phase < period)
    (before : count first ≤ start)
    (stays : ∀ k, first ≤ k → k < last → start ≤ count k → Done k → Done (k + 1))
    (made : ∀ k, first ≤ k → k < last → start ≤ count k → tick k = true →
      count k % period = phase → Done (k + 1))
    {n : ℕ} (later : first ≤ n) (inside : n ≤ last)
    (enough : start + period ≤ count n) : Done n := by
  -- either it holds, or no tick since the start has had the phase
  have either : ∀ k, first ≤ k → k ≤ last → start ≤ count k →
      Done k ∨ ∀ t, start ≤ t → t < count k → t % period ≠ phase := by
    intro k after
    induction k, after using Nat.le_induction with
    | base =>
      intro _ reached
      exact .inr fun t above below => absurd below (by omega)
    | succ k after inductionHypothesis =>
      intro within reached
      rw [counts k] at reached ⊢
      cases ticks : tick k with
      | false =>
        rw [ticks, Bool.toNat_false] at reached
        refine (inductionHypothesis (by omega) reached).imp (stays k after within reached)
          fun none t above below => ?_
        exact none t above below
      | true =>
        by_cases started : start ≤ count k
        · cases inductionHypothesis (by omega) started with
          | inl done => exact .inl (stays k after within started done)
          | inr none =>
            by_cases now : count k % period = phase
            · exact .inl (made k after within started ticks now)
            · refine .inr fun t above below => ?_
              rw [Bool.toNat_true] at below
              cases Nat.lt_succ_iff_lt_or_eq.mp below with
              | inl earlier => exact none t above earlier
              | inr same => rwa [same]
        · refine .inr fun t above below => absurd below ?_
          rw [Bool.toNat_true]
          omega
  refine (either n later inside (by omega)).resolve_right fun none => ?_
  -- one of the numbers of a period has the phase
  have bounds := Nat.mod_lt (phase + period * start - start) (Nat.zero_lt_of_lt small)
  refine none (start + (phase + period * start - start) % period)
    (Nat.le_add_right _ _) (by omega) ?_
  have behind : start ≤ phase + period * start :=
    (Nat.le_mul_of_pos_left start (Nat.zero_lt_of_lt small)).trans (Nat.le_add_left _ _)
  rw [Nat.add_mod_mod, Nat.add_sub_cancel' behind, Nat.add_mul_mod_self_left,
    Nat.mod_eq_of_lt small]

/-! ## Simulation by a specification that runs ahead -/

/-- The events of `n` steps of an autonomous specification. -/
def specLog (next : Spec → Spec) (specEmit : Spec → List Event) : ℕ → Spec → List Event
  | 0, _ => []
  | n + 1, spec => specEmit spec ++ specLog next specEmit n (next spec)

theorem specLog_add (next : Spec → Spec) (specEmit : Spec → List Event) (n m : ℕ) (spec : Spec) :
    specLog next specEmit (n + m) spec =
      specLog next specEmit n spec ++ specLog next specEmit m (next^[n] spec) := by
  induction n generalizing spec with
  | zero => simp only [Nat.zero_add, specLog, Function.iterate_zero, id_eq, List.nil_append]
  | succ n inductionHypothesis =>
    rw [Nat.add_right_comm, specLog, inductionHypothesis, specLog, List.append_assoc,
      Function.iterate_succ_apply]

theorem specLog_isPrefix (next : Spec → Spec) (specEmit : Spec → List Event) (spec : Spec) {n m : ℕ}
    (earlier : n ≤ m) : specLog next specEmit n spec <+: specLog next specEmit m spec := by
  obtain ⟨rest, rfl⟩ := Nat.exists_eq_add_of_le earlier
  rw [specLog_add]
  exact List.prefix_append _ _

/-- Every step of the specification that has an event lengthens the log. -/
theorem specLog_length {next : Spec → Spec} {specEmit : Spec → List Event} {spec : Spec}
    (emits : ∀ k, specEmit (next^[k] spec) ≠ []) (n : ℕ) :
    n ≤ (specLog next specEmit n spec).length := by
  induction n with
  | zero => exact Nat.zero_le _
  | succ n inductionHypothesis =>
    have last : 0 < (specEmit (next^[n] spec)).length := List.length_pos_iff.mpr (emits n)
    rw [specLog_add, List.length_append, specLog, specLog, List.append_nil]
    omega

/-- A log that lags behind the specification's by a bounded number of events catches up with every
    part of it, when the specification is reached arbitrarily far and never falls silent. -/
theorem catches_up {next : Spec → Spec} {specEmit : Spec → List Event} {spec : Spec}
    {log : ℕ → List Event}
    (emits : ∀ k, specEmit (next^[k] spec) ≠ []) (lag : ℕ)
    (reaches : ∀ bound, ∃ n, ∃ m ≥ bound, ∃ pending : List Event, pending.length ≤ lag ∧
      log n ++ pending = specLog next specEmit m spec) (l : ℕ) :
    ∃ n, specLog next specEmit l spec <+: log n := by
  obtain ⟨n, m, far, pending, short, logged⟩ := reaches (l + lag)
  obtain ⟨rest, rfl⟩ := Nat.exists_eq_add_of_le (Nat.le_of_add_right_le far)
  -- what the specification does beyond step `l` outweighs the lag
  have beyond : rest ≤ (specLog next specEmit rest (next^[l] spec)).length :=
    specLog_length (fun k => by
      rw [← Function.iterate_add_apply]
      exact emits (k + l)) rest
  have lengths := congrArg List.length logged
  rw [specLog_add, List.length_append, List.length_append] at lengths
  exact ⟨n, List.prefix_of_prefix_length_le
    (specLog_isPrefix next specEmit spec (Nat.le_add_right l rest))
    ⟨pending, logged⟩ (by omega)⟩

/-- Two logs of one specification agree as far as the shorter of them goes. -/
theorem prefix_comparable {next : Spec → Spec} {specEmit : Spec → List Event} {spec : Spec}
    {log log' : List Event}
    {n m : ℕ} (logged : log <+: specLog next specEmit n spec)
    (logged' : log' <+: specLog next specEmit m spec) :
    log <+: log' ∨ log' <+: log := by
  obtain before | after := Nat.le_total n m
  · exact List.prefix_or_prefix_of_prefix
      (logged.trans (specLog_isPrefix next specEmit spec before)) logged'
  · exact List.prefix_or_prefix_of_prefix logged
      (logged'.trans (specLog_isPrefix next specEmit spec after))

/-- A log that differs from the specification's within their common length never becomes a prefix of
    it. -/
theorem diverges {next : Spec → Spec} {specEmit : Spec → List Event} {spec : Spec}
    {log : List Event} {k : ℕ}
    (notShorter : ¬ log <+: specLog next specEmit k spec)
    (notLonger : ¬ specLog next specEmit k spec <+: log) (m : ℕ) :
    ¬ log <+: specLog next specEmit m spec := by
  intro logged
  obtain shorter | longer := prefix_comparable logged List.prefix_rfl
  · exact notShorter shorter
  · exact notLonger longer

/-- One edge of the machine is matched by some number of specification steps, and the events move
    from pending to emitted in order. -/
def SimulatesStep (step : State → Input → State)
    (emit : State → Input → List Event) (next : Spec → Spec)
    (specEmit : Spec → List Event) (Related : State → Spec → List Event → Prop) (state : State)
    (input : Input) : Prop :=
  ∀ spec pending, Related state spec pending →
    ∃ k pending', Related (step state input) (next^[k] spec) pending' ∧
      pending ++ specLog next specEmit k spec = emit state input ++ pending'

/-- What the specification does in a number of steps joins the log and the pending events. -/
theorem logged_step {step : State → Input → State}
    {emit : State → Input → List Event} {next : Spec → Spec}
    {specEmit : Spec → List Event} {start : State} {spec : Spec} {inputs : ℕ → Input} {n m k : ℕ}
    {pending pending' : List Event}
    (logged : logAt step emit start inputs n ++ pending = specLog next specEmit m spec)
    (moved : pending ++ specLog next specEmit k (next^[m] spec) =
      emit (stateAt step start inputs n) (inputs n) ++ pending') :
    logAt step emit start inputs (n + 1) ++ pending' = specLog next specEmit (m + k) spec := by
  rw [logAt_succ, List.append_assoc, ← moved, ← List.append_assoc, logged, specLog_add]

/-- When every edge is matched, the log and the pending events are together the specification's
    log. -/
theorem log_pending_eq_specLog {step : State → Input → State} {emit : State → Input → List Event}
    {next : Spec → Spec} {specEmit : Spec → List Event} {Related : State → Spec → List Event → Prop}
    {start : State} {spec : Spec} {inputs : ℕ → Input} (initial : Related start spec []) (n : ℕ)
    (matched : ∀ k < n,
      SimulatesStep step emit next specEmit Related (stateAt step start inputs k) (inputs k)) :
    ∃ m pending, Related (stateAt step start inputs n) (next^[m] spec) pending ∧
      logAt step emit start inputs n ++ pending = specLog next specEmit m spec := by
  induction n with
  | zero => exact ⟨0, [], initial, rfl⟩
  | succ n inductionHypothesis =>
    obtain ⟨m, pending, related, logged⟩ :=
      inductionHypothesis (fun k bound => matched k (by omega))
    obtain ⟨k, pending', related', moved⟩ := matched n (Nat.lt_succ_self n) _ _ related
    refine ⟨m + k, pending', ?_, ?_⟩
    · rw [Nat.add_comm m k, Function.iterate_add_apply]
      exact related'
    · exact logged_step logged moved

/-- When every edge is matched, the machine's log is a prefix of the specification's. -/
theorem log_prefix_specLog {step : State → Input → State} {emit : State → Input → List Event}
    {next : Spec → Spec} {specEmit : Spec → List Event} {Related : State → Spec → List Event → Prop}
    {start : State} {spec : Spec} {inputs : ℕ → Input} (initial : Related start spec []) (n : ℕ)
    (matched : ∀ k < n,
      SimulatesStep step emit next specEmit Related (stateAt step start inputs k) (inputs k)) :
    ∃ m, logAt step emit start inputs n <+: specLog next specEmit m spec := by
  obtain ⟨m, pending, _, logged⟩ := log_pending_eq_specLog initial n matched
  exact ⟨m, pending, logged⟩

/-! ### Simulation with progress -/

/-- One edge of the machine is matched by some number of specification steps.  It does not lower the
    rank, of which a step of the specification is worth `width`, and raises it when `go` holds. -/
def ProgressStep (step : State → Input → State)
    (emit : State → Input → List Event) (next : Spec → Spec)
    (specEmit : Spec → List Event) (Ranked : State → Spec → List Event → ℕ → Prop)
    (width : ℕ) (go : Prop)
    (state : State) (input : Input) : Prop :=
  ∀ spec pending rank, Ranked state spec pending rank →
    ∃ k pending' rank', Ranked (step state input) (next^[k] spec) pending' rank' ∧
      pending ++ specLog next specEmit k spec = emit state input ++ pending' ∧
      rank ≤ width * k + rank' ∧ (go → rank < width * k + rank')

section Progress

variable {step : State → Input → State} {emit : State → Input → List Event} {next : Spec → Spec}
  {specEmit : Spec → List Event} {Ranked : State → Spec → List Event → ℕ → Prop} {width : ℕ}

theorem ProgressStep.simulates {go : Prop} {state : State} {input : Input}
    (progress : ProgressStep step emit next specEmit Ranked width go state input) :
    SimulatesStep step emit next specEmit
      (fun state spec pending => ∃ rank, Ranked state spec pending rank) state
      input := by
  rintro spec pending ⟨rank, related⟩
  obtain ⟨k, pending', rank', related', moved, _⟩ := progress spec pending rank related
  exact ⟨k, pending', ⟨rank', related'⟩, moved⟩

/-- How far a run has come: the steps of the specification, each worth `width`, and the rank of the
    state. -/
def Progressed (step : State → Input → State)
    (emit : State → Input → List Event) (next : Spec → Spec)
    (specEmit : Spec → List Event) (Ranked : State → Spec → List Event → ℕ → Prop)
    (width : ℕ) (start : State)
    (spec : Spec) (inputs : ℕ → Input) (n total : ℕ) : Prop :=
  ∃ position pending rank, Ranked (stateAt step start inputs n)
    (next^[position] spec) pending rank ∧
    logAt step emit start inputs n ++ pending = specLog next specEmit position spec ∧
    total = width * position + rank

variable {start : State} {spec : Spec} {inputs : ℕ → Input}

theorem Progressed.succ {go : Prop} {n total : ℕ}
    (progressed : Progressed step emit next specEmit Ranked width start spec inputs n total)
    (progress : ProgressStep step emit next specEmit Ranked width go
      (stateAt step start inputs n) (inputs n)) :
    ∃ total' ≥ total, Progressed step emit next specEmit Ranked width start spec inputs
      (n + 1) total' ∧
      (go → total < total') := by
  obtain ⟨position, pending, rank, reached, logged, rfl⟩ := progressed
  obtain ⟨k, pending', rank', reached', moved, kept, raised⟩ := progress _ _ _ reached
  have split : width * (position + k) = width * position + width * k := Nat.mul_add _ _ _
  refine ⟨width * (position + k) +
    rank', by omega, ⟨position + k, pending', rank', ?_, logged_step logged moved, rfl⟩, fun go => ?_⟩
  · rw [Nat.add_comm position k, Function.iterate_add_apply]
    exact reached'
  · have more := raised go
    omega

/-- A machine that makes progress again and again, from some cycle on, logs everything that the
    specification does. -/
theorem log_complete {Go : ℕ → Prop} {first total : ℕ} (lag : ℕ)
    (emits : ∀ k, specEmit (next^[k] spec) ≠ [])
    (small : ∀ {state spec pending rank}, Ranked state spec pending rank →
      rank < width ∧ pending.length ≤ lag)
    (progressed : Progressed step emit next specEmit Ranked width start spec inputs first total)
    (progress : ∀ n ≥ first, ProgressStep step emit next specEmit Ranked width (Go n)
      (stateAt step start inputs n)
      (inputs n))
    (fair : ∀ n, ∃ k ≥ n, Go k) (l : ℕ) :
    ∃ n, specLog next specEmit l spec <+: logAt step emit start inputs n := by
  have fair' : ∀ n, ∃ k ≥ n, Go (first + k) := by
    intro n
    obtain ⟨k, later, go⟩ := fair (first + n)
    obtain ⟨d, rfl⟩ := Nat.exists_eq_add_of_le later
    exact ⟨n + d, Nat.le_add_right _ _, by rwa [← Nat.add_assoc]⟩
  refine catches_up emits lag (fun bound => ?_) l
  obtain ⟨n, _, far, position, pending, rank, reached, logged, rfl⟩ := @unbounded
    (fun n => Progressed step emit next specEmit Ranked width start spec inputs (first + n))
    (fun n => Go (first + n))
    (fun n total progressed => by
      obtain ⟨total', kept, progressed', _⟩ :=
        progressed.succ (progress (first + n) (Nat.le_add_right _ _))
      exact ⟨total', kept, progressed'⟩)
    (fun n total progressed go => by
      obtain ⟨total', _, progressed', raised⟩ :=
        progressed.succ (progress (first + n) (Nat.le_add_right _ _))
      exact ⟨total', raised go, progressed'⟩)
    fair' total progressed (width * bound)
  obtain ⟨below, short⟩ := small reached
  have beyond : bound ≤ position := by
    by_contra behind
    have least : width * (position + 1) ≤ width * bound := Nat.mul_le_mul_left width (by omega)
    rw [Nat.mul_add, Nat.mul_one] at least
    omega
  exact ⟨first + n, position, beyond, pending, short, logged⟩

end Progress

/-! ### Periodic runs -/

/-- A run that comes back to a state under the same inputs only has the states that it had
    before. -/
theorem periodic {step : State → Input → State} {start : State}
    {inputs : ℕ → Input} {first period : ℕ}
    (positive : 0 < period) (same : stateAt step start inputs (first + period) =
      stateAt step start inputs first)
    (constant : ∀ k ≥ first, inputs k = inputs first) (n : ℕ) :
    ∃ k < first + period, stateAt step start inputs n = stateAt step start inputs k ∧
      inputs n = inputs k := by
  have shifted : ∀ d, stateAt step start inputs (first + period + d) =
      stateAt step start inputs (first + d) := by
    intro d
    induction d with
    | zero => exact same
    | succ d inductionHypothesis =>
      rw [← Nat.add_assoc, ← Nat.add_assoc, stateAt_succ, stateAt_succ, inductionHypothesis,
        constant (first + period + d) (by omega), constant (first + d) (by omega)]
  induction n using Nat.strong_induction_on with
  | _ n inductionHypothesis =>
    by_cases early : n < first + period
    · exact ⟨n, early, rfl, rfl⟩
    · obtain ⟨d, rfl⟩ := Nat.exists_eq_add_of_le (Nat.not_lt.mp early)
      obtain ⟨k, bound, state, input⟩ := inductionHypothesis (first + d) (by omega)
      refine ⟨k, bound, (shifted d).trans state, ?_⟩
      rw [← input, constant (first + period + d) (by omega), constant (first + d) (by omega)]

/-- What holds in the cycles of one period, and in those before it, holds in every cycle. -/
theorem periodic_always {step : State → Input → State} {start : State}
    {inputs : ℕ → Input} {first period : ℕ}
    {Holds : State → Input → Prop} (positive : 0 < period)
    (same : stateAt step start inputs (first + period) = stateAt step start inputs first)
    (constant : ∀ k ≥ first, inputs k = inputs first)
    (checked : ∀ k < first + period, Holds (stateAt step start inputs k) (inputs k)) (n : ℕ) :
    Holds (stateAt step start inputs n) (inputs n) := by
  obtain ⟨k, bound, state, input⟩ := periodic positive same constant n
  rw [state, input]
  exact checked k bound

end Clocked
