import AgentAlgebra.Proofs.BaseLaws
import AgentAlgebra.Proofs.Divergences
import AgentAlgebra.Proofs.Neutrality
import AgentAlgebra.Proofs.PureChecks
/-!
# Functions that remember their calls

A function that remembers how often it was called may answer the same input differently. Each run of
a law's side calls it once for each input, in order, and never to find out what is legal. So in a
check that the identity may stand in front of an agent the function is called for the left side, for
the right side, and with replay once more for either; what the check finds is whether those four
rows of answers are equal.
-/

namespace AgentAlgebra

/-- How the one move of an untyped stateless agent is recorded. -/
def StepTrace.ofAnswer (name : String) (input output : Value) : StepTrace :=
  ⟨input, output, [.null], [⟨name, input, output⟩]⟩

/-- How a run of an untyped stateless agent is recorded, from a position at which it stays. -/
def Trace.ofAnswers (name : String) (position : Value) (inputs outputs : List Value) : Trace :=
  ⟨position, position, [.null], List.zipWith (StepTrace.ofAnswer name) inputs outputs⟩

theorem StepTrace.matches_ofAnswer {frontier stages : Bool} {name : String}
    {input output output' : Value} :
    Matches frontier stages (.ofAnswer name input output) (.ofAnswer name input output') ↔
      (output == output') = true := by
  constructor
  · exact fun same => same.output
  · intro same
    have stage : (Stage.mk name input output == ⟨name, input, output'⟩) = true :=
      Stage.beq_eq_true.mpr ⟨rfl, BEq.rfl, same⟩
    refine ⟨same, fun _ => BEq.rfl, fun _ => ?_⟩
    rw [ofAnswer, ofAnswer, List.cons_beq_cons, stage]
    rfl

namespace Agent

section

variable {m : Type → Type} [Monad m] {side a : Agent m} {name : String} {answer : Value → m Value}
  {position : Value}

/-- At a position the agent answers each input by calling a function once, and stays there. -/
structure Serves (side : Agent m) (position : Value) (name : String) (answer : Value → m Value) :
    Prop where
  known : side.isPosition position = true
  frontier : side.frontier position = [.null]
  step (input : Value) : side.step position input =
    (fun output => ⟨position, output, [⟨name, input, output⟩]⟩) <$>
      (liftM (answer input) : ExceptT StepError m Value)

variable [LawfulMonad m]

theorem serves_stateless (name : String) (answer : Value → m Value) :
    (stateless name .untyped answer).Serves .null name answer where
  known := rfl
  frontier := rfl
  step input := by
    have typed : Signature.untyped.input.admits input = true := rfl
    rw [step_stateless_null answer typed, map_eq_pure_bind]
    rfl

/-- An identity in front of an agent calls nothing. -/
theorem Serves.after_identity (serves : a.Serves position name answer) (header : Header) :
    (sequence header (.id .any) a).Serves (.pair .null position) name answer where
  known := isPosition_sequence_iff.mpr ⟨.null, position, rfl, rfl, serves.known⟩
  frontier := by
    have parts : (sequence header (.id .any) a).frontier (.pair .null position) =
        a.frontier position := by simp [Agent.frontier, Agent.id]
    rw [parts, serves.frontier]
  step input := by
    rw [step_after_identity serves.known, serves.step, ← comp_map]
    rfl

theorem Serves.traceFrom (serves : side.Serves position name answer) (inputs : List Value) :
    side.traceFrom position inputs =
      (fun outputs => (List.zipWith (StepTrace.ofAnswer name) inputs outputs, position)) <$>
        (liftM (inputs.mapM answer) : ExceptT StepError m (List Value)) := by
  induction inputs with
  | nil => simp [Agent.traceFrom]
  | cons input inputs ih =>
    rw [Agent.traceFrom, serves.step, List.mapM_cons, bind_map_left]
    simp [ih, serves.frontier, StepTrace.ofAnswer]

/-- A trace calls the function once for each input, in order, and does nothing else. -/
theorem Serves.trace (serves : side.Serves position name answer) (inputs : List Value) :
    side.trace position inputs =
      Trace.ofAnswers name position inputs <$>
        (liftM (inputs.mapM answer) : ExceptT StepError m (List Value)) := by
  unfold Agent.trace
  rw [if_pos serves.known, serves.traceFrom, bind_map_left, map_eq_pure_bind]
  simp only [serves.frontier]
  rfl

end

section

variable {m : Type → Type}

/-- An agent with the identity in front, as it is put together. -/
def behindIdentity (a : Agent m) : Agent m :=
  .sequence ⟨applied "seq" ["id", a.name], ⟨.any, a.output⟩, .pair .null a.initial⟩ (.id .any) a

theorem inSequence_identity (a : Agent m) : (Agent.id .any).inSequence a = .ok a.behindIdentity :=
  inSequence_eq_ok.mpr ⟨a.input.accepts_any, rfl⟩

end

/-- A function of its input and of how often it was called before. -/
def counted (f : Value → Nat → Value) (input : Value) : StateM Nat Value :=
  modifyGet fun calls => (f input calls, calls + 1)

/-- The untyped stateless agent of such a function. -/
def counting (name : String) (f : Value → Nat → Value) : Agent (StateM Nat) :=
  .stateless name .untyped (counted f)

/-- What the function answers to inputs one after the other, after so many earlier calls. -/
def answers (f : Value → Nat → Value) : Nat → List Value → List Value
  | _, [] => []
  | calls, input :: inputs => f input calls :: answers f (calls + 1) inputs

/-- After `k` and after `l` earlier calls the function answers each of the inputs alike. -/
def AnswersAlike (f : Value → Nat → Value) (inputs : List Value) (k l : Nat) : Prop :=
  ∀ j : Fin inputs.length, (f inputs[j] (k + j) == f inputs[j] (l + j)) = true

instance (f : Value → Nat → Value) (inputs : List Value) (k l : Nat) :
    Decidable (AnswersAlike f inputs k l) :=
  inferInstanceAs (Decidable (∀ _ : Fin inputs.length, _))

section

variable {f : Value → Nat → Value} {inputs : List Value} {k l n : Nat}

theorem answersAlike_cons {input : Value} :
    AnswersAlike f (input :: inputs) k l ↔
      (f input k == f input l) = true ∧ AnswersAlike f inputs (k + 1) (l + 1) := by
  have shift (c : Nat) (j : Fin inputs.length) : c + j.succ.val = c + 1 + j.val := by
    rw [Fin.val_succ]
    omega
  refine Fin.forall_fin_succ.trans (and_congr Iff.rfl (forall_congr' fun j => ?_))
  rw [shift k j, shift l j]
  rfl

theorem AnswersAlike.trans_iff (alike : AnswersAlike f inputs k l) :
    AnswersAlike f inputs k n ↔ AnswersAlike f inputs l n := by
  refine forall_congr' fun j => ?_
  constructor
  · exact fun other => BEq.trans (BEq.symm (alike j)) other
  · exact fun other => BEq.trans (alike j) other

theorem run_mapM_counted (f : Value → Nat → Value) (inputs : List Value) (calls : Nat) :
    (inputs.mapM (counted f)).run calls = (answers f calls inputs, calls + inputs.length) := by
  induction inputs generalizing calls with
  | nil => rfl
  | cons input inputs ih =>
    have count : calls + (input :: inputs).length = calls + 1 + inputs.length := by
      rw [List.length_cons]
      omega
    have first : (counted f input).run calls = (f input calls, calls + 1) := rfl
    rw [List.mapM_cons, count]
    change (inputs.mapM (counted f) >>= fun outputs => pure (f input calls :: outputs)).run
      (calls + 1) = _
    rw [StateT.run_bind, ih]
    rfl

/-- Between two runs a divergence is found exactly if one input was answered differently. -/
theorem among?_ofAnswers {frontier stages : Bool} {name : String} {k l n : Nat}
    {inputs : List Value} :
    Divergence.among? frontier stages n
        (List.zipWith (StepTrace.ofAnswer name) inputs (answers f k inputs))
        (List.zipWith (StepTrace.ofAnswer name) inputs (answers f l inputs)) = none ↔
      AnswersAlike f inputs k l := by
  induction inputs generalizing k l n with
  | nil => exact iff_of_true rfl nofun
  | cons input inputs ih =>
    rw [answers, answers, List.zipWith_cons_cons, List.zipWith_cons_cons,
      Divergence.among?_cons_eq_none, ih, answersAlike_cons, StepTrace.matches_ofAnswer]

theorem outputs_ofAnswers {name : String} {p : Value} :
    (Trace.ofAnswers name p inputs (answers f k inputs)).outputs = answers f k inputs := by
  unfold Trace.outputs Trace.ofAnswers
  dsimp only
  induction inputs generalizing k with
  | nil => rfl
  | cons input inputs ih => exact congrArg (f input k :: ·) ih

theorem between?_ofAnswers {frontier stages : Bool} {name : String} {p q : Value} :
    Divergence.between? (.ofAnswers name p inputs (answers f k inputs))
        (.ofAnswers name q inputs (answers f l inputs)) frontier stages = none ↔
      AnswersAlike f inputs k l :=
  among?_ofAnswers

end

end Agent

section

variable {m : Type → Type}

/-- The law that the identity may stand in front of an agent. -/
def Law.leftIdentity : Law m :=
  ⟨"seq_left_identity", .applyTo "seq" [.identity, .var 0], .var 0, .outputsAndFrontier⟩

theorem Law.arity_leftIdentity : (leftIdentity : Law m).arity = 1 := rfl

variable [Monad m]

theorem Algebra.law?_leftIdentity :
    (base : Algebra m).law? "seq_left_identity" = some .leftIdentity := rfl

variable [LawfulMonad m]

theorem Law.sides_leftIdentity (a : Agent m) :
    leftIdentity.sides .base [a] =
      (pure (a.behindIdentity, a) : ExceptT AlgebraError m (Agent m × Agent m)) := by
  have operands : [Expr.identity, .var 0].mapM (Expr.instantiate (.base : Algebra m) [a]) =
      pure [.id .any, a] := by
    simp [Expr.identity, Expr.instantiate]
  have composed : (Algebra.base : Algebra m).compose "seq" [.id .any, a] =
      pure a.behindIdentity := by
    change liftExcept ((Agent.id .any).inSequence a) = _
    rw [Agent.inSequence_identity]
    rfl
  have left : leftIdentity.lhs.instantiate (.base : Algebra m) [a] = pure a.behindIdentity := by
    refine (Expr.instantiate_applyTo ..).trans ?_
    rw [operands, pure_bind, composed]
  have one : [a].length = (leftIdentity : Law m).arity := arity_leftIdentity.symm
  have right : leftIdentity.rhs.instantiate (.base : Algebra m) [a] = pure a := rfl
  unfold Law.sides
  rw [if_pos one, left, right, pure_bind, pure_bind]

end

section

variable {σ ε α β : Type}

/-- What follows a computation that gave a value goes on from its state. -/
theorem run_bind_of_run {x : ExceptT ε (StateM σ) α} {f : α → ExceptT ε (StateM σ) β} {a : α}
    {before after : σ} (ran : x.run.run before = (.ok a, after)) :
    (x >>= f).run.run before = (f a).run.run after := by
  rw [ExceptT.run_bind, StateT.run_bind, ran]
  rfl

/-- What callers supply does not fail. -/
theorem run_map_liftM (g : α → β) (x : StateM σ α) (before : σ) :
    (g <$> (liftM x : ExceptT ε (StateM σ) α)).run.run before =
      (.ok (g (x.run before).1), (x.run before).2) := rfl

theorem run_adapt_of_run {ε' : Type} {x : ExceptT ε (StateM σ) α} {change : ε → ε'} {a : α}
    {before after : σ} (ran : x.run.run before = (.ok a, after)) :
    (x.adapt change).run.run before = (.ok a, after) := by
  have mapped : (x.adapt change).run = Except.mapError change <$> x.run := rfl
  rw [mapped, StateT.run_map, ran]
  rfl

end

namespace VerifySettings

open Agent

/-- How many calls there have been after so many runs, each of which calls once for each input. -/
def callsAfter (start : Nat) (inputs : List Value) (runs : Nat) : Nat := start + runs * inputs.length

@[simp]
theorem callsAfter_zero (start : Nat) (inputs : List Value) : callsAfter start inputs 0 = start := by
  simp [callsAfter]

theorem callsAfter_succ (start : Nat) (inputs : List Value) (runs : Nat) :
    callsAfter start inputs (runs + 1) = callsAfter start inputs runs + inputs.length := by
  rw [callsAfter, callsAfter, Nat.succ_mul, Nat.add_assoc]

/-- The runs after `k` and after `l` others answer alike. -/
def RunsAlike (f : Value → Nat → Value) (inputs : List Value) (start k l : Nat) : Prop :=
  AnswersAlike f inputs (callsAfter start inputs k) (callsAfter start inputs l)

instance (f : Value → Nat → Value) (inputs : List Value) (start k l : Nat) :
    Decidable (RunsAlike f inputs start k l) :=
  inferInstanceAs (Decidable (AnswersAlike ..))

/-- What becomes of comparing two runs of a function, and with replay of running both sides again:
what sort of failure is seen first and how many runs were before either of the two that differ, and
how many runs there are in the end. -/
def detection (replay : Bool) (f : Value → Nat → Value) (inputs : List Value) (start : Nat) :
    Option (FailureClass × Nat × Nat) × Nat :=
  if RunsAlike f inputs start 0 1 then
    if replay then
      if RunsAlike f inputs start 0 2 then
        if RunsAlike f inputs start 1 3 then (none, 4) else (some (.replayDivergence, 1, 3), 4)
      else (some (.replayDivergence, 0, 2), 3)
    else (none, 2)
  else (some (.lawViolation, 0, 1), 2)

section

variable (f : Value → Nat → Value) (inputs : List Value) (start : Nat)

/-- With replay, what all the runs have to be like. -/
theorem detection_replay :
    let seen := (detection true f inputs start).1
    let alike := RunsAlike f inputs start 0
    (seen = none ↔ alike 1 ∧ alike 2 ∧ alike 3) ∧
      (seen.map (·.1.name) = some FailureClass.lawViolation.name ↔ ¬alike 1) ∧
      (seen.map (·.1.name) = some FailureClass.replayDivergence.name ↔
        alike 1 ∧ ¬(alike 2 ∧ alike 3)) := by
  dsimp only
  unfold detection
  by_cases one : RunsAlike f inputs start 0 1
  · -- The right side's own comparison comes to one with the first run of all.
    have right : RunsAlike f inputs start 0 3 ↔ RunsAlike f inputs start 1 3 := one.trans_iff
    simp only [one, right, if_true]
    split_ifs <;> simp [*, FailureClass.name]
  · simp [one, FailureClass.name]

theorem detection_no_replay :
    let seen := (detection false f inputs start).1
    let alike := RunsAlike f inputs start 0
    (seen = none ↔ alike 1) ∧
      (seen.map (·.1.name) = some FailureClass.lawViolation.name ↔ ¬alike 1) ∧
      (detection false f inputs start).2 = 2 := by
  dsimp only
  unfold detection
  by_cases one : RunsAlike f inputs start 0 1 <;> simp [one]

theorem detection_runs (unseen : (detection true f inputs start).1 = none) :
    (detection true f inputs start).2 = 4 := by
  obtain ⟨one, two, three⟩ := (detection_replay f inputs start).1.mp unseen
  have right : RunsAlike f inputs start 1 3 := one.trans_iff.mp three
  simp [detection, one, two, right]

end

/-- A function that changes its answer after two calls satisfies the law on one input and is found
out by replay, in the third run. -/
example : detection true (fun _ calls => .bool (calls / 2 = 0)) [.null] 0 =
    (some (.replayDivergence, 0, 2), 3) := rfl

/-- A report of two runs that differ: the sort of failure, and what either run answered. -/
def shown (violation : Violation) : String × List Value × List Value :=
  (violation.failure, violation.lhs.outputs, violation.rhs.outputs)

/-- The report that is due. -/
def due (f : Value → Nat → Value) (inputs : List Value) (start : Nat) :
    FailureClass × Nat × Nat → String × List Value × List Value
  | (failure, k, l) => (failure.name, answers f (callsAfter start inputs k) inputs,
      answers f (callsAfter start inputs l) inputs)

theorem failure_of_shown {f : Value → Nat → Value} {inputs : List Value} {start : Nat}
    {found : Option Violation} {expected : Option (FailureClass × Nat × Nat)}
    (report : found.map shown = expected.map (due f inputs start)) :
    found.map (·.failure) = expected.map (·.1.name) := by
  have failures := congrArg (Option.map Prod.fst) report
  rwa [Option.map_map, Option.map_map] at failures

section

variable (settings : VerifySettings) (law : Law (StateM Nat)) {lhs rhs side : Agent (StateM Nat)}
  (name : String) (f : Value → Nat → Value) (inputs : List Value) (start : Nat)

/-- What is recorded of the run of an agent after so many others. -/
def traceAfter (side : Agent (StateM Nat)) (runs : Nat) : Trace :=
  .ofAnswers name side.initial inputs (answers f (callsAfter start inputs runs) inputs)

variable {settings law name f inputs start} {k l : Nat}

theorem between?_traceAfter {frontier stages : Bool} :
    Divergence.between? (traceAfter name f inputs start lhs k) (traceAfter name f inputs start rhs l)
        frontier stages = none ↔ RunsAlike f inputs start k l :=
  between?_ofAnswers

theorem shown_of {failure : FailureClass} {equation named named' : String} {scenario : Scenario}
    {divergence : Divergence} :
    shown (.of failure.name law.name equation scenario
        (.of named (traceAfter name f inputs start lhs k))
        (.of named' (traceAfter name f inputs start rhs l)) divergence) =
      due f inputs start (failure, k, l) := by
  simp [shown, due, Violation.of, Observation.of, traceAfter, outputs_ofAnswers]

variable (settings law inputs start)

theorem run_observe_counted (serves : side.Serves side.initial name (counted f)) (runs : Nat) :
    (observe side (.sequence inputs)).run.run (callsAfter start inputs runs) =
      (.ok (traceAfter name f inputs start side runs), callsAfter start inputs (runs + 1)) := by
  refine run_adapt_of_run ?_
  change (side.trace side.initial inputs).run.run _ = _
  rw [serves.trace, run_map_liftM, run_mapM_counted, callsAfter_succ]
  rfl

/-- What a second run finds. -/
theorem run_replayed_counted (serves : side.Serves side.initial name (counted f)) (k l : Nat) :
    ∃ found : Option Violation,
      (replayed? law (.sequence inputs) side (traceAfter name f inputs start side k)).run.run
          (callsAfter start inputs l) = (.ok found, callsAfter start inputs (l + 1)) ∧
      found.map shown =
        if RunsAlike f inputs start k l then none
        else some (due f inputs start (.replayDivergence, k, l)) := by
  unfold replayed?
  rw [run_bind_of_run (run_observe_counted inputs start serves l)]
  refine ⟨_, rfl, ?_⟩
  by_cases alike : RunsAlike f inputs start k l
  · rw [if_pos alike, between?_traceAfter.mpr alike]
    rfl
  · obtain ⟨divergence, found⟩ := Option.ne_none_iff_exists'.mp (mt between?_traceAfter.mp alike)
    rw [if_neg alike, found]
    exact congrArg some shown_of

/-- The runs of the two sides, one after the other, and with replay of both once more. -/
theorem run_compared_counted (left : lhs.Serves lhs.initial name (counted f))
    (right : rhs.Serves rhs.initial name (counted f)) :
    ∃ found : Option Violation,
      (settings.compared law (.sequence inputs) lhs rhs).run.run start =
        (.ok found, callsAfter start inputs (detection settings.replay f inputs start).2) ∧
      found.map shown =
        (detection settings.replay f inputs start).1.map (due f inputs start) := by
  have first := run_observe_counted inputs start left 0
  rw [callsAfter_zero] at first
  unfold compared detection
  rw [run_bind_of_run first, run_bind_of_run (run_observe_counted inputs start right 1)]
  by_cases alike : RunsAlike f inputs start 0 1
  · rw [if_pos alike, between?_traceAfter.mpr alike]
    cases settings.replay with
    | false => exact ⟨none, rfl, rfl⟩
    | true =>
      obtain ⟨found, again, report⟩ := run_replayed_counted law inputs start left 0 2
      simp only [if_true]
      rw [run_bind_of_run again]
      by_cases alikeLeft : RunsAlike f inputs start 0 2
      · rw [if_pos alikeLeft] at report ⊢
        obtain rfl := Option.map_eq_none_iff.mp report
        obtain ⟨found, again', report'⟩ := run_replayed_counted law inputs start right 1 3
        refine ⟨found, ?_, ?_⟩
        · refine again'.trans ?_
          split <;> rfl
        · refine report'.trans ?_
          split <;> rfl
      · rw [if_neg alikeLeft] at report ⊢
        obtain ⟨violation, rfl, shows⟩ := Option.map_eq_some_iff.mp report
        exact ⟨some violation, rfl, report⟩
  · obtain ⟨divergence, found⟩ := Option.ne_none_iff_exists'.mp (mt between?_traceAfter.mp alike)
    rw [if_neg alike, found]
    exact ⟨_, rfl, congrArg some shown_of⟩

/-- An agent that starts at its own start is put behind the identity, and the two are compared. -/
theorem check_leftIdentity (a : Agent (StateM Nat)) :
    settings.check .base .leftIdentity [a] (.sequence inputs) =
      settings.compared .leftIdentity (.sequence inputs) a.behindIdentity a := by
  have starts : ¬[a].length < (Scenario.sequence inputs).positions.length := Nat.not_lt_zero _
  have own : (Scenario.sequence inputs).bind [a] = .ok [a] := rfl
  rw [check_eq, if_neg starts, own]
  dsimp only
  rw [Law.sides_leftIdentity]
  rfl

/-- Checking that the identity may stand in front of an agent which counts its calls. -/
theorem run_verify_counting (name : String) (f : Value → Nat → Value) :
    let checked :=
      (settings.verify .base "seq_left_identity" [counting name f] [.sequence inputs]).run start
    checked.2 = callsAfter start inputs (detection settings.replay f inputs start).2 ∧
      (checked.1.isSatisfied = true ↔ (detection settings.replay f inputs start).1 = none) ∧
      checked.1.violation?.map shown =
        (detection settings.replay f inputs start).1.map (due f inputs start) := by
  intro checked
  have right : (counting name f).Serves .null name (counted f) := serves_stateless ..
  have left : (counting name f).behindIdentity.Serves (.pair .null .null) name (counted f) :=
    right.after_identity _
  obtain ⟨found, ran, report⟩ :=
    run_compared_counted settings .leftIdentity inputs start left right
  have one : [counting name f].length = (Law.leftIdentity : Law (StateM Nat)).arity :=
    Law.arity_leftIdentity.symm
  have tried : ¬[Scenario.sequence inputs].isEmpty = true := Bool.false_ne_true
  have ended : (settings.checkFound .base .leftIdentity [counting name f]
      [.sequence inputs]).run.run start =
        (.ok found, callsAfter start inputs (detection settings.replay f inputs start).2) := by
    unfold checkFound
    rw [if_neg tried, if_neg (not_not_intro one), checkAll, check_leftIdentity, run_bind_of_run ran]
    cases found <;> rfl
  have verified : checked = (verdict "seq_left_identity" [.sequence inputs] (.ok found),
      callsAfter start inputs (detection settings.replay f inputs start).2) := by
    dsimp only [checked]
    rw [verify_eq Algebra.law?_leftIdentity, StateT.run_map, ended]
    rfl
  rw [verified]
  refine ⟨rfl, ?_, ?_⟩
  · rw [← Option.map_eq_none_iff (f := due f inputs start), ← report, Option.map_eq_none_iff]
    cases found with
    | none => exact iff_of_true rfl rfl
    | some violation => exact iff_of_false Bool.false_ne_true (Option.some_ne_none _)
  · cases found <;> exact report

end

/-- A function that remembers its calls is found out exactly if that can be seen. Two runs are
compared, and with replay two more with them; each calls the function once for each input. -/
theorem hidden_calls_detected (name : String) (f : Value → Nat → Value) (inputs : List Value)
    (start : Nat) :
    let checked (replay : Bool) := ((⟨replay⟩ : VerifySettings).verify .base "seq_left_identity"
      [counting name f] [.sequence inputs]).run start
    let failure (replay : Bool) := (checked replay).1.violation?.map (·.failure)
    let alike := RunsAlike f inputs start 0
    ((checked true).1.isSatisfied = true ↔ alike 1 ∧ alike 2 ∧ alike 3) ∧
      (failure true = some FailureClass.lawViolation.name ↔ ¬alike 1) ∧
      (failure true = some FailureClass.replayDivergence.name ↔
        alike 1 ∧ ¬(alike 2 ∧ alike 3)) ∧
      ((checked false).1.isSatisfied = true ↔ alike 1) ∧
      (failure false = some FailureClass.lawViolation.name ↔ ¬alike 1) ∧
      ((checked true).1.isSatisfied = true → (checked true).2 = start + 4 * inputs.length) ∧
      (checked false).2 = start + 2 * inputs.length := by
  intro checked failure alike
  obtain ⟨calls, satisfied, report⟩ := run_verify_counting ⟨true⟩ inputs start name f
  obtain ⟨calls', satisfied', report'⟩ := run_verify_counting ⟨false⟩ inputs start name f
  obtain ⟨holds, breaks, diverges⟩ := detection_replay f inputs start
  obtain ⟨holds', breaks', runs'⟩ := detection_no_replay f inputs start
  have failed : failure true = _ := failure_of_shown report
  have failed' : failure false = _ := failure_of_shown report'
  refine ⟨satisfied.trans holds, ?_, ?_, satisfied'.trans holds', ?_, fun held => ?_, ?_⟩
  · rw [failed]
    exact breaks
  · rw [failed]
    exact diverges
  · rw [failed']
    exact breaks'
  · rw [← detection_runs f inputs start (satisfied.mp held)]
    exact calls
  · rw [← runs']
    exact calls'

end VerifySettings

end AgentAlgebra
