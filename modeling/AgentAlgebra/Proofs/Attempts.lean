import AgentAlgebra.Proofs.Construction
import AgentAlgebra.Proofs.Forms
import AgentAlgebra.Proofs.Steps
/-!
# Retrying is bounded iteration

The attempts of an agent that retries are a sequence of their own, `attemptAfter`: each starts where
the one before it left the predicate and the body, on the input that the policy makes of the input and
the output of the one before. The move of the agent is the first attempt that fails, that satisfies
the predicate or that is the last allowed, so a bound that is not reached makes no difference.
-/

namespace AgentAlgebra

@[simp]
theorem RetryStatus.ofName?_name (status : RetryStatus) : ofName? status.name = some status := by
  cases status <;> rfl

/-- What a retry gives is read back as it was. -/
@[simp]
theorem RetryOutcome.ofValue?_toValue (outcome : RetryOutcome) :
    ofValue? outcome.toValue = some outcome := by
  unfold ofValue? toValue
  rw [Value.members?_record (by simp)]
  simp [Fields.lookup_cons, Value.symbol?]

namespace Agent

/-- A move of a body and the move of the predicate that judges its output. -/
structure Attempt where
  input : Value
  produced : Step
  judged : Step
  holds : Bool
  /-- The stages of this attempt, behind those of the attempts before it. -/
  stages : List Stage

namespace Attempt

/-- What is reported of an attempt that is the last. -/
def outcome (last : Attempt) (attempts : Nat) : RetryOutcome :=
  ⟨if last.holds then .converged else .exhausted, last.produced.output, attempts⟩

/-- The move that ends with an attempt. -/
def move (last : Attempt) (attempts : Nat) : Step :=
  ⟨.pair last.judged.position last.produced.position, (last.outcome attempts).toValue, last.stages⟩

end Attempt

section

variable (predicate body : Agent Id) (refine : Value → Value → Id Value)

/-- An attempt from these positions of the predicate and of the body. -/
def attempt (p q input : Value) (before : List Stage) : ExceptT StepError Id Attempt := do
  let produced ← body.step q input
  let judged ← predicate.step p produced.output
  let holds ← verdict predicate.name judged.output
  return ⟨input, produced, judged, holds, before ++ (produced.stages ++ judged.stages)⟩

/-- The attempt that follows on `count` others. -/
def attemptAfter (p q input : Value) (before : List Stage) : (count : Nat) →
    ExceptT StepError Id Attempt
  | 0 => attempt predicate body p q input before
  | count + 1 => do
    let last ← attemptAfter p q input before count
    let next ← refine last.input last.produced.output
    attempt predicate body last.judged.position last.produced.position next last.stages

end

variable {predicate body agent : Agent Id} {policy : RetryPolicy Id}
  {refine : Value → Value → Id Value} {p q input position : Value} {before : List Stage}
  {remaining attempts count : Nat}

/-- After a first attempt the others follow on it. -/
theorem attemptAfter_succ {first : Attempt}
    (begun : (attempt predicate body p q input before).run = .ok first) :
    attemptAfter predicate body refine p q input before (count + 1) =
      attemptAfter predicate body refine first.judged.position first.produced.position
        (refine first.input first.produced.output).run first.stages count := by
  have begun : attempt predicate body p q input before = pure first := begun
  induction count with
  | zero =>
    rw [attemptAfter, attemptAfter, attemptAfter, begun, pure_bind]
    rfl
  | succ count ih => rw [attemptAfter, ih, attemptAfter]

theorem attempt_eq_ok {last : Attempt} :
    (attempt predicate body p q input before).run = .ok last ↔
      ∃ produced, (body.step q input).run = .ok produced ∧
        ∃ judged, (predicate.step p produced.output).run = .ok judged ∧
          ∃ holds, judged.output = .bool holds ∧
            ⟨input, produced, judged, holds, before ++ (produced.stages ++ judged.stages)⟩ = last := by
  unfold attempt
  simp only [run_bind_eq_ok, verdict_eq_ok]
  constructor
  · rintro ⟨produced, acted, judged, asked, holds, given, made⟩
    exact ⟨produced, acted, judged, asked, holds, given, Except.ok.inj made⟩
  · rintro ⟨produced, acted, judged, asked, holds, given, rfl⟩
    exact ⟨produced, acted, judged, asked, holds, given, rfl⟩

/-- A retry fails with the error of its first attempt. -/
theorem run_retry_of_failed {e : StepError}
    (failed : (attempt predicate body p q input before).run = .error e) (earlier : List Stage) :
    (retry predicate.name predicate.step body.step refine remaining attempts p q input earlier).run =
      .error e := by
  unfold attempt at failed
  rw [retry.eq_def, run_bind_eq_error]
  obtain failed | ⟨produced, acted, failed⟩ := run_bind_eq_error.mp failed
  · exact .inl failed
  refine .inr ⟨produced, acted, run_bind_eq_error.mpr ?_⟩
  obtain failed | ⟨judged, asked, failed⟩ := run_bind_eq_error.mp failed
  · exact .inl failed
  refine .inr ⟨judged, asked, run_bind_eq_error.mpr ?_⟩
  obtain failed | ⟨holds, given, failed⟩ := run_bind_eq_error.mp failed
  · exact .inl failed
  · cases failed

/-- A retry makes an attempt and goes on only if the predicate does not hold and attempts remain. -/
theorem run_retry_of_attempt {last : Attempt}
    (made : (attempt predicate body p q input before).run = .ok last) :
    (retry predicate.name predicate.step body.step refine remaining attempts p q input
        before.reverse).run =
      if last.holds = true ∨ remaining = 0 then .ok (last.move attempts)
      else
        (retry predicate.name predicate.step body.step refine (remaining - 1) (attempts + 1)
          last.judged.position last.produced.position
          (refine last.input last.produced.output).run last.stages.reverse).run := by
  obtain ⟨produced, acted, judged, asked, holds, given, rfl⟩ := attempt_eq_ok.mp made
  rw [run_retry acted asked given]
  cases holds with
  | true => simp [finished, Attempt.move, Attempt.outcome]
  | false =>
    cases remaining with
    | zero => simp [finished, Attempt.move, Attempt.outcome]
    | succ remaining => simp

/-- An attempt after which a retry goes on if it may: it came to an end, and the predicate did not hold. -/
def Declined (made : ExceptT StepError Id Attempt) : Prop :=
  ∃ last, made.run = .ok last ∧ last.holds = false

/-- Of these attempts the one that follows on `count` others is the first that fails, that satisfies
the predicate or that is the last within the bound. -/
structure EndsAfter (made : Nat → ExceptT StepError Id Attempt) (bound count : Nat) : Prop where
  within : count < bound
  before : ∀ i < count, Declined (made i)
  ended : ¬ Declined (made count) ∨ count + 1 = bound

theorem not_declined_iff {made : ExceptT StepError Id Attempt} :
    ¬ Declined made ↔ ∀ last, made.run = .ok last → last.holds = true := by
  simp [Declined]

namespace EndsAfter

variable {made : Nat → ExceptT StepError Id Attempt} {bound wider : Nat}

/-- Within a bound there is always an attempt that ends. -/
theorem exists_of_pos (made : Nat → ExceptT StepError Id Attempt) (positive : 0 < bound) :
    ∃ count, EndsAfter made bound count := by
  classical
  have last : ∃ count, ¬ Declined (made count) ∨ count + 1 = bound :=
    ⟨bound - 1, .inr (Nat.sub_add_cancel positive)⟩
  refine ⟨Nat.find last, ?_, fun i earlier => ?_, Nat.find_spec last⟩
  · have least : Nat.find last ≤ bound - 1 := Nat.find_min' last (.inr (Nat.sub_add_cancel positive))
    omega
  · have goes := Nat.find_min last earlier
    rw [not_or, not_not] at goes
    exact goes.1

/-- What follows on the first attempt ends within what is left of the bound. -/
theorem tail (ends : EndsAfter made (bound + 1) (count + 1)) :
    EndsAfter (fun i => made (i + 1)) bound count where
  within := Nat.lt_of_succ_lt_succ ends.within
  before := fun i earlier => ends.before (i + 1) (Nat.succ_lt_succ earlier)
  ended := ends.ended.imp_right Nat.succ.inj

/-- A bound that was not the reason to end may as well be another. -/
theorem rebound (ends : EndsAfter made bound count) (ended : ¬ Declined (made count))
    (within : count < wider) : EndsAfter made wider count :=
  ⟨within, ends.before, .inl ended⟩

end EndsAfter

/-- A retry comes to what the attempt comes to that ends it. The induction is on the attempts before
that one. -/
theorem run_retry_of_endsAfter
    (ends : EndsAfter (attemptAfter predicate body refine p q input before) (remaining + 1) count) :
    (retry predicate.name predicate.step body.step refine remaining attempts p q input
        before.reverse).run =
      (attemptAfter predicate body refine p q input before count).run.map
        (·.move (attempts + count)) := by
  induction count generalizing p q input before remaining attempts with
  | zero =>
    rw [attemptAfter]
    cases made : (attempt predicate body p q input before).run with
    | error e => exact run_retry_of_failed made _
    | ok last =>
      have ended : last.holds = true ∨ remaining = 0 := by
        refine ends.ended.imp (fun stays => not_declined_iff.mp stays last made) fun full => ?_
        exact (Nat.succ.inj full).symm
      rw [run_retry_of_attempt made, if_pos ended]
      rfl
  | succ count ih =>
    obtain ⟨first, made, goes⟩ := ends.before 0 (Nat.succ_pos count)
    obtain ⟨remaining, rfl⟩ : ∃ more, remaining = more + 1 :=
      Nat.exists_eq_succ_of_ne_zero (by have := ends.within; omega)
    have on : ¬ (first.holds = true ∨ remaining + 1 = 0) := by simp [goes]
    have later : EndsAfter (attemptAfter predicate body refine first.judged.position
        first.produced.position (refine first.input first.produced.output).run first.stages)
        (remaining + 1) count := by
      have tail := ends.tail
      simp only [attemptAfter_succ made] at tail
      exact tail
    rw [run_retry_of_attempt made, if_neg on, Nat.add_sub_cancel, ih later, attemptAfter_succ made,
      Nat.add_right_comm, Nat.add_assoc]

/-- At a position where the input is legal, an agent that retries moves as the attempt that ends. -/
theorem run_step_fix {header : Header} (legal :
      ((fix header predicate body policy).directions (.pair p q)).contains input = true)
    (ends : EndsAfter (attemptAfter predicate body policy.refine p q input []) policy.maxAttempts
      count) :
    ((fix header predicate body policy).step (.pair p q) input).run =
      (attemptAfter predicate body policy.refine p q input [] count).run.map (·.move (count + 1)) := by
  have ends : EndsAfter (attemptAfter predicate body policy.refine p q input [])
      (policy.maxAttempts - 1 + 1) count := by rwa [Nat.sub_add_cancel policy.positive]
  rw [step, require_of_contains legal, pure_bind, parts2_pair, pure_bind, Nat.add_comm count 1]
  exact run_retry_of_endsAfter ends

/-- An agent that ends because its predicate holds moves the same under any bound that allows as many
attempts. -/
theorem run_step_fix_rebound {header : Header} {wider : RetryPolicy Id} {last : Attempt}
    (legal : ((fix header predicate body policy).directions (.pair p q)).contains input = true)
    (ends : EndsAfter (attemptAfter predicate body policy.refine p q input []) policy.maxAttempts
      count)
    (made : (attemptAfter predicate body policy.refine p q input [] count).run = .ok last)
    (holds : last.holds = true) (same : wider.refine = policy.refine)
    (enough : count < wider.maxAttempts) :
    ((fix header predicate body wider).step (.pair p q) input).run =
      ((fix header predicate body policy).step (.pair p q) input).run := by
  have stays : ¬ Declined (attemptAfter predicate body policy.refine p q input [] count) :=
    not_declined_iff.mpr fun other again => Except.ok.inj (made.symm.trans again) ▸ holds
  have wide := ends.rebound stays enough
  rw [run_step_fix legal ends]
  rw [← same] at wide ⊢
  -- The bound has no part in what is legal.
  exact run_step_fix legal wide

/-- Retrying is bounded iteration. The attempts go on from where the one before left the predicate and
the body, each on the input that the policy makes of the one before, until the first that fails, that
satisfies the predicate or that is the last allowed. If that one fails, so does the move, with the same
error. Otherwise the move leads to where the attempt left the parts, and its output is read back as
what the body gave at last, the number of attempts, and whether the predicate held, which it did
unless the bound was reached. An agent that converged does the same under any other bound that allows
as many attempts. -/
theorem retrying_iterates (composed : predicate.retrying body policy = .ok agent)
    (legal : (agent.directions position).contains input = true) :
    ∃ p q, position = .pair p q ∧
      (∃ count,
        EndsAfter (attemptAfter predicate body policy.refine p q input []) policy.maxAttempts count ∧
        (∀ e, (attemptAfter predicate body policy.refine p q input [] count).run = .error e →
          (agent.step position input).run = .error e) ∧
        ∀ last, (attemptAfter predicate body policy.refine p q input [] count).run = .ok last →
          (last.holds = true ∨ count + 1 = policy.maxAttempts) ∧
          ∃ move, (agent.step position input).run = .ok move ∧
            move.position = .pair last.judged.position last.produced.position ∧
            RetryOutcome.ofValue? move.output = some
              ⟨if last.holds then .converged else .exhausted, last.produced.output, count + 1⟩ ∧
            move.stages = last.stages) ∧
      ∀ move outcome, (agent.step position input).run = .ok move →
        RetryOutcome.ofValue? move.output = some outcome → outcome.status = .converged →
        ∀ wider : RetryPolicy Id, wider.refine = policy.refine →
          outcome.attempts ≤ wider.maxAttempts →
          ∃ other, predicate.retrying body wider = .ok other ∧
            (other.step position input).run = .ok move := by
  obtain ⟨fed, judges, rfl⟩ := retrying_eq_ok.mp composed
  obtain ⟨p, q, rfl, -, -⟩ := isPosition_fix_iff.mp (isPosition_of_contains legal)
  obtain ⟨count, ends⟩ := EndsAfter.exists_of_pos
    (attemptAfter predicate body policy.refine p q input []) policy.positive
  have moved := run_step_fix legal ends
  refine ⟨p, q, rfl, ⟨count, ends, fun e failed => ?_, fun last made => ⟨?_, ?_⟩⟩, ?_⟩
  · rw [moved, failed]
    rfl
  · exact ends.ended.imp_left fun stays => not_declined_iff.mp stays last made
  · rw [moved, made]
    exact ⟨_, rfl, rfl, RetryOutcome.ofValue?_toValue _, rfl⟩
  · intro move outcome came read converged wider same enough
    rw [moved] at came
    cases made : (attemptAfter predicate body policy.refine p q input [] count).run with
    | error e =>
      rw [made] at came
      exact nomatch came
    | ok last =>
      rw [made] at came
      obtain rfl := Except.ok.inj came
      obtain rfl := Option.some.inj ((RetryOutcome.ofValue?_toValue _).symm.trans read)
      have holds : last.holds = true := by
        by_contra declined
        simp [Attempt.outcome, declined] at converged
      refine ⟨_, retrying_eq_ok.mpr ⟨fed, judges, rfl⟩, ?_⟩
      rw [run_step_fix_rebound legal ends made holds same enough, moved, made]
      rfl

/-- One more than a number. -/
def successor : Agent Id :=
  .stateless "successor" ⟨.number, .number⟩ fun value => pure (.ofNat (value.nat?.getD 0 + 1))

/-- Whether a number is 3. -/
def isThree : Agent Id := .predicate "is three" .number fun value => pure (value == .ofNat 3)

/-- Counts up to 3 from its input, in as many attempts as a bound allows. -/
def countsUp (policy : RetryPolicy Id) : Agent Id :=
  .fix ⟨applied "fix" ["is three", "successor"], ⟨.number, RetryOutcome.typeOf .number⟩,
    .pair .null .null⟩ isThree successor policy

/-- Counting from 0, the predicate holds at the third attempt, be it the last allowed or not. -/
theorem retrying_iterates_counting :
    let tight : RetryPolicy Id := ⟨3, RetryPolicy.lastOutput, by decide⟩
    let wide : RetryPolicy Id := ⟨8, RetryPolicy.lastOutput, by decide⟩
    isThree.retrying successor tight = .ok (countsUp tight) ∧
      ((countsUp tight).directions (.pair .null .null)).contains (.ofNat 0) = true ∧
      ∃ stages,
        ((countsUp tight).step (.pair .null .null) (.ofNat 0)).run =
          .ok ⟨.pair .null .null, RetryOutcome.toValue ⟨.converged, .ofNat 3, 3⟩, stages⟩ ∧
        ∃ other, isThree.retrying successor wide = .ok other ∧
          (other.step (.pair .null .null) (.ofNat 0)).run =
            .ok ⟨.pair .null .null, RetryOutcome.toValue ⟨.converged, .ofNat 3, 3⟩, stages⟩ := by
  intro tight wide
  have composed : isThree.retrying successor tight = .ok (countsUp tight) := rfl
  have legal : ((countsUp tight).directions (.pair .null .null)).contains (.ofNat 0) = true := rfl
  have moved : ((countsUp tight).step (.pair .null .null) (.ofNat 0)).run =
    .ok ⟨.pair .null .null, RetryOutcome.toValue ⟨.converged, .ofNat 3, 3⟩,
      [⟨"successor", .ofNat 0, .ofNat 1⟩, ⟨"is three", .ofNat 1, .bool false⟩,
        ⟨"successor", .ofNat 1, .ofNat 2⟩, ⟨"is three", .ofNat 2, .bool false⟩,
        ⟨"successor", .ofNat 2, .ofNat 3⟩, ⟨"is three", .ofNat 3, .bool true⟩]⟩ := rfl
  obtain ⟨-, -, -, -, further⟩ := retrying_iterates composed legal
  refine ⟨composed, legal, _, moved, ?_⟩
  exact further _ _ moved (RetryOutcome.ofValue?_toValue _) rfl wide rfl (by decide)

end Agent

end AgentAlgebra
