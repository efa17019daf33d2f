import AgentAlgebra.Proofs.Agreement
import AgentAlgebra.Proofs.Conservation
/-!
# What a verdict means

Checking a law of pure agents comes to one question for each scenario: whether both sides run to
their ends, and whether their traces then match step by step. `Law.Agrees` and `Law.Breaks` say so
without the checker. A law is satisfied if all scenarios agree, violated if the first that does not
agree breaks it, and inapplicable otherwise. A second run of a pure side never shows anything, so
replaying makes no difference.
-/

namespace AgentAlgebra

/-- The agents of a scenario, each at the start that the scenario gives it. -/
def Scenario.placed {m : Type → Type} (scenario : Scenario) (agents : List (Agent m)) :
    List (Agent m) :=
  agents.mapIdx fun index agent =>
    match scenario.positions[index]? with
    | some (some position) => agent.withHeader { agent.header with initial := position }
    | _ => agent

/-- All starts that a scenario gives are positions of the agents they are given to. -/
def Scenario.StartsKnown {m : Type → Type} (scenario : Scenario) (agents : List (Agent m)) : Prop :=
  ∀ (index : Nat) (position : Value) (agent : Agent m),
    scenario.positions[index]? = some (some position) → agents[index]? = some agent →
      agent.isPosition position = true

/-- Two traces give equal outputs at every step, and equal frontiers where these are compared. -/
def Comparison.Matches (comparison : Comparison) (left right : Trace) : Prop :=
  List.Forall₂ (fun l r => (l.output == r.output) = true ∧
    (comparison = .outputsAndFrontier → (l.frontier == r.frontier) = true)) left.steps right.steps

namespace Law

variable (law : Law Id) (algebra : Algebra Id) (agents : List (Agent Id)) (scenario : Scenario)

/-- The agents can start where the scenario says, the law has these two sides for them, and from
their starts the sides have these traces. -/
structure RunsTo (lhs rhs : Agent Id) (left right : Trace) : Prop where
  starts : scenario.positions.length ≤ agents.length
  known : scenario.StartsKnown agents
  sides : (law.sides algebra (scenario.placed agents)).run = .ok (lhs, rhs)
  left : (lhs.trace lhs.initial scenario.inputs).run = .ok left
  right : (rhs.trace rhs.initial scenario.inputs).run = .ok right

/-- Both sides run to their ends and are seen to do the same. -/
def Agrees : Prop :=
  ∃ lhs rhs left right, law.RunsTo algebra agents scenario lhs rhs left right ∧
    law.comparison.Matches left right

/-- Both sides run to their ends and are seen to differ. -/
def Breaks : Prop :=
  ∃ lhs rhs left right, law.RunsTo algebra agents scenario lhs rhs left right ∧
    ¬ law.comparison.Matches left right

/-- The law is there, there is something to try it on, and there are as many agents as it is about.
-/
structure Triable (name : String) (scenarios : List Scenario) : Prop where
  found : algebra.law? name = some law
  inputs : scenarios ≠ []
  bound : agents.length = law.arity

/-- The violation that two traces of the sides show, if they show one. -/
def violation? (lhs rhs : Agent Id) (left right : Trace) : Option Violation :=
  (Divergence.between? left right (law.comparison = .outputsAndFrontier) false).map fun divergence =>
    .of FailureClass.lawViolation.name law.name law.equation scenario (.of lhs.name left)
      (.of rhs.name right) divergence

end Law

/-- A scenario is the first of a list that is not as it should be. -/
def FirstFailing (holds : Scenario → Prop) (scenarios : List Scenario) (scenario : Scenario) : Prop :=
  ∃ before after, scenarios = before ++ scenario :: after ∧ (∀ earlier ∈ before, holds earlier) ∧
    ¬ holds scenario

namespace Algebra

variable (algebra : Algebra Id) (name : String) (agents : List (Agent Id))
  (scenarios : List Scenario)

/-- The law of a name can be tried, and all scenarios agree with it. -/
def Upholds : Prop :=
  ∃ law : Law Id, law.Triable algebra agents name scenarios ∧
    ∀ scenario ∈ scenarios, law.Agrees algebra agents scenario

/-- The law of a name can be tried, and the first scenario that does not agree breaks it. -/
def FailsAt (scenario : Scenario) : Prop :=
  ∃ law : Law Id, law.Triable algebra agents name scenarios ∧
    FirstFailing (law.Agrees algebra agents) scenarios scenario ∧
      law.Breaks algebra agents scenario

end Algebra

theorem mapM_eq_ok_iff {ε α β : Type} {f : α → Except ε β} (good : α → Prop) (result : α → β)
    (each : ∀ a b, f a = .ok b ↔ good a ∧ result a = b) {items : List α} {made : List β} :
    items.mapM f = .ok made ↔ (∀ a ∈ items, good a) ∧ items.map result = made := by
  induction items generalizing made with
  | nil => simp [pure, Except.pure]
  | cons item items ih =>
    simp only [List.mapM_cons, bind_eq_ok, each, ih, List.forall_mem_cons, List.map_cons]
    constructor
    · rintro ⟨one, ⟨fine, rfl⟩, rest, ⟨others, rfl⟩, whole⟩
      exact ⟨⟨fine, others⟩, Except.ok.inj whole⟩
    · rintro ⟨⟨fine, others⟩, rfl⟩
      exact ⟨result item, ⟨fine, rfl⟩, _, ⟨others, rfl⟩, rfl⟩

/-- The agents can be moved to their starts exactly if all starts are positions. -/
theorem Scenario.bind_eq_ok {m : Type → Type} {scenario : Scenario} {agents bound : List (Agent m)} :
    scenario.bind agents = .ok bound ↔
      scenario.StartsKnown agents ∧ scenario.placed agents = bound := by
  let fine (given : Agent m × Nat) : Prop :=
    ∀ position, scenario.positions[given.2]? = some (some position) →
      given.1.isPosition position = true
  have all : (∀ given ∈ agents.zipIdx, fine given) ↔ scenario.StartsKnown agents := by
    constructor
    · intro known index position agent start bound
      exact known (agent, index) (List.mem_zipIdx_iff_getElem?.mpr bound) position start
    · rintro known ⟨agent, index⟩ among position start
      exact known index position agent start (List.mem_zipIdx_iff_getElem?.mp among)
  unfold Scenario.bind Scenario.placed
  rw [← all, List.mapIdx_eq_zipIdx_map]
  refine mapM_eq_ok_iff fine _ ?_
  rintro ⟨agent, index⟩ moved
  dsimp only [fine]
  rcases scenario.positions[index]? with _ | _ | position
  · simp
  · simp
  · simp [Agent.startingAt_eq_ok]

section

variable {agent : Agent Id} {position last : Value} {inputs : List Value} {steps : List StepTrace}
  {seen left right : Trace} {comparison : Comparison}

theorem Agent.length_traceFrom (traced : (agent.traceFrom position inputs).run = .ok (steps, last)) :
    steps.length = inputs.length := by
  induction inputs generalizing position steps with
  | nil =>
    obtain ⟨rfl, -⟩ := traceFrom_nil.mp traced
    rfl
  | cons input inputs ih =>
    obtain ⟨move, -, rest, followed, rfl⟩ := traceFrom_cons.mp traced
    rw [List.length_cons, List.length_cons, ih followed]

/-- A trace has a step for every input. -/
theorem Agent.length_trace (traced : (agent.trace position inputs).run = .ok seen) :
    seen.steps.length = inputs.length := by
  obtain ⟨-, steps, last, followed, rfl⟩ := trace_eq_ok.mp traced
  exact length_traceFrom followed

theorem Divergence.between?_eq_none (same : left.steps.length = right.steps.length) :
    between? left right (comparison = .outputsAndFrontier) false = none ↔
      comparison.Matches left right := by
  unfold between? Comparison.Matches
  rw [among?_eq_none same]
  have each (l r : StepTrace) :
      StepTrace.Matches (comparison = .outputsAndFrontier) false l r ↔ (l.output == r.output) = true ∧
        (comparison = .outputsAndFrontier → (l.frontier == r.frontier) = true) := by
    constructor
    · intro alike
      exact ⟨alike.output, fun counts => alike.frontier (decide_eq_true counts)⟩
    · rintro ⟨output, frontier⟩
      exact ⟨output, fun counts => frontier (of_decide_eq_true counts), nofun⟩
  constructor
  · exact List.Forall₂.imp fun l r => (each l r).mp
  · exact List.Forall₂.imp fun l r => (each l r).mpr

end

namespace Law

variable {law : Law Id} {algebra : Algebra Id} {agents : List (Agent Id)} {scenario : Scenario}
  {lhs rhs lhs' rhs' : Agent Id} {left right left' right' : Trace}

/-- What the two sides are and do is settled by the law, the agents and the scenario. -/
theorem RunsTo.unique (one : law.RunsTo algebra agents scenario lhs rhs left right)
    (two : law.RunsTo algebra agents scenario lhs' rhs' left' right') :
    left = left' ∧ right = right' := by
  obtain ⟨rfl, rfl⟩ := Prod.mk.inj (Except.ok.inj (one.sides.symm.trans two.sides))
  have sameLeft := Except.ok.inj (one.left.symm.trans two.left)
  have sameRight := Except.ok.inj (one.right.symm.trans two.right)
  exact ⟨sameLeft, sameRight⟩

/-- No scenario both agrees with a law and breaks it. -/
theorem Agrees.not_breaks (agrees : law.Agrees algebra agents scenario) :
    ¬ law.Breaks algebra agents scenario := by
  rintro ⟨lhs', rhs', left', right', runs', differ⟩
  obtain ⟨lhs, rhs, left, right, runs, same⟩ := agrees
  obtain ⟨rfl, rfl⟩ := runs.unique runs'
  exact differ same

/-- The traces of two sides show no violation exactly if they match. -/
theorem violation?_eq_none (runs : law.RunsTo algebra agents scenario lhs rhs left right) :
    law.violation? scenario lhs rhs left right = none ↔ law.comparison.Matches left right := by
  have lengths : left.steps.length = right.steps.length := by
    rw [Agent.length_trace runs.left, Agent.length_trace runs.right]
  unfold violation?
  rw [Option.map_eq_none_iff, Divergence.between?_eq_none lengths]

end Law

namespace VerifySettings

variable {settings : VerifySettings} {algebra : Algebra Id} {law : Law Id} {name : String}
  {agents : List (Agent Id)} {scenario : Scenario} {scenarios : List Scenario} {lhs rhs : Agent Id}
  {found : Option Violation} {violation : Violation}

/-- Comparing two pure sides gives what their traces show; replaying them adds nothing. -/
theorem compared_eq (settings : VerifySettings) (law : Law Id) (scenario : Scenario)
    (lhs rhs : Agent Id) :
    settings.compared law scenario lhs rhs = do
      let left ← observe lhs scenario
      let right ← observe rhs scenario
      return law.violation? scenario lhs rhs left right := by
  unfold compared Law.violation?
  cases seen : (observe lhs scenario).run with
  | error e =>
    have first : observe lhs scenario = throw e := seen
    rw [first, throw_bind, throw_bind]
  | ok left =>
    have first : observe lhs scenario = pure left := seen
    rw [first, pure_bind, pure_bind]
    cases seen' : (observe rhs scenario).run with
    | error e =>
      have second : observe rhs scenario = throw e := seen'
      rw [second, throw_bind, throw_bind]
    | ok right =>
      have second : observe rhs scenario = pure right := seen'
      have again : replayed? law scenario lhs left = pure none := run_replayed seen
      have again' : replayed? law scenario rhs right = pure none := run_replayed seen'
      rw [second, pure_bind, pure_bind, again, again', pure_bind]
      cases Divergence.between? left right (law.comparison = .outputsAndFrontier) false with
      | some divergence => rfl
      | none => exact ite_self _

theorem compared_eq_ok :
    (settings.compared law scenario lhs rhs).run = .ok found ↔
      ∃ left right, (lhs.trace lhs.initial scenario.inputs).run = .ok left ∧
        (rhs.trace rhs.initial scenario.inputs).run = .ok right ∧
          law.violation? scenario lhs rhs left right = found := by
  rw [compared_eq]
  simp only [run_bind_eq_ok, observe_eq_ok, exists_and_left]
  refine exists_congr fun left => and_congr_right fun _ => exists_congr fun right =>
    and_congr_right fun _ => ?_
  exact ⟨Except.ok.inj, congrArg Except.ok⟩

/-- A law can be tried on a scenario exactly if both sides run to their ends, and what is found is
what their traces show. -/
theorem check_eq_ok :
    (settings.check algebra law agents scenario).run = .ok found ↔
      ∃ lhs rhs left right, law.RunsTo algebra agents scenario lhs rhs left right ∧
        law.violation? scenario lhs rhs left right = found := by
  rw [check_eq]
  constructor
  · intro made
    split at made
    · exact nomatch made
    · rename_i starts
      split at made
      · rename_i bound placed
        obtain ⟨known, rfl⟩ := Scenario.bind_eq_ok.mp placed
        obtain ⟨⟨lhs, rhs⟩, built, made⟩ := run_bind_eq_ok.mp made
        obtain ⟨left, right, traced, traced', shown⟩ := compared_eq_ok.mp made
        have sides := adapt_eq_ok.mp built
        exact ⟨lhs, rhs, left, right, ⟨Nat.le_of_not_lt starts, known, sides, traced, traced'⟩,
          shown⟩
      · exact nomatch made
  · rintro ⟨lhs, rhs, left, right, ⟨starts, known, sides, traced, traced'⟩, shown⟩
    rw [if_neg (Nat.not_lt.mpr starts), Scenario.bind_eq_ok.mpr ⟨known, rfl⟩]
    refine run_bind_eq_ok.mpr ⟨(lhs, rhs), adapt_eq_ok.mpr sides, ?_⟩
    exact compared_eq_ok.mpr ⟨left, right, traced, traced', shown⟩

theorem check_eq_ok_none (settings : VerifySettings) :
    (settings.check algebra law agents scenario).run = .ok none ↔
      law.Agrees algebra agents scenario := by
  rw [check_eq_ok]
  refine exists_congr fun lhs => exists_congr fun rhs => exists_congr fun left =>
    exists_congr fun right => and_congr_right fun runs => ?_
  exact Law.violation?_eq_none runs

/-- A violation that is found names its sort and carries the scenario. -/
theorem breaks_of_check
    (made : (settings.check algebra law agents scenario).run = .ok (some violation)) :
    law.Breaks algebra agents scenario ∧ violation.failure = FailureClass.lawViolation.name ∧
      violation.input = scenario := by
  obtain ⟨lhs, rhs, left, right, runs, shown⟩ := check_eq_ok.mp made
  have differ : ¬ law.comparison.Matches left right := by
    rw [← Law.violation?_eq_none runs, shown]
    exact nofun
  obtain ⟨divergence, -, rfl⟩ := Option.map_eq_some_iff.mp shown
  exact ⟨⟨lhs, rhs, left, right, runs, differ⟩, rfl, rfl⟩

theorem check_of_breaks (settings : VerifySettings) (breaks : law.Breaks algebra agents scenario) :
    ∃ violation, (settings.check algebra law agents scenario).run = .ok (some violation) := by
  obtain ⟨lhs, rhs, left, right, runs, differ⟩ := breaks
  have shown : law.violation? scenario lhs rhs left right ≠ none := by
    rw [Ne, Law.violation?_eq_none runs]
    exact differ
  obtain ⟨violation, shown⟩ := Option.ne_none_iff_exists'.mp shown
  exact ⟨violation, check_eq_ok.mpr ⟨lhs, rhs, left, right, runs, shown⟩⟩

theorem checkAll_eq_ok_none :
    (settings.checkAll algebra law agents scenarios).run = .ok none ↔
      ∀ scenario ∈ scenarios, law.Agrees algebra agents scenario := by
  induction scenarios with
  | nil => exact ⟨fun _ _ among => absurd among List.not_mem_nil, fun _ => rfl⟩
  | cons scenario scenarios ih =>
    rw [checkAll, run_bind_eq_ok, List.forall_mem_cons, ← ih,
      ← check_eq_ok_none settings]
    constructor
    · rintro ⟨one, checked, made⟩
      cases one with
      | none => exact ⟨checked, made⟩
      | some violation => exact absurd (Except.ok.inj made) (Option.some_ne_none violation)
    · rintro ⟨checked, made⟩
      exact ⟨none, checked, made⟩

/-- The violation that is found is that of the first scenario that does not agree. -/
theorem checkAll_eq_ok_some :
    (settings.checkAll algebra law agents scenarios).run = .ok (some violation) ↔
      ∃ scenario, FirstFailing (law.Agrees algebra agents) scenarios scenario ∧
        (settings.check algebra law agents scenario).run = .ok (some violation) := by
  induction scenarios with
  | nil =>
    constructor
    · intro made
      exact nomatch made
    · rintro ⟨scenario, ⟨before, after, split, -⟩, -⟩
      exact absurd split.symm (List.append_ne_nil_of_right_ne_nil before (List.cons_ne_nil _ _))
  | cons scenario scenarios ih =>
    rw [checkAll, run_bind_eq_ok]
    constructor
    · rintro ⟨one, checked, made⟩
      cases one with
      | none =>
        obtain ⟨first, ⟨before, after, rfl, agree, failing⟩, shown⟩ := ih.mp made
        have here := (check_eq_ok_none settings).mp checked
        exact ⟨first, ⟨scenario :: before, after, rfl, List.forall_mem_cons.mpr ⟨here, agree⟩,
          failing⟩, shown⟩
      | some one =>
        obtain rfl := Option.some.inj (Except.ok.inj made)
        have failing : ¬ law.Agrees algebra agents scenario :=
          fun agrees => agrees.not_breaks (breaks_of_check checked).1
        exact ⟨scenario, ⟨[], scenarios, rfl, by simp, failing⟩, checked⟩
    · rintro ⟨first, ⟨before, after, split, agree, failing⟩, shown⟩
      cases before with
      | nil =>
        obtain ⟨rfl, rfl⟩ := List.cons.inj split
        exact ⟨some violation, shown, rfl⟩
      | cons head before =>
        obtain ⟨rfl, rfl⟩ := List.cons.inj split
        obtain ⟨here, agree⟩ := List.forall_mem_cons.mp agree
        have later := ih.mpr ⟨first, ⟨before, after, rfl, agree, failing⟩, shown⟩
        exact ⟨none, (check_eq_ok_none settings).mpr here, later⟩

/-- Everything that checking a law does, up to the verdict on it. -/
def attempt (settings : VerifySettings) (algebra : Algebra Id) (name : String)
    (agents : List (Agent Id)) (scenarios : List Scenario) : Except Obstacle (Option Violation) :=
  match algebra.law? name with
  | none => .error (.noLaw algebra.name name)
  | some law => (settings.checkFound algebra law agents scenarios).run

theorem verify_eq_verdict :
    (settings.verify algebra name agents scenarios).run =
      verdict name scenarios (settings.attempt algebra name agents scenarios) := by
  unfold attempt
  cases found : algebra.law? name with
  | none =>
    unfold verify
    simp only [found]
    rfl
  | some law =>
    rw [verify_eq found]
    rfl

theorem attempt_eq_ok :
    settings.attempt algebra name agents scenarios = .ok found ↔
      ∃ law : Law Id, law.Triable algebra agents name scenarios ∧
        (settings.checkAll algebra law agents scenarios).run = .ok found := by
  unfold attempt
  constructor
  · intro made
    split at made
    · exact nomatch made
    · rename_i law known
      unfold checkFound at made
      split at made
      · exact nomatch made
      · rename_i inputs
        split at made
        · exact nomatch made
        · rename_i bound
          have triable : law.Triable algebra agents name scenarios :=
            ⟨known, by simpa using inputs, by simpa using bound⟩
          exact ⟨law, triable, made⟩
  · rintro ⟨law, ⟨known, inputs, bound⟩, made⟩
    simp only [known]
    unfold checkFound
    rw [if_neg (by simpa using inputs), if_neg (by simpa using bound)]
    exact made

theorem attempt_eq_ok_none :
    settings.attempt algebra name agents scenarios = .ok none ↔
      algebra.Upholds name agents scenarios := by
  unfold Algebra.Upholds
  simp only [attempt_eq_ok, checkAll_eq_ok_none]

/-- A violation that is found says that a law was violated and carries the scenario that did it. -/
theorem failsAt_of_attempt
    (made : settings.attempt algebra name agents scenarios = .ok (some violation)) :
    violation.failure = FailureClass.lawViolation.name ∧
      algebra.FailsAt name agents scenarios violation.input := by
  obtain ⟨law, triable, made⟩ := attempt_eq_ok.mp made
  obtain ⟨scenario, first, checked⟩ := checkAll_eq_ok_some.mp made
  obtain ⟨breaks, failure, rfl⟩ := breaks_of_check checked
  exact ⟨failure, law, triable, first, breaks⟩

theorem attempt_of_failsAt (settings : VerifySettings)
    (fails : algebra.FailsAt name agents scenarios scenario) :
    ∃ violation, settings.attempt algebra name agents scenarios = .ok (some violation) := by
  obtain ⟨law, triable, first, breaks⟩ := fails
  obtain ⟨violation, checked⟩ := check_of_breaks settings breaks
  exact ⟨violation, attempt_eq_ok.mpr ⟨law, triable, checkAll_eq_ok_some.mpr ⟨_, first, checked⟩⟩⟩

/-- Replaying pure agents changes nothing of what checking comes to, errors included. -/
theorem verify_replay (settings settings' : VerifySettings) :
    settings'.verify algebra name agents scenarios =
      settings.verify algebra name agents scenarios := by
  cases found : algebra.law? name with
  | none =>
    unfold verify
    simp only [found]
  | some law =>
    refine verify_congr found found (fun scenario => ?_) scenarios
    rw [check_eq, check_eq]
    simp only [compared_eq]

section

variable {result : Except Obstacle (Option Violation)}

theorem verdict_eq_satisfied :
    verdict name scenarios result = .satisfied name scenarios.length ↔ result = .ok none := by
  rcases result with obstacle | _ | violation <;> simp [verdict]

theorem verdict_eq_violated :
    verdict name scenarios result = .violated violation ↔ result = .ok (some violation) := by
  rcases result with obstacle | _ | violation <;> simp [verdict]

theorem verdict_eq_inapplicable :
    (∃ reason, verdict name scenarios result = .inapplicable name reason) ↔
      result ≠ .ok none ∧ ∀ violation, result ≠ .ok (some violation) := by
  rcases result with obstacle | _ | violation <;> simp [verdict]

end

/-- The verdict on a law, for pure agents. It is satisfied exactly if it can be tried and all
scenarios agree. It is violated exactly if it can be tried and the first scenario that does not
agree breaks it; the report then says that a law was violated, and carries that scenario. In all
other cases it is inapplicable. Whether the sides are replayed makes no difference. -/
theorem verify_exact (settings : VerifySettings) (algebra : Algebra Id) (name : String)
    (agents : List (Agent Id)) (scenarios : List Scenario) :
    ((settings.verify algebra name agents scenarios).run = .satisfied name scenarios.length ↔
      algebra.Upholds name agents scenarios) ∧
    ((∃ violation, (settings.verify algebra name agents scenarios).run = .violated violation) ↔
      ∃ scenario, algebra.FailsAt name agents scenarios scenario) ∧
    (∀ violation, (settings.verify algebra name agents scenarios).run = .violated violation →
      violation.failure = "law_violation" ∧
        algebra.FailsAt name agents scenarios violation.input) ∧
    ((∃ reason, (settings.verify algebra name agents scenarios).run = .inapplicable name reason) ↔
      ¬ algebra.Upholds name agents scenarios ∧
        ¬ ∃ scenario, algebra.FailsAt name agents scenarios scenario) ∧
    ∀ settings' : VerifySettings, settings'.verify algebra name agents scenarios =
      settings.verify algebra name agents scenarios := by
  have violated : (∃ violation,
      settings.attempt algebra name agents scenarios = .ok (some violation)) ↔
        ∃ scenario, algebra.FailsAt name agents scenarios scenario := by
    constructor
    · rintro ⟨violation, made⟩
      exact ⟨violation.input, (failsAt_of_attempt made).2⟩
    · rintro ⟨scenario, fails⟩
      exact attempt_of_failsAt settings fails
  rw [verify_eq_verdict]
  refine ⟨?_, ?_, ?_, ?_, verify_replay settings⟩
  · rw [verdict_eq_satisfied, attempt_eq_ok_none]
  · simp only [verdict_eq_violated, violated]
  · intro violation made
    exact failsAt_of_attempt (verdict_eq_violated.mp made)
  · rw [verdict_eq_inapplicable, Ne, attempt_eq_ok_none, ← violated, not_exists]

/-- A law that takes any two agents to be the same. -/
def allSame : Law Id := ⟨"all_same", .var 0, .var 1, .outputs⟩

/-- The algebra of that law alone. -/
def allSameOnly : Algebra Id := ⟨"test", none, [], [allSame]⟩

/-- The sides of `allSame` for the identity and a constant run to their ends on any input. -/
theorem runsTo_allSame (input : Value) :
    allSame.RunsTo allSameOnly [.id .any, .constant .null] (.single input) (.id .any)
      (.constant .null) ⟨.null, .null, [], [⟨input, input, [], []⟩]⟩
      ⟨.null, .null, [.null], [⟨input, .null, [.null], [⟨"const(null)", input, .null⟩]⟩]⟩ where
  starts := Nat.zero_le _
  known := by
    intro index position agent start
    simp [Scenario.single] at start
  sides := rfl
  left := rfl
  right := rfl

/-- The identity and the constant `null` are told apart by the second of two inputs. -/
theorem verify_exact_allSame :
    ∃ violation, (VerifySettings.verify {} allSameOnly "all_same" [.id .any, .constant .null]
        [.single .null, .single (.bool true)]).run = .violated violation ∧
      violation.failure = "law_violation" ∧
        allSameOnly.FailsAt "all_same" [.id .any, .constant .null]
          [.single .null, .single (.bool true)] violation.input := by
  have exact := verify_exact {} allSameOnly "all_same" [.id .any, .constant .null]
    [.single .null, .single (.bool true)]
  have agrees : allSame.Agrees allSameOnly [.id .any, .constant .null] (.single .null) :=
    ⟨_, _, _, _, runsTo_allSame .null, .cons ⟨rfl, nofun⟩ .nil⟩
  have breaks : allSame.Breaks allSameOnly [.id .any, .constant .null] (.single (.bool true)) := by
    refine ⟨_, _, _, _, runsTo_allSame (.bool true), fun same => ?_⟩
    obtain ⟨⟨differ, -⟩, -⟩ := List.forall₂_cons.mp same
    exact nomatch differ
  have fails : allSameOnly.FailsAt "all_same" [.id .any, .constant .null]
      [.single .null, .single (.bool true)] (.single (.bool true)) := by
    refine ⟨allSame, ⟨rfl, List.cons_ne_nil _ _, rfl⟩, ⟨[.single .null], [], rfl, ?_, ?_⟩, breaks⟩
    · exact List.forall_mem_singleton.mpr agrees
    · exact fun agrees' => agrees'.not_breaks breaks
  obtain ⟨violation, found⟩ := exact.2.1.mpr ⟨_, fails⟩
  obtain ⟨failure, at_⟩ := exact.2.2.1 violation found
  exact ⟨violation, found, failure, at_⟩

end VerifySettings

end AgentAlgebra
