import AgentAlgebra.Proofs.Effects
import AgentAlgebra.Proofs.Forms
import AgentAlgebra.Proofs.Verdicts
/-!
# What is kept of a report

A violation that verification finds carries one of the scenarios that the law was tried on. Written
down and read back, a result is what it was unless that scenario starts an agent at `null`: this
start is then gone, and what is read back may not break the law any more. Every scenario with inputs
is carried by some violation, so results are kept over a set of scenarios exactly if none of them has
inputs and such a start.
-/

namespace AgentAlgebra

open MonadAttach LawfulMonadAttach

variable {m : Type → Type} [Monad m] [LawfulMonad m]

namespace VerifySettings

variable {settings : VerifySettings} {algebra : Algebra m} {law : Law m} {agents : List (Agent m)}
  {scenario : Scenario} {scenarios : List Scenario} {lhs rhs side : Agent m}

/-- Replaying a side reports the scenario that it was replayed on. -/
theorem gives_replayed (first : Trace) :
    Gives (replayed? law scenario side first) fun found =>
      ∀ violation ∈ found, violation.input = scenario := by
  unfold replayed?
  refine .bind_last fun again => .pure fun violation mem => ?_
  obtain ⟨divergence, -, rfl⟩ := Option.map_eq_some_iff.mp mem
  rfl

theorem gives_compared :
    Gives (settings.compared law scenario lhs rhs) fun found =>
      ∀ violation ∈ found, violation.input = scenario := by
  unfold compared
  refine .bind_last fun left => .bind_last fun right => ?_
  cases Divergence.between? left right (law.comparison = .outputsAndFrontier) false with
  | some divergence =>
    refine .pure fun violation mem => ?_
    obtain rfl := Option.some.inj mem
    rfl
  | none =>
    dsimp only
    split
    · refine (gives_replayed left).bind fun found carried => ?_
      cases found with
      | some violation => exact .pure carried
      | none => exact gives_replayed right
    · exact .pure nofun

/-- What is found in trying a law on a scenario carries the scenario. -/
theorem gives_check :
    Gives (settings.check algebra law agents scenario) fun found =>
      ∀ violation ∈ found, violation.input = scenario := by
  rw [check_eq]
  split
  · exact .throw _
  · split
    · exact .bind_last fun sides => gives_compared
    · exact .throw _

theorem gives_checkAll :
    Gives (settings.checkAll algebra law agents scenarios) fun found =>
      ∀ violation ∈ found, violation.input ∈ scenarios := by
  induction scenarios with
  | nil => exact .pure nofun
  | cons scenario scenarios ih =>
    rw [checkAll]
    refine gives_check.bind fun found carried => ?_
    cases found with
    | some violation =>
      refine .pure fun other mem => ?_
      rw [carried other mem]
      exact List.mem_cons_self
    | none =>
      refine ih.mono fun found carried violation mem => ?_
      exact List.mem_cons_of_mem _ (carried violation mem)

theorem gives_checkFound :
    Gives (settings.checkFound algebra law agents scenarios) fun found =>
      ∀ violation ∈ found, violation.input ∈ scenarios := by
  unfold checkFound
  split
  · exact .throw _
  · split
    · exact .throw _
    · exact gives_checkAll

variable [MonadAttach m] [LawfulMonadAttach m]

/-- A violation carries one of the scenarios that were tried. -/
theorem input_mem_of_verify {name : String} {outcome : LawOutcome}
    (returned : CanReturn (settings.verify algebra name agents scenarios) outcome)
    {violation : Violation} (mem : violation ∈ outcome.violation?) :
    violation.input ∈ scenarios := by
  cases found : algebra.law? name with
  | none =>
    unfold verify at returned
    simp only [found] at returned
    rw [ExceptT.run_throw, pure_bind] at returned
    obtain rfl := eq_of_canReturn_pure returned
    exact nomatch mem
  | some law =>
    rw [verify_eq found] at returned
    obtain ⟨result, checked, rfl⟩ := canReturn_map_imp' returned
    have carried := Ensures.of_canReturn gives_checkFound checked
    match result with
    | .ok (some violation) =>
      obtain rfl := Option.some.inj mem
      exact carried _ rfl

/-- A violation in a report carries one of the scenarios of its trial. -/
theorem input_mem_of_verifyAll {trials : List (Trial m)} {report : LawReport}
    (returned : CanReturn (settings.verifyAll algebra trials) report)
    {violation : Violation} (mem : violation ∈ report.violations) :
    ∃ trial ∈ trials, violation.input ∈ trial.inputs := by
  unfold verifyAll at returned
  obtain ⟨results, made, whole⟩ := canReturn_bind_imp' returned
  obtain rfl := eq_of_canReturn_pure whole
  obtain ⟨outcome, held, found⟩ := List.mem_filterMap.mp mem
  obtain ⟨trial, among, verified⟩ := canReturn_mapM made held
  exact ⟨trial, among, input_mem_of_verify verified found⟩

end VerifySettings

namespace Agent

/-- The steps in which a constant gives a truth value. -/
def telling (b : Bool) (inputs : List Value) : List StepTrace :=
  inputs.map fun input =>
    ⟨input, .bool b, [.null], [⟨(constant (m := Id) (.bool b)).name, input, .bool b⟩]⟩

theorem traceFrom_constant (b : Bool) (inputs : List Value) :
    (constant (m := Id) (.bool b)).traceFrom .null inputs = pure (telling b inputs, .null) := by
  induction inputs with
  | nil => rfl
  | cons input inputs ih =>
    have moved : (constant (m := Id) (.bool b)).step .null input =
      pure ⟨.null, .bool b, [⟨(constant (m := Id) (.bool b)).name, input, .bool b⟩]⟩ := rfl
    rw [traceFrom, moved, pure_bind, ih, pure_bind]
    rfl

theorem trace_constant (b : Bool) (inputs : List Value) :
    ((constant (m := Id) (.bool b)).trace .null inputs).run =
      .ok ⟨.null, .null, [.null], telling b inputs⟩ := by
  have traced : (constant (m := Id) (.bool b)).trace .null inputs =
      (fun (found : List StepTrace × Value) => ⟨.null, found.2, [found.2], found.1⟩) <$>
        (constant (m := Id) (.bool b)).traceFrom .null inputs := rfl
  rw [traced, traceFrom_constant]
  rfl

/-- An agent that has one position. -/
def staying (position : Value) : Agent Id :=
  .primitive ⟨"staying", ⟨.any, .any⟩, position⟩
    { positions := [position]
      directions := fun _ => .typed .any
      transition := fun position input => pure (position, input)
      nonempty := List.cons_ne_nil _ _
      distinct := List.pairwise_singleton _ _ }

end Agent

namespace Scenario

variable (scenario : Scenario)

/-- Agents that can start where a scenario says, and one that it does not move. -/
def actors : List (Agent Id) :=
  scenario.positions.map (fun position => .staying (position.getD .null)) ++
    [.constant (.bool true)]

/-- A law that the agent which is not moved breaks on every input. -/
def brokenLaw : Law Id :=
  ⟨"broken", .var scenario.positions.length, .agent (.constant (.bool false)), .outputs⟩

/-- The algebra of that law alone. -/
def brokenAlgebra : Algebra Id := ⟨"broken", none, [], [scenario.brokenLaw]⟩

theorem length_actors : scenario.actors.length = scenario.brokenLaw.arity := by
  have arity : scenario.brokenLaw.arity = scenario.positions.length + 1 :=
    Nat.max_eq_left (Nat.zero_le _)
  simp [arity, actors]

theorem startsKnown_actors : scenario.StartsKnown scenario.actors := by
  intro index position agent start given
  obtain ⟨inside, held⟩ := List.getElem?_eq_some_iff.mp start
  obtain rfl : .staying position = agent := by
    simpa [actors, List.getElem?_append, inside, held] using given
  simp [Agent.staying, Agent.isPosition]

theorem sides_brokenLaw :
    (scenario.brokenLaw.sides scenario.brokenAlgebra (scenario.placed scenario.actors)).run =
      .ok (.constant (.bool true), .constant (.bool false)) := by
  have bound : (scenario.placed scenario.actors).length = scenario.brokenLaw.arity := by
    rw [← length_actors]
    exact List.length_mapIdx
  have last : (scenario.placed scenario.actors)[scenario.positions.length]? =
      some (.constant (.bool true)) := by
    simp [placed, actors]
  have lhs : scenario.brokenLaw.lhs.instantiate scenario.brokenAlgebra
      (scenario.placed scenario.actors) = pure (.constant (.bool true)) := by
    simp only [brokenLaw, Expr.instantiate, last]
  unfold Law.sides
  rw [if_pos bound, lhs]
  rfl

theorem breaks_brokenLaw (some_input : scenario.inputs ≠ []) :
    scenario.brokenLaw.Breaks scenario.brokenAlgebra scenario.actors scenario := by
  have runs : scenario.brokenLaw.RunsTo scenario.brokenAlgebra scenario.actors scenario
      (.constant (.bool true)) (.constant (.bool false)) _ _ :=
    { starts := by simp [actors]
      known := scenario.startsKnown_actors
      sides := scenario.sides_brokenLaw
      left := Agent.trace_constant true _
      right := Agent.trace_constant false _ }
  refine ⟨_, _, _, _, runs, fun same => ?_⟩
  obtain ⟨input, rest, inputs⟩ := List.exists_cons_of_ne_nil some_input
  unfold Comparison.Matches Agent.telling at same
  rw [inputs] at same
  exact nomatch (List.forall₂_cons.mp same).1.1

/-- Every scenario with inputs is carried by a violation of some law. -/
theorem exists_violated (settings : VerifySettings) (some_input : scenario.inputs ≠ []) :
    ∃ violation, (settings.verify scenario.brokenAlgebra "broken" scenario.actors [scenario]).run =
      .violated violation ∧ violation.input = scenario := by
  have breaks := scenario.breaks_brokenLaw some_input
  have first : FirstFailing
      (scenario.brokenLaw.Agrees scenario.brokenAlgebra scenario.actors) [scenario] scenario :=
    ⟨[], [], rfl, nofun, fun agrees => agrees.not_breaks breaks⟩
  have fails : scenario.brokenAlgebra.FailsAt "broken" scenario.actors [scenario] scenario :=
    ⟨scenario.brokenLaw, ⟨rfl, List.cons_ne_nil _ _, scenario.length_actors⟩, first, breaks⟩
  obtain ⟨violation, found⟩ := VerifySettings.attempt_of_failsAt settings fails
  have violated : (settings.verify scenario.brokenAlgebra "broken" scenario.actors [scenario]).run =
      .violated violation := by
    rw [VerifySettings.verify_eq_verdict, found]
    rfl
  have mem : violation ∈ (LawOutcome.violated violation).violation? := Option.mem_some_self _
  have returned : CanReturn
      (settings.verify scenario.brokenAlgebra "broken" scenario.actors [scenario])
      (.violated violation) := violated
  have carried := VerifySettings.input_mem_of_verify returned mem
  exact ⟨violation, violated, List.mem_singleton.mp carried⟩

end Scenario

/-- Only a scenario with inputs breaks a law. -/
theorem Law.Breaks.inputs_ne_nil {law : Law Id} {algebra : Algebra Id} {agents : List (Agent Id)}
    {scenario : Scenario} (breaks : law.Breaks algebra agents scenario) : scenario.inputs ≠ [] := by
  obtain ⟨lhs, rhs, left, right, runs, differ⟩ := breaks
  intro none
  have lefts := Agent.length_trace runs.left
  have rights := Agent.length_trace runs.right
  rw [none, List.length_nil, List.length_eq_zero_iff] at lefts rights
  apply differ
  unfold Comparison.Matches
  rw [lefts, rights]
  exact .nil

theorem LawOutcome.mem_violation? {outcome : LawOutcome} {violation : Violation} :
    violation ∈ outcome.violation? ↔ outcome = .violated violation := by
  cases outcome <;> simp [violation?]

namespace VerifySettings

theorem inputs_ne_nil_of_verify {settings : VerifySettings} {algebra : Algebra Id} {name : String}
    {agents : List (Agent Id)} {scenarios : List Scenario} {violation : Violation}
    (mem : violation ∈ (settings.verify algebra name agents scenarios).run.violation?) :
    violation.input.inputs ≠ [] := by
  have violated := LawOutcome.mem_violation?.mp mem
  rw [verify_eq_verdict, verdict_eq_violated] at violated
  obtain ⟨-, law, -, -, breaks⟩ := failsAt_of_attempt violated
  exact breaks.inputs_ne_nil

variable [MonadAttach m] [LawfulMonadAttach m]

/-- What verification finds carries one of the scenarios that were tried, and is read back with no
start where the scenario starts an agent at `null`: just as it was if there is no such start. Over
the scenarios that a rule allows, all results are read back as they were exactly if the rule allows
none that has inputs and starts an agent at `null`. -/
theorem results_read_back_iff (settings : VerifySettings) (algebra : Algebra m) :
    (∀ name agents scenarios outcome,
      CanReturn (settings.verify algebra name agents scenarios) outcome →
        (∀ violation ∈ outcome.violation?, violation.input ∈ scenarios) ∧
        LawOutcome.ofValue? outcome.toValue = some outcome.withoutNullStarts ∧
        (LawOutcome.ofValue? outcome.toValue = some outcome ↔
          ∀ violation ∈ outcome.violation?, some .null ∉ violation.input.positions)) ∧
    (∀ trials report, CanReturn (settings.verifyAll algebra trials) report →
      (∀ violation ∈ report.violations, ∃ trial ∈ trials, violation.input ∈ trial.inputs) ∧
      LawReport.ofValue? report.toValue = some report.withoutNullStarts ∧
      (LawReport.ofValue? report.toValue = some report ↔
        ∀ violation ∈ report.violations, some .null ∉ violation.input.positions)) ∧
    ∀ allowed : Scenario → Prop,
      (∀ (algebra : Algebra Id) (name : String) (agents : List (Agent Id))
        (scenarios : List Scenario), (∀ scenario ∈ scenarios, allowed scenario) →
          LawOutcome.ofValue? (settings.verify algebra name agents scenarios).run.toValue =
            some (settings.verify algebra name agents scenarios).run) ↔
      ∀ scenario, allowed scenario → scenario.inputs ≠ [] → some .null ∉ scenario.positions := by
  refine ⟨fun name agents scenarios outcome returned => ?_, fun trials report returned => ?_,
    fun allowed => ⟨fun kept scenario allows some_input => ?_, fun plain => ?_⟩⟩
  · exact ⟨fun violation mem => input_mem_of_verify returned mem, outcome.ofValue?_toValue,
      LawOutcome.reads_back_iff⟩
  · exact ⟨fun violation mem => input_mem_of_verifyAll returned mem, report.ofValue?_toValue,
      LawReport.reads_back_iff⟩
  · obtain ⟨violation, violated, rfl⟩ := scenario.exists_violated settings some_input
    have read := kept violation.input.brokenAlgebra "broken" violation.input.actors
      [violation.input] (List.forall_mem_singleton.mpr allows)
    rw [violated, LawOutcome.reads_back_iff] at read
    exact read violation (Option.mem_some_self _)
  · intro algebra name agents scenarios allow
    rw [LawOutcome.reads_back_iff]
    intro violation mem
    have returned : CanReturn (settings.verify algebra name agents scenarios)
      (settings.verify algebra name agents scenarios).run := rfl
    have among := input_mem_of_verify returned mem
    exact plain violation.input (allow _ among) (inputs_ne_nil_of_verify mem)

/-- An agent that tells whether it is at `null`, where it does not start. -/
def nullTelling : Agent Id :=
  .primitive ⟨"null?", ⟨.any, .bool⟩, .text "a"⟩
    { positions := [.text "a", .null]
      directions := fun _ => .typed .any
      transition := fun position _ => pure (position, .bool position.isNull)
      nonempty := List.cons_ne_nil _ _
      distinct := by decide }

/-- Read back, a violation that is brought about by a start at `null` carries a scenario on which the
law holds. -/
theorem results_read_back_iff_nullTelling :
    ∃ violation, (VerifySettings.verify {} allSameOnly "all_same"
        [nullTelling, .constant (.bool false)]
        [(Scenario.single .null).startAt 0 .null]).run = .violated violation ∧
      LawOutcome.ofValue? (LawOutcome.violated violation).toValue =
        some (.violated violation.withoutNullStarts) ∧
      violation.withoutNullStarts ≠ violation ∧
      (VerifySettings.verify {} allSameOnly "all_same" [nullTelling, .constant (.bool false)]
        [violation.withoutNullStarts.input]).run = .satisfied "all_same" 1 := by
  let scenario := (Scenario.single .null).startAt 0 .null
  have violated : ((VerifySettings.verify {} allSameOnly "all_same"
      [nullTelling, .constant (.bool false)] [scenario]).run.violation?).isSome := by
    decide +kernel
  obtain ⟨violation, found⟩ := Option.isSome_iff_exists.mp violated
  have returned : CanReturn (VerifySettings.verify {} allSameOnly "all_same"
      [nullTelling, .constant (.bool false)] [scenario]) (.violated violation) :=
    LawOutcome.mem_violation?.mp found
  obtain ⟨carried, read, kept⟩ := (results_read_back_iff {} allSameOnly).1 _ _ _ _ returned
  have input : violation.input = scenario :=
    List.mem_singleton.mp (carried violation (Option.mem_some_self _))
  refine ⟨violation, returned, read, ?_, ?_⟩
  · rw [Ne, violation.withoutNullStarts_eq_self, input, not_not]
    exact List.mem_singleton_self _
  · have held : (VerifySettings.verify {} allSameOnly "all_same"
        [nullTelling, .constant (.bool false)] [scenario.withoutNullStarts]).run =
          .satisfied "all_same" 1 := by
      rfl
    rw [← held]
    unfold Violation.withoutNullStarts
    rw [input]

end VerifySettings

end AgentAlgebra
