import AgentAlgebra.Proofs.Runs
/-!
# What a branch does with its inputs

A branch asks its predicate about every input and hands the input to one of two arms, which moves on;
the other stays where it is. So a run of the branch is three runs: one of the predicate on all the
inputs, and one of each arm on the inputs that it is handed. Only that each input is legal for all
three parts does not follow from those runs, and is asked of the branch itself.
-/

namespace AgentAlgebra

/-- The values at the places where the verdict is the given one. -/
def routed (arm : Bool) (verdicts : List Bool) (values : List Value) : List Value :=
  ((verdicts.zip values).filter (·.1 == arm)).map (·.2)

/-- The values of two lists in one, each from the list that the verdict at its place names. The lists
hold as many values as there are verdicts for them. -/
def merged : (verdicts : List Bool) → (ofTrue ofFalse : List Value) → List Value
  | true :: verdicts, value :: ofTrue, ofFalse => value :: merged verdicts ofTrue ofFalse
  | false :: verdicts, ofTrue, value :: ofFalse => value :: merged verdicts ofTrue ofFalse
  | _, _, _ => []

@[simp]
theorem routed_cons_self {holds : Bool} {verdicts : List Bool} {value : Value} {values : List Value} :
    routed holds (holds :: verdicts) (value :: values) = value :: routed holds verdicts values := by
  simp [routed]

namespace Agent

/-- The runs of the three parts of a branch over its inputs, and what they come to together: the first
part gives a verdict on every input, each of the others takes the inputs whose verdict is its own, and
what these two give is merged in the order of the inputs. -/
def PartsRun (predicate onTrue onFalse : Agent Id) (p q r : Value) (inputs : List Value)
    (out : Run) : Prop :=
  ∃ verdicts judged ofTrue ofFalse,
    (predicate.run p inputs).run = .ok judged ∧ judged.outputs = verdicts.map .bool ∧
    (onTrue.run q (routed true verdicts inputs)).run = .ok ofTrue ∧
    (onFalse.run r (routed false verdicts inputs)).run = .ok ofFalse ∧
    out.finalPosition =
      .triple judged.finalPosition ofTrue.finalPosition ofFalse.finalPosition ∧
    out.outputs = merged verdicts ofTrue.outputs ofFalse.outputs

variable {a b c : Agent Id} {header : Header} {p q r input : Value} {inputs : List Value}
  {out : Run}

theorem partsRun_nil :
    PartsRun a b c p q r [] out ↔ ⟨.triple p q r, []⟩ = out := by
  constructor
  · rintro ⟨verdicts, judged, ofTrue, ofFalse, ranAll, ruled, ranTrue, ranFalse, final, given⟩
    obtain rfl := run_nil.mp ranAll
    obtain rfl := List.map_eq_nil_iff.mp ruled.symm
    obtain rfl := run_nil.mp ranTrue
    obtain rfl := run_nil.mp ranFalse
    exact congrArg₂ Run.mk final.symm given.symm
  · rintro rfl
    exact ⟨[], ⟨p, []⟩, ⟨q, []⟩, ⟨r, []⟩, rfl, rfl, rfl, rfl, rfl, rfl⟩

/-- An input on which the predicate holds is handed to the first arm, before what it takes later. -/
theorem PartsRun.cons_true {verdict taken : Step} (asked : (a.step p input).run = .ok verdict)
    (holds : verdict.output = .bool true) (moved : (b.step q input).run = .ok taken)
    (runs : PartsRun a b c verdict.position taken.position r inputs out) :
    PartsRun a b c p q r (input :: inputs) ⟨out.finalPosition, taken.output :: out.outputs⟩ := by
  obtain ⟨verdicts, judged, ofTrue, ofFalse, ranAll, ruled, ranTrue, ranFalse, final, given⟩ := runs
  refine ⟨true :: verdicts, _, ⟨_, taken.output :: ofTrue.outputs⟩, ofFalse,
    run_cons.mpr ⟨verdict, asked, judged, ranAll, rfl⟩, ?_, ?_, ranFalse, final, ?_⟩
  · rw [holds, ruled, List.map_cons]
  · rw [routed_cons_self]
    exact run_cons.mpr ⟨taken, moved, ofTrue, ranTrue, rfl⟩
  · rw [given, merged]

theorem PartsRun.cons_false {verdict taken : Step} (asked : (a.step p input).run = .ok verdict)
    (fails : verdict.output = .bool false) (moved : (c.step r input).run = .ok taken)
    (runs : PartsRun a b c verdict.position q taken.position inputs out) :
    PartsRun a b c p q r (input :: inputs) ⟨out.finalPosition, taken.output :: out.outputs⟩ := by
  obtain ⟨verdicts, judged, ofTrue, ofFalse, ranAll, ruled, ranTrue, ranFalse, final, given⟩ := runs
  refine ⟨false :: verdicts, _, ofTrue, ⟨_, taken.output :: ofFalse.outputs⟩,
    run_cons.mpr ⟨verdict, asked, judged, ranAll, rfl⟩, ?_, ranTrue, ?_, final, ?_⟩
  · rw [fails, ruled, List.map_cons]
  · rw [routed_cons_self]
    exact run_cons.mpr ⟨taken, moved, ofFalse, ranFalse, rfl⟩
  · rw [given, merged]

/-- Where the parts run over several inputs, the predicate gives a verdict on the first of them, the
arm of that verdict moves on it, and from where these two then are the parts run over the others. -/
theorem PartsRun.uncons (runs : PartsRun a b c p q r (input :: inputs) out) :
    ∃ verdict, (a.step p input).run = .ok verdict ∧
      ((verdict.output = .bool true ∧ ∃ taken, (b.step q input).run = .ok taken ∧
          ∃ rest, PartsRun a b c verdict.position taken.position r inputs rest ∧
            ⟨rest.finalPosition, taken.output :: rest.outputs⟩ = out) ∨
        (verdict.output = .bool false ∧ ∃ taken, (c.step r input).run = .ok taken ∧
          ∃ rest, PartsRun a b c verdict.position q taken.position inputs rest ∧
            ⟨rest.finalPosition, taken.output :: rest.outputs⟩ = out)) := by
  obtain ⟨verdicts, judged, ofTrue, ofFalse, ranAll, ruled, ranTrue, ranFalse, final, given⟩ := runs
  obtain ⟨verdict, asked, others, ranOthers, rfl⟩ := run_cons.mp ranAll
  obtain ⟨holds, verdicts, rfl, first, ruledOthers⟩ := List.map_eq_cons_iff.mp ruled.symm
  refine ⟨verdict, asked, ?_⟩
  cases holds with
  | true =>
    rw [routed_cons_self] at ranTrue
    obtain ⟨taken, moved, more, ranMore, rfl⟩ := run_cons.mp ranTrue
    exact .inl ⟨first.symm, taken, moved, ⟨_, _⟩, ⟨verdicts, others, more, ofFalse, ranOthers,
      ruledOthers.symm, ranMore, ranFalse, rfl, rfl⟩, congrArg₂ Run.mk final.symm given.symm⟩
  | false =>
    rw [routed_cons_self] at ranFalse
    obtain ⟨taken, moved, more, ranMore, rfl⟩ := run_cons.mp ranFalse
    exact .inr ⟨first.symm, taken, moved, ⟨_, _⟩, ⟨verdicts, others, ofTrue, more, ranOthers,
      ruledOthers.symm, ranTrue, ranMore, rfl, rfl⟩, congrArg₂ Run.mk final.symm given.symm⟩

/-- A run of a branch is made of runs of its parts: at each step one arm moves and the other stays. -/
theorem partsRun_of_run
    (ran : ((branch header a b c).run (.triple p q r) inputs).run = .ok out) :
    PartsRun a b c p q r inputs out := by
  induction inputs generalizing p q r out with
  | nil => exact partsRun_nil.mpr (run_nil.mp ran)
  | cons input inputs ih =>
    obtain ⟨move, moved, rest, followed, rfl⟩ := run_cons.mp ran
    obtain ⟨-, verdict, asked, chosen⟩ := step_branch.mp moved
    rcases chosen with ⟨holds, taken, movedArm, rfl⟩ | ⟨fails, taken, movedArm, rfl⟩
    · have runs := PartsRun.cons_true asked holds movedArm (ih followed)
      exact runs
    · have runs := PartsRun.cons_false asked fails movedArm (ih followed)
      exact runs

/-- Where the parts run, what a branch asks besides is that it may take the inputs. -/
theorem run_of_partsRun (legal : (branch header a b c).LegalAlong (.triple p q r) inputs)
    (runs : PartsRun a b c p q r inputs out) :
    ((branch header a b c).run (.triple p q r) inputs).run = .ok out := by
  induction inputs generalizing p q r out with
  | nil => exact run_nil.mpr (partsRun_nil.mp runs)
  | cons input inputs ih =>
    obtain ⟨here, onward⟩ := legalAlong_cons.mp legal
    obtain ⟨verdict, asked, chosen⟩ := runs.uncons
    rcases chosen with ⟨holds, taken, movedArm, rest, others, rfl⟩ |
      ⟨fails, taken, movedArm, rest, others, rfl⟩
    · have moved := step_branch.mpr ⟨here, verdict, asked, .inl ⟨holds, taken, movedArm, rfl⟩⟩
      exact run_cons.mpr ⟨_, moved, rest, ih (onward _ moved) others, rfl⟩
    · have moved := step_branch.mpr ⟨here, verdict, asked, .inr ⟨fails, taken, movedArm, rfl⟩⟩
      exact run_cons.mpr ⟨_, moved, rest, ih (onward _ moved) others, rfl⟩

/-- A branch routes each input to one arm and leaves the other where it is. A run of it succeeds, with
these outputs and this end, exactly if every input is legal for the branch where the run comes to it,
the predicate gets through all the inputs and gives a verdict on each, and each arm gets through the
inputs whose verdict is its own. The outputs are those of the arms, merged in the order of the
inputs, and the end is the triple of the ends of the three runs. -/
theorem branch_runs_by_routing {predicate onTrue onFalse whole : Agent Id}
    (made : predicate.branching onTrue onFalse = .ok whole) (p q r : Value) (inputs : List Value)
    (out : Run) :
    (whole.run (.triple p q r) inputs).run = .ok out ↔
      whole.LegalAlong (.triple p q r) inputs ∧
        PartsRun predicate onTrue onFalse p q r inputs out := by
  obtain ⟨-, arms, -, input, -, output, -, rfl⟩ := branching_eq_ok.mp made
  constructor
  · intro ran
    exact ⟨legalAlong_of_run ran, partsRun_of_run ran⟩
  · rintro ⟨legal, runs⟩
    exact run_of_partsRun legal runs

/-- A predicate that holds of every other input. -/
def everyOther : Draft Id where
  name := "every other"
  signature := ⟨.any, .bool⟩
  positions := [.bool true, .bool false]
  transition := some fun position _ => pure (.bool (position == .bool false), position)

/-- Gives the number of inputs before, as long as that is below two. -/
def tally : Draft Id where
  name := "tally"
  positions := [.ofNat 0, .ofNat 1, .ofNat 2]
  transition := some fun position _ => pure (.ofNat (min 2 (position.nat?.getD 0 + 1)), position)

/-- Of three inputs the first arm counts two, from 0, and the second arm one, from 1. -/
theorem branch_runs_by_routing_tallies :
    ∃ predicate arm whole : Agent Id, everyOther.build = .ok predicate ∧ tally.build = .ok arm ∧
      predicate.branching arm arm = .ok whole ∧
      (whole.run (.triple (.bool true) (.ofNat 0) (.ofNat 1)) [.null, .null, .null]).run =
        .ok ⟨.triple (.bool false) (.ofNat 2) (.ofNat 2), [.ofNat 0, .ofNat 1, .ofNat 1]⟩ ∧
      PartsRun predicate arm arm (.bool true) (.ofNat 0) (.ofNat 1) [.null, .null, .null]
        ⟨.triple (.bool false) (.ofNat 2) (.ofNat 2), [.ofNat 0, .ofNat 1, .ofNat 1]⟩ := by
  obtain ⟨predicate, madePredicate⟩ : ∃ agent, everyOther.build = .ok agent := ⟨_, rfl⟩
  obtain ⟨arm, madeArm⟩ : ∃ agent, tally.build = .ok agent := ⟨_, rfl⟩
  obtain ⟨whole, made⟩ : ∃ whole, predicate.branching arm arm = .ok whole := by
    cases madePredicate
    cases madeArm
    exact ⟨_, rfl⟩
  have ran : (whole.run (.triple (.bool true) (.ofNat 0) (.ofNat 1)) [.null, .null, .null]).run =
      .ok ⟨.triple (.bool false) (.ofNat 2) (.ofNat 2), [.ofNat 0, .ofNat 1, .ofNat 1]⟩ := by
    cases madePredicate
    cases madeArm
    cases made
    rfl
  obtain ⟨-, runs⟩ := (branch_runs_by_routing made _ _ _ _ _).mp ran
  exact ⟨predicate, arm, whole, madePredicate, madeArm, made, ran, runs⟩

end Agent

end AgentAlgebra
