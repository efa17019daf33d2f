import AgentAlgebra.Agent.Draft
import AgentAlgebra.Agent.Trace
import AgentAlgebra.Proofs.Construction
import AgentAlgebra.Proofs.Steps
/-!
# Runs of pure agents

When a run succeeds, one input at a time. A sequence moves its two parts by turns, but its runs are
those of a pipeline: the first part gets through all the inputs on its own, and the second through all
that the first gives.
-/

namespace AgentAlgebra

namespace Agent

variable {a b agent : Agent Id} {header : Header} {position p q input : Value} {inputs : List Value}
  {out : Run}

@[simp]
theorem run_nil : (agent.run position []).run = .ok out ↔ ⟨position, []⟩ = out :=
  ⟨Except.ok.inj, congrArg Except.ok⟩

theorem run_cons :
    (agent.run position (input :: inputs)).run = .ok out ↔
      ∃ move, (agent.step position input).run = .ok move ∧
        ∃ rest, (agent.run move.position inputs).run = .ok rest ∧
          ⟨rest.finalPosition, move.output :: rest.outputs⟩ = out := by
  rw [run, run_bind_eq_ok]
  refine exists_congr fun move => and_congr_right fun _ => ?_
  rw [run_bind_eq_ok]
  exact exists_congr fun rest => and_congr_right fun _ => ⟨Except.ok.inj, congrArg Except.ok⟩

/-- Wherever a run over these inputs gets to, the next of them is legal there. -/
def LegalAlong (agent : Agent Id) (position : Value) (inputs : List Value) : Prop :=
  ∀ before input after, inputs = before ++ input :: after →
    ∀ reached, (agent.run position before).run = .ok reached →
      (agent.directions reached.finalPosition).contains input = true

theorem legalAlong_nil : agent.LegalAlong position [] :=
  fun _ _ _ split => absurd split.symm (List.append_ne_nil_of_right_ne_nil _ (List.cons_ne_nil _ _))

/-- The inputs of a run are legal where it comes to them if the first is legal at its start and the
others where the rest of it comes to them. -/
theorem legalAlong_cons :
    agent.LegalAlong position (input :: inputs) ↔
      (agent.directions position).contains input = true ∧
        ∀ move, (agent.step position input).run = .ok move →
          agent.LegalAlong move.position inputs := by
  constructor
  · intro legal
    refine ⟨legal [] input inputs rfl _ rfl, fun move moved before next after split reached came => ?_⟩
    refine legal (input :: before) next after (by rw [split, List.cons_append])
      ⟨reached.finalPosition, move.output :: reached.outputs⟩ ?_
    exact run_cons.mpr ⟨move, moved, reached, came, rfl⟩
  · rintro ⟨legal, onward⟩ before next after split reached came
    cases before with
    | nil =>
      obtain ⟨rfl, -⟩ := List.cons.inj split
      obtain rfl := run_nil.mp came
      exact legal
    | cons _ before =>
      obtain ⟨rfl, split'⟩ := List.cons.inj split
      obtain ⟨move, moved, rest, followed, rfl⟩ := run_cons.mp came
      exact onward move moved before next after split' rest followed

/-- Over the inputs of a run that succeeds all of them are legal. -/
theorem legalAlong_of_run (ran : (agent.run position inputs).run = .ok out) :
    agent.LegalAlong position inputs := by
  induction inputs generalizing position out with
  | nil => exact legalAlong_nil
  | cons input inputs ih =>
    obtain ⟨move, moved, rest, followed, -⟩ := run_cons.mp ran
    refine legalAlong_cons.mpr ⟨legal_of_step moved, fun move' moved' => ?_⟩
    obtain rfl := Except.ok.inj (moved.symm.trans moved')
    exact ih followed

/-- The steps of two agents in sequence, taken by turns, are those of the first and then those of the
second. -/
theorem run_sequence :
    ((sequence header a b).run (.pair p q) inputs).run = .ok out ↔
      ∃ one, (a.run p inputs).run = .ok one ∧ ∃ two, (b.run q one.outputs).run = .ok two ∧
        ⟨.pair one.finalPosition two.finalPosition, two.outputs⟩ = out := by
  induction inputs generalizing p q out with
  | nil =>
    constructor
    · intro ended
      obtain rfl := run_nil.mp ended
      exact ⟨⟨p, []⟩, rfl, ⟨q, []⟩, rfl, rfl⟩
    · rintro ⟨one, first, two, second, rfl⟩
      obtain rfl := run_nil.mp first
      obtain rfl := run_nil.mp second
      rfl
  | cons input inputs ih =>
    constructor
    · intro ran
      obtain ⟨move, moved, rest, followed, rfl⟩ := run_cons.mp ran
      obtain ⟨one, movedFirst, two, movedSecond, rfl⟩ := step_sequence.mp moved
      obtain ⟨restOne, first, restTwo, second, rfl⟩ := ih.mp followed
      exact ⟨_, run_cons.mpr ⟨one, movedFirst, restOne, first, rfl⟩, _,
        run_cons.mpr ⟨two, movedSecond, restTwo, second, rfl⟩, rfl⟩
    · rintro ⟨one, first, two, second, rfl⟩
      obtain ⟨one, movedFirst, restOne, followed, rfl⟩ := run_cons.mp first
      obtain ⟨two, movedSecond, restTwo, followed', rfl⟩ := run_cons.mp second
      exact run_cons.mpr ⟨_, step_sequence.mpr ⟨one, movedFirst, two, movedSecond, rfl⟩, _,
        ih.mpr ⟨restOne, followed, restTwo, followed', rfl⟩, rfl⟩

/-- Two agents in sequence are a pipeline of runs. From any pair of values and on any inputs, a run of
the whole succeeds exactly if the first agent gets through the inputs on its own and the second,
on its own, through the outputs of the first. It then gives what the second gives and ends at the pair
of the positions at which the two end. -/
theorem sequence_runs_as_pipeline {whole : Agent Id} (made : a.inSequence b = .ok whole)
    (p q : Value) (inputs : List Value) (out : Run) :
    (whole.run (.pair p q) inputs).run = .ok out ↔
      ∃ one two, (a.run p inputs).run = .ok one ∧ (b.run q one.outputs).run = .ok two ∧
        out.outputs = two.outputs ∧
        out.finalPosition = .pair one.finalPosition two.finalPosition := by
  obtain ⟨-, rfl⟩ := inSequence_eq_ok.mp made
  rw [run_sequence]
  constructor
  · rintro ⟨one, first, two, second, rfl⟩
    exact ⟨one, two, first, second, rfl, rfl⟩
  · rintro ⟨one, two, first, second, outputs, final⟩
    refine ⟨one, first, two, second, ?_⟩
    rw [← outputs, ← final]

/-- Keeps a truth value and gives the one that it kept before. -/
def latch : Draft Id where
  name := "latch"
  signature := ⟨.bool, .bool⟩
  positions := [.bool false, .bool true]
  transition := some fun position input => pure (input, position)

/-- Two latches in sequence give what they took two inputs before. -/
theorem sequence_runs_as_pipeline_latches :
    ∃ agent whole : Agent Id, latch.build = .ok agent ∧ agent.inSequence agent = .ok whole ∧
      (whole.run (.pair (.bool false) (.bool true)) [.bool true, .bool false, .bool true]).run =
        .ok ⟨.pair (.bool true) (.bool false), [.bool true, .bool false, .bool true]⟩ ∧
      ∃ one two,
        (agent.run (.bool false) [.bool true, .bool false, .bool true]).run = .ok one ∧
        (agent.run (.bool true) one.outputs).run = .ok two ∧
        [.bool true, .bool false, .bool true] = two.outputs ∧
        .pair (.bool true) (.bool false) = Value.pair one.finalPosition two.finalPosition := by
  obtain ⟨agent, madeAgent⟩ : ∃ agent, latch.build = .ok agent := ⟨_, rfl⟩
  obtain ⟨whole, made⟩ : ∃ whole, agent.inSequence agent = .ok whole := by
    cases madeAgent
    exact ⟨_, rfl⟩
  have ran : (whole.run (.pair (.bool false) (.bool true))
      [.bool true, .bool false, .bool true]).run =
        .ok ⟨.pair (.bool true) (.bool false), [.bool true, .bool false, .bool true]⟩ := by
    cases madeAgent
    cases made
    rfl
  have runs := (sequence_runs_as_pipeline made _ _ _ _).mp ran
  exact ⟨agent, whole, madeAgent, made, ran, runs⟩

end Agent

end AgentAlgebra
