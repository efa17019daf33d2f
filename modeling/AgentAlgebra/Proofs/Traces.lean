import AgentAlgebra.Agent.Trace
import AgentAlgebra.Proofs.Steps
/-!
# Traces of pure agents

When a trace is made, and how two agents compare that do the same: `Mirrors` says that whatever the
one agent does from a position, the other does from a related one, and is seen to do the same. What
holds of each step then holds of whole traces.
-/

namespace AgentAlgebra

namespace Agent

variable {agent left right : Agent Id} {position p q last : Value} {input : Value}
  {inputs : List Value} {steps : List StepTrace} {seen : Trace}

/-- How a move is recorded. -/
def record (agent : Agent Id) (input : Value) (move : Step) : StepTrace :=
  ⟨input, move.output, agent.frontier move.position, move.stages⟩

@[simp]
theorem traceFrom_nil :
    (agent.traceFrom position []).run = .ok (steps, last) ↔ [] = steps ∧ position = last := by
  constructor
  · intro ended
    exact Prod.mk.inj (Except.ok.inj ended)
  · rintro ⟨rfl, rfl⟩
    rfl

theorem traceFrom_cons :
    (agent.traceFrom position (input :: inputs)).run = .ok (steps, last) ↔
      ∃ move, (agent.step position input).run = .ok move ∧
        ∃ rest, (agent.traceFrom move.position inputs).run = .ok (rest, last) ∧
          agent.record input move :: rest = steps := by
  rw [traceFrom, run_bind_eq_ok]
  refine exists_congr fun move => and_congr_right fun _ => ?_
  rw [run_bind_eq_ok]
  constructor
  · rintro ⟨⟨rest, final⟩, traced, made⟩
    obtain ⟨rfl, rfl⟩ := Prod.mk.inj (Except.ok.inj made)
    exact ⟨rest, traced, rfl⟩
  · rintro ⟨rest, traced, rfl⟩
    exact ⟨(rest, last), traced, rfl⟩

/-- A trace is made from a position, also where there are no inputs. -/
theorem trace_eq_ok :
    (agent.trace position inputs).run = .ok seen ↔
      agent.isPosition position = true ∧ ∃ steps last,
        (agent.traceFrom position inputs).run = .ok (steps, last) ∧
          ⟨position, last, agent.frontier last, steps⟩ = seen := by
  unfold Agent.trace
  constructor
  · intro traced
    split at traced
    · rename_i known
      obtain ⟨⟨steps, last⟩, went, made⟩ := run_bind_eq_ok.mp traced
      exact ⟨known, steps, last, went, Except.ok.inj made⟩
    · exact nomatch traced
  · rintro ⟨known, steps, last, went, rfl⟩
    rw [if_pos known]
    exact run_bind_eq_ok.mpr ⟨(steps, last), went, rfl⟩

/-- From related positions the right agent makes every move that the left one makes, and the moves
look the same. -/
def Mirrors (related : Value → Value → Prop) (left right : Agent Id) : Prop :=
  ∀ p q, related p q → ∀ input move, (left.step p input).run = .ok move →
    ∃ move', (right.step q input).run = .ok move' ∧ related move.position move'.position ∧
      left.record input move = right.record input move'

theorem Mirrors.traceFrom {related : Value → Value → Prop} (mirrors : Mirrors related left right)
    (start : related p q) (traced : (left.traceFrom p inputs).run = .ok (steps, last)) :
    ∃ last', (right.traceFrom q inputs).run = .ok (steps, last') ∧ related last last' := by
  induction inputs generalizing p q steps with
  | nil =>
    obtain ⟨rfl, rfl⟩ := traceFrom_nil.mp traced
    exact ⟨q, rfl, start⟩
  | cons input inputs ih =>
    obtain ⟨move, moved, rest, followed, rfl⟩ := traceFrom_cons.mp traced
    obtain ⟨move', moved', next, same⟩ := mirrors p q start input move moved
    obtain ⟨last', followed', final⟩ := ih next followed
    exact ⟨last', traceFrom_cons.mpr ⟨move', moved', rest, followed', by rw [same]⟩, final⟩

theorem Mirrors.trace {related : Value → Value → Prop} (mirrors : Mirrors related left right)
    (start : related p q) (known : left.isPosition p = true → right.isPosition q = true)
    (traced : (left.trace p inputs).run = .ok seen) :
    ∃ seen', (right.trace q inputs).run = .ok seen' ∧ seen.steps = seen'.steps ∧
      related seen.finalPosition seen'.finalPosition := by
  obtain ⟨within, steps, last, followed, rfl⟩ := trace_eq_ok.mp traced
  obtain ⟨last', followed', final⟩ := mirrors.traceFrom start followed
  exact ⟨_, trace_eq_ok.mpr ⟨known within, steps, last', followed', rfl⟩, rfl, final⟩

theorem finalFrontier_of_trace (traced : (agent.trace position inputs).run = .ok seen) :
    seen.finalFrontier = agent.frontier seen.finalPosition := by
  obtain ⟨-, steps, last, -, rfl⟩ := trace_eq_ok.mp traced
  rfl

end Agent

end AgentAlgebra
