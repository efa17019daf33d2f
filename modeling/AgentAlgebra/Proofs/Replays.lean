import AgentAlgebra.Proofs.Divergences
import AgentAlgebra.Proofs.Frontiers
import AgentAlgebra.Proofs.Movement
/-!
# Comparing replays

A replay is compared with the first run step by step, by outputs, frontiers and stages. Where the
agents come to rest is not compared, and need not be: the frontier of the last step determines it.
So two traces of one agent from one position on the same inputs are equal altogether if no
divergence is found between them, also where the agent's functions remember earlier calls and the
two traces may have nothing in common.
-/

namespace AgentAlgebra

theorem StepTrace.beq_eq_true {l r : StepTrace} :
    (l == r) = true ↔ (l.input == r.input) = true ∧ (l.output == r.output) = true ∧
      (l.frontier == r.frontier) = true ∧ (l.stages == r.stages) = true := by
  cases l
  cases r
  simp [BEq.beq, instBEqStepTrace.beq]

theorem Trace.beq_eq_true {left right : Trace} :
    (left == right) = true ↔ (left.initial == right.initial) = true ∧
      (left.finalPosition == right.finalPosition) = true ∧
      (left.finalFrontier == right.finalFrontier) = true ∧ (left.steps == right.steps) = true := by
  cases left
  cases right
  simp [BEq.beq, instBEqTrace.beq]

/-- Two steps on equal inputs are equal if they are equal in all that can be compared. -/
theorem StepTrace.matches_iff {l r : StepTrace} (input : (l.input == r.input) = true) :
    StepTrace.Matches true true l r ↔ (l == r) = true := by
  rw [beq_eq_true]
  constructor
  · rintro ⟨output, frontier, stages⟩
    exact ⟨input, output, frontier rfl, stages rfl⟩
  · rintro ⟨-, output, frontier, stages⟩
    exact ⟨output, fun _ => frontier, fun _ => stages⟩

namespace Agent

variable {m : Type → Type} {agent : Agent m} {p q last last' position : Value}
  {inputs : List Value} {steps steps' : List StepTrace}

namespace Walk

/-- On two ways along the same inputs no divergence means that all steps are equal. -/
theorem among?_eq_none (walk : agent.Walk p inputs steps last)
    (walk' : agent.Walk q inputs steps' last') (n : Nat) :
    Divergence.among? true true n steps steps' = none ↔ (steps == steps') = true := by
  induction walk generalizing q steps' n with
  | nil position =>
    cases walk'
    exact iff_of_true rfl rfl
  | cons known rest ih =>
    cases walk' with
    | cons known' rest' =>
      rw [List.cons_beq_cons, Bool.and_eq_true, Divergence.among?_cons_eq_none]
      exact and_congr (StepTrace.matches_iff BEq.rfl) (ih rest' (n + 1))

/-- Two ways that look the same end at equal positions, with equal frontiers. -/
theorem ends_beq (walk : agent.Walk p inputs steps last) (walk' : agent.Walk q inputs steps' last')
    (start : (p == q) = true ∧ (agent.frontier p == agent.frontier q) = true)
    (same : (steps == steps') = true) :
    (last == last') = true ∧ (agent.frontier last == agent.frontier last') = true := by
  induction walk generalizing q steps' with
  | nil position =>
    cases walk'
    exact start
  | cons known rest ih =>
    cases walk' with
    | cons known' rest' =>
      rw [List.cons_beq_cons, Bool.and_eq_true, StepTrace.beq_eq_true] at same
      obtain ⟨⟨-, -, frontiers, -⟩, others⟩ := same
      exact ih rest' ⟨beq_of_frontier known known' frontiers, frontiers⟩ others

end Walk

open MonadAttach LawfulMonadAttach

variable [Monad m] [LawfulMonad m] [MonadAttach m] [LawfulMonadAttach m] {seen first again : Trace}

/-- A trace that an agent returned starts where it was asked to and goes by positions, and its last
frontier is that of its last position. -/
theorem walk_of_canReturn_trace
    (returned : CanReturn (agent.trace position inputs).run (.ok seen)) :
    seen.initial = position ∧ agent.Walk position inputs seen.steps seen.finalPosition ∧
      seen.finalFrontier = agent.frontier seen.finalPosition := by
  cases known : agent.isPosition position with
  | true => exact (Ensures.of_canReturn (yields_trace known inputs) returned).1 seen rfl
  | false =>
    rw [trace_of_not_isPosition known] at returned
    exact nomatch eq_of_canReturn_pure returned

/-- Between two traces that an agent returned from one position on the same inputs no divergence is
found, with everything compared that can be, exactly if they are equal in all their parts, the last
position and the last frontier included. -/
theorem replay_comparison_complete
    (one : CanReturn (agent.trace position inputs).run (.ok first))
    (two : CanReturn (agent.trace position inputs).run (.ok again)) :
    Divergence.between? first again true true = none ↔ (first == again) = true := by
  obtain ⟨start, walk, frontier⟩ := walk_of_canReturn_trace one
  obtain ⟨start', walk', frontier'⟩ := walk_of_canReturn_trace two
  have unseen : Divergence.between? first again true true = none ↔
      (first.steps == again.steps) = true := walk.among?_eq_none walk' 0
  rw [unseen, Trace.beq_eq_true, start, start', frontier, frontier']
  constructor
  · intro steps
    obtain ⟨positions, frontiers⟩ := walk.ends_beq walk' ⟨BEq.rfl, BEq.rfl⟩ steps
    exact ⟨BEq.rfl, positions, frontiers, steps⟩
  · rintro ⟨-, -, -, steps⟩
    exact steps

/-- An agent that moves between two positions by how often it was called before, and always gives
`null`. -/
def flickering : Agent (StateM Nat) :=
  .primitive ⟨"flickering", ⟨.any, .null⟩, .bool false⟩
    { positions := [.bool false, .bool true]
      directions := fun _ => .typed .any
      transition := fun _ _ => modifyGet fun calls => ((.bool (calls % 2 = 1), .null), calls + 1)
      nonempty := by simp
      distinct := by simp [BEq.beq, Value.beq] }

/-- A trace of one step of `flickering` beside an identity. -/
def flicker (last : Bool) : Trace :=
  ⟨.pair .null (.bool false), .pair .null (.bool last), [.bool last],
    [⟨.null, .pair .null .null, [.bool last], [⟨"flickering", .null, .null⟩]⟩]⟩

/-- Two runs that give the same and end at different positions are told apart by their frontiers. -/
theorem replay_comparison_complete_flickering :
    let both : Agent (StateM Nat) :=
      .parallel ⟨"par(id, flickering)", .untyped, .pair .null (.bool false)⟩ (.id .any) flickering
    CanReturn (both.trace (.pair .null (.bool false)) [.null]).run (.ok (flicker false)) ∧
      CanReturn (both.trace (.pair .null (.bool false)) [.null]).run (.ok (flicker true)) ∧
      (flicker false).outputs = (flicker true).outputs ∧
      Divergence.between? (flicker false) (flicker true) true true ≠ none := by
  intro both
  have one : CanReturn (both.trace (.pair .null (.bool false)) [.null]).run (.ok (flicker false)) :=
    ⟨0, 1, rfl⟩
  have two : CanReturn (both.trace (.pair .null (.bool false)) [.null]).run (.ok (flicker true)) :=
    ⟨1, 2, rfl⟩
  refine ⟨one, two, rfl, fun unseen => ?_⟩
  have equal := (replay_comparison_complete one two).mp unseen
  exact absurd equal (by decide)

end Agent

end AgentAlgebra
