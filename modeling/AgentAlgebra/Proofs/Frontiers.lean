import AgentAlgebra.Agent.Composite
import AgentAlgebra.Agent.Draft
import AgentAlgebra.Proofs.Steps
/-!
# What the frontier says

The frontier of a position lists the positions of the primitive agents in it, without the brackets
that nest them. For a given agent nothing is lost by that: the agent says how its positions are
nested, each primitive agent adds one place to the list, and an identity, which adds none, has only
one position.
-/

namespace AgentAlgebra

namespace Agent

variable {m : Type → Type} {agent : Agent m} {p q : Value}

/-- Whatever follows them, two frontiers read the same exactly if they come of positions that are
equal. -/
theorem frontier_append_beq (known : agent.isPosition p = true)
    (known' : agent.isPosition q = true) {rest rest' : List Value} :
    (agent.frontier p ++ rest == agent.frontier q ++ rest') = true ↔
      (p == q) = true ∧ (rest == rest') = true := by
  induction agent generalizing p q rest rest' with
  | primitive header machine =>
    rw [frontier, frontier, List.singleton_append, List.singleton_append, List.cons_beq_cons,
      Bool.and_eq_true]
  | identity header =>
    obtain rfl := Value.eq_null_of_isNull known
    obtain rfl := Value.eq_null_of_isNull known'
    exact (and_iff_right rfl).symm
  | sequence header a b one two | parallel header a b one two | fix header a b policy one two =>
    -- Agents of two parts all have the positions of a sequence.
    have known : (sequence header a b).isPosition p = true := known
    have known' : (sequence header a b).isPosition q = true := known'
    obtain ⟨_, _, rfl, knownFirst, knownSecond⟩ := isPosition_sequence_iff.mp known
    obtain ⟨_, _, rfl, knownFirst', knownSecond'⟩ := isPosition_sequence_iff.mp known'
    simp only [frontier, Value.pair?_pair, List.append_assoc]
    rw [one knownFirst knownFirst', two knownSecond knownSecond', Value.pair_beq_pair, and_assoc]
  | branch header a b c one two three =>
    obtain ⟨_, _, _, rfl, knownA, knownB, knownC⟩ := isPosition_branch_iff.mp known
    obtain ⟨_, _, _, rfl, knownA', knownB', knownC'⟩ := isPosition_branch_iff.mp known'
    simp only [frontier, Value.triple?_triple, List.append_assoc]
    rw [one knownA knownA', two knownB knownB', three knownC knownC', Value.triple_beq_triple,
      and_assoc, and_assoc]
  | observe header inner one => exact one known known'

theorem frontier_beq_iff (known : agent.isPosition p = true) (known' : agent.isPosition q = true) :
    (agent.frontier p == agent.frontier q) = true ↔ (p == q) = true := by
  have followed : (agent.frontier p ++ [] == agent.frontier q ++ []) = true ↔
      (p == q) = true ∧ ([] == ([] : List Value)) = true := frontier_append_beq known known'
  rw [List.append_nil, List.append_nil] at followed
  exact followed.trans (and_iff_left rfl)

/-- Positions of one agent are equal if their frontiers are. -/
theorem beq_of_frontier (known : agent.isPosition p = true) (known' : agent.isPosition q = true)
    (same : (agent.frontier p == agent.frontier q) = true) : (p == q) = true :=
  (frontier_beq_iff known known').mp same

/-- How many primitive agents there are in an agent. -/
def primitives : Agent m → Nat
  | .primitive .. => 1
  | .identity _ => 0
  | .sequence _ a b | .parallel _ a b | .fix _ a b _ => a.primitives + b.primitives
  | .branch _ a b c => a.primitives + b.primitives + c.primitives
  | .observe _ inner => inner.primitives

theorem length_frontier (known : agent.isPosition p = true) :
    (agent.frontier p).length = agent.primitives := by
  induction agent generalizing p with
  | primitive header machine => rfl
  | identity header => rfl
  | sequence header a b one two | parallel header a b one two | fix header a b policy one two =>
    have known : (sequence header a b).isPosition p = true := known
    obtain ⟨_, _, rfl, knownFirst, knownSecond⟩ := isPosition_sequence_iff.mp known
    simp only [frontier, Value.pair?_pair, List.length_append, one knownFirst, two knownSecond,
      primitives]
  | branch header a b c one two three =>
    obtain ⟨_, _, _, rfl, knownA, knownB, knownC⟩ := isPosition_branch_iff.mp known
    simp only [frontier, Value.triple?_triple, List.length_append, one knownA, two knownB,
      three knownC, primitives]
  | observe header inner one => exact one known

/-- The frontier is a faithful flattening of an agent's positions: at each of them it has as many
entries as there are primitive agents, and two positions have equal frontiers exactly if they are
equal. -/
theorem frontier_faithful (agent : Agent m) :
    (∀ position, agent.isPosition position = true →
      (agent.frontier position).length = agent.primitives) ∧
    ∀ p q, agent.isPosition p = true → agent.isPosition q = true →
      ((agent.frontier p == agent.frontier q) = true ↔ (p == q) = true) :=
  ⟨fun _ known => length_frontier known, fun _ _ known known' => frontier_beq_iff known known'⟩

/-- An agent with a position that looks like one of two identities in sequence. -/
def bracketed : Draft Id where
  name := "bracketed"
  positions := [.null, .pair .null .null]
  transition := some fun position input => pure (position, input)

/-- Two of these agents, one behind an identity: where a bracket belongs can be told from the frontier,
because the agent has only two places in it. -/
theorem frontier_faithful_bracketed :
    ∃ agent behind both : Agent Id, bracketed.build = .ok agent ∧
      (Agent.id .any).inSequence agent = .ok behind ∧ behind.inParallel agent = .ok both ∧
      both.primitives = 2 ∧
      both.isPosition (.pair (.pair .null (.pair .null .null)) .null) = true ∧
      both.isPosition (.pair (.pair .null .null) (.pair .null .null)) = true ∧
      (both.frontier (.pair (.pair .null (.pair .null .null)) .null)).length = 2 ∧
      (both.frontier (.pair (.pair .null (.pair .null .null)) .null) ==
        both.frontier (.pair (.pair .null .null) (.pair .null .null))) = false := by
  obtain ⟨agent, made⟩ : ∃ agent, bracketed.build = .ok agent := ⟨_, rfl⟩
  obtain ⟨behind, madeBehind⟩ : ∃ behind, (Agent.id .any).inSequence agent = .ok behind := by
    cases made
    exact ⟨_, rfl⟩
  obtain ⟨both, madeBoth⟩ : ∃ both, behind.inParallel agent = .ok both := by
    cases made
    cases madeBehind
    exact ⟨_, rfl⟩
  obtain ⟨long, told⟩ := frontier_faithful both
  obtain ⟨count, known, known'⟩ : both.primitives = 2 ∧
      both.isPosition (.pair (.pair .null (.pair .null .null)) .null) = true ∧
      both.isPosition (.pair (.pair .null .null) (.pair .null .null)) = true := by
    cases made
    cases madeBehind
    cases madeBoth
    exact ⟨rfl, rfl, rfl⟩
  refine ⟨agent, behind, both, made, madeBehind, madeBoth, count, known, known',
    (long _ known).trans count, ?_⟩
  rw [Bool.eq_false_iff, Ne, told _ _ known known']
  decide

end Agent

end AgentAlgebra
