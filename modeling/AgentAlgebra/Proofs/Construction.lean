import AgentAlgebra.Agent.Composite
import AgentAlgebra.Agent.Draft
/-!
# How agents come about

What each way of combining agents demands and what it then makes, and the agents that can be made at
all: `Agent.Built`. Of everything that is built, the declared types fit those of the parts in the
way that the operation says, `Agent.Formed`; moving an agent to another start or renaming it leaves
that alone.
-/

namespace AgentAlgebra

theorem bind_eq_ok {ε α β : Type} {x : Except ε α} {f : α → Except ε β} {b : β} :
    x >>= f = .ok b ↔ ∃ a, x = .ok a ∧ f a = .ok b := by
  cases x with
  | error e => exact ⟨nofun, fun ⟨_, given, _⟩ => nomatch given⟩
  | ok a => exact ⟨fun given => ⟨a, rfl, given⟩, fun ⟨_, same, given⟩ => Except.ok.inj same ▸ given⟩

namespace Agent

variable {m : Type → Type} {first second left right agent : Agent m}

@[simp]
theorem demand_eq_ok {operation : String} {mismatch : Mismatch} {expected found : ValueType}
    {u : Unit} :
    demand operation mismatch expected found = .ok u ↔ expected.accepts found = true := by
  unfold demand
  split <;> simp_all

@[simp]
theorem common_eq_ok {operation : String} {mismatch : Mismatch} {expected found type : ValueType}
    {both : Option ValueType} :
    common operation mismatch expected found both = .ok type ↔ both = some type := by
  unfold common
  cases both <;> simp

theorem inSequence_eq_ok :
    first.inSequence second = .ok agent ↔
      second.input.accepts first.output = true ∧
        .sequence ⟨applied "seq" [first.name, second.name], ⟨first.input, second.output⟩,
          .pair first.initial second.initial⟩ first second = agent := by
  simp [inSequence, bind_eq_ok, pure, Except.pure]

theorem inParallel_eq_ok :
    left.inParallel right = .ok agent ↔
      ∃ input, left.input.unify right.input = some input ∧
        .parallel ⟨applied "par" [left.name, right.name], ⟨input, .pair left.output right.output⟩,
          .pair left.initial right.initial⟩ left right = agent := by
  simp [inParallel, bind_eq_ok, pure, Except.pure]

theorem branching_eq_ok {predicate onTrue onFalse : Agent m} :
    predicate.branching onTrue onFalse = .ok agent ↔
      ValueType.bool.accepts predicate.output = true ∧
        ∃ arms, onTrue.input.unify onFalse.input = some arms ∧
          ∃ input, predicate.input.unify arms = some input ∧
            ∃ output, onTrue.output.unify onFalse.output = some output ∧
              .branch ⟨applied "branch" [predicate.name, onTrue.name, onFalse.name],
                ⟨input, output⟩, .triple predicate.initial onTrue.initial onFalse.initial⟩
                predicate onTrue onFalse = agent := by
  simp [branching, bind_eq_ok, pure, Except.pure]

theorem retrying_eq_ok {predicate body : Agent m} {policy : RetryPolicy m} :
    predicate.retrying body policy = .ok agent ↔
      predicate.input.accepts body.output = true ∧ ValueType.bool.accepts predicate.output = true ∧
        .fix ⟨applied "fix" [predicate.name, body.name],
          ⟨body.input, RetryOutcome.typeOf body.output⟩, .pair predicate.initial body.initial⟩
          predicate body policy = agent := by
  simp [retrying, bind_eq_ok, pure, Except.pure]

theorem startingAt_eq_ok {position : Value} {moved : Agent m} :
    agent.startingAt position = .ok moved ↔
      agent.isPosition position = true ∧
        agent.withHeader { agent.header with initial := position } = moved := by
  unfold startingAt
  split <;> simp_all

/-- A draft that passes its checks becomes a primitive agent. -/
theorem primitive_of_build {draft : Draft m} (made : draft.build = .ok agent) :
    ∃ initial machine, .primitive ⟨draft.name, draft.signature, initial⟩ machine = agent := by
  unfold Draft.build at made
  split at made
  · exact nomatch made
  · split at made
    · exact nomatch made
    · simp only at made
      split at made
      · split at made
        · exact nomatch made
        · exact ⟨_, _, Except.ok.inj made⟩
      · exact nomatch made

variable [Monad m]

/-- The agents that can be made: the identities and the agents of one position, what is made from a
draft, any of these under another name or with another start, and what the five operations make of
agents that can be made. -/
inductive Built : Agent m → Prop
  | id (type : ValueType) : Built (.id type)
  | stateless (name : String) (signature : Signature) (output : Value → m Value) :
    Built (.stateless name signature output)
  | draft {draft : Draft m} {agent : Agent m} (made : draft.build = .ok agent) : Built agent
  | withName {agent : Agent m} (built : Built agent) (name : String) : Built (agent.withName name)
  | startingAt {agent moved : Agent m} {position : Value} (built : Built agent)
    (made : agent.startingAt position = .ok moved) : Built moved
  | sequence {first second agent : Agent m} (one : Built first) (two : Built second)
    (made : first.inSequence second = .ok agent) : Built agent
  | parallel {left right agent : Agent m} (one : Built left) (two : Built right)
    (made : left.inParallel right = .ok agent) : Built agent
  | branch {predicate onTrue onFalse agent : Agent m} (one : Built predicate) (two : Built onTrue)
    (three : Built onFalse) (made : predicate.branching onTrue onFalse = .ok agent) : Built agent
  | fix {predicate body agent : Agent m} (one : Built predicate) (two : Built body)
    (policy : RetryPolicy m) (made : predicate.retrying body policy = .ok agent) : Built agent
  | observe {inner : Agent m} (built : Built inner) : Built inner.observed

theorem Built.predicate (name : String) (input : ValueType) (holds : Value → m Bool) :
    Built (.predicate name input holds) := .stateless ..

theorem Built.constant (value : Value) : Built (.constant value : Agent m) := .stateless ..

theorem Built.swap : Built (.swap : Agent m) := .stateless ..

theorem Built.project (field : String) : Built (.project field : Agent m) := .stateless ..

omit [Monad m] in
/-- The types that an agent and its parts declare fit together as the operations make them. -/
def Formed : Agent m → Prop
  | .primitive .. => True
  | .identity header => header.signature.output = header.signature.input
  | .sequence header first second =>
    (second.input.accepts first.output = true ∧ header.signature = ⟨first.input, second.output⟩) ∧
      first.Formed ∧ second.Formed
  | .parallel header left right =>
    (∃ input, left.input.unify right.input = some input ∧
      header.signature = ⟨input, .pair left.output right.output⟩) ∧ left.Formed ∧ right.Formed
  | .branch header predicate onTrue onFalse =>
    (∃ arms input output, onTrue.input.unify onFalse.input = some arms ∧
      predicate.input.unify arms = some input ∧ onTrue.output.unify onFalse.output = some output ∧
      header.signature = ⟨input, output⟩) ∧
      predicate.Formed ∧ onTrue.Formed ∧ onFalse.Formed
  | .fix header predicate body _ =>
    (predicate.input.accepts body.output = true ∧
      header.signature = ⟨body.input, RetryOutcome.typeOf body.output⟩) ∧
      predicate.Formed ∧ body.Formed
  | .observe header inner =>
    header.signature =
      ⟨inner.input, .recordOf [("output", inner.output), ("observation", moveType)]⟩ ∧ inner.Formed

omit [Monad m] in
theorem Formed.withHeader {header : Header} (formed : agent.Formed)
    (same : header.signature = agent.signature) : (agent.withHeader header).Formed := by
  cases agent <;> simp_all [Formed, Agent.withHeader, Agent.signature, Agent.header]

theorem Built.formed (built : Built agent) : agent.Formed := by
  induction built with
  | id type => exact rfl
  | stateless => trivial
  | draft made =>
    obtain ⟨initial, machine, rfl⟩ := primitive_of_build made
    trivial
  | withName _ name ih => exact ih.withHeader rfl
  | startingAt _ made ih =>
    obtain ⟨-, rfl⟩ := startingAt_eq_ok.mp made
    exact ih.withHeader rfl
  | sequence _ _ made one two =>
    obtain ⟨fed, rfl⟩ := inSequence_eq_ok.mp made
    exact ⟨⟨fed, rfl⟩, one, two⟩
  | parallel _ _ made one two =>
    obtain ⟨input, common, rfl⟩ := inParallel_eq_ok.mp made
    exact ⟨⟨input, common, rfl⟩, one, two⟩
  | branch _ _ _ made one two three =>
    obtain ⟨-, arms, armsCommon, input, common, output, outputs, rfl⟩ := branching_eq_ok.mp made
    exact ⟨⟨arms, input, output, armsCommon, common, outputs, rfl⟩, one, two, three⟩
  | fix _ _ policy made one two =>
    obtain ⟨fed, -, rfl⟩ := retrying_eq_ok.mp made
    exact ⟨⟨fed, rfl⟩, one, two⟩
  | observe _ ih => exact ⟨rfl, ih⟩

end Agent

end AgentAlgebra
