import AgentAlgebra.Agent.Retry
import AgentAlgebra.Algebra.Error
/-!
# Combining agents

The five ways of making one agent from others. Each checks the types of its operands and then builds
the composite; the first check that fails is the answer. A composite is named after the operation and
its operands, and starts where its parts start.
-/

namespace AgentAlgebra

/-- The text of an operation applied to operands. -/
def applied (operation : String) (operands : List String) : String :=
  operation ++ "(" ++ joinTexts ", " operands ++ ")"

namespace RetryPolicy

/-- The policy with a bound, which must be positive. -/
def ofBound {m : Type → Type} (maxAttempts : Nat) (refine : Value → Value → m Value) :
    Except AlgebraError (RetryPolicy m) :=
  if positive : 0 < maxAttempts then .ok ⟨maxAttempts, refine, positive⟩ else .error .invalidBound

end RetryPolicy

namespace Agent

variable {m : Type → Type}

/-- Demand that `expected` takes what `found` describes. -/
def demand (operation : String) (mismatch : Mismatch) (expected found : ValueType) :
    Except AlgebraError Unit :=
  if expected.accepts found then .ok () else .error (.typeMismatch operation mismatch expected found)

/-- What two types go together as. -/
def common (operation : String) (mismatch : Mismatch) (expected found : ValueType)
    (both : Option ValueType) : Except AlgebraError ValueType :=
  match both with
  | some type => .ok type
  | none => .error (.typeMismatch operation mismatch expected found)

/-- The second agent after the first. -/
def inSequence (first second : Agent m) : Except AlgebraError (Agent m) := do
  demand "seq" (.notFed first.name second.name) second.input first.output
  return .sequence
    ⟨applied "seq" [first.name, second.name], ⟨first.input, second.output⟩,
      .pair first.initial second.initial⟩
    first second

/-- Both agents on one input; the output is the pair of their outputs. -/
def inParallel (left right : Agent m) : Except AlgebraError (Agent m) := do
  let input ← common "par" (.inputsDiffer left.name right.name) left.input right.input
    (left.input.unify right.input)
  return .parallel
    ⟨applied "par" [left.name, right.name], ⟨input, .pair left.output right.output⟩,
      .pair left.initial right.initial⟩
    left right

/-- The one agent where the predicate holds of the input, the other where it does not. -/
def branching (predicate onTrue onFalse : Agent m) : Except AlgebraError (Agent m) := do
  demand "branch" (.predicateNotBool predicate.name) .bool predicate.output
  let arms ← common "branch" (.inputsDiffer onTrue.name onFalse.name) onTrue.input onFalse.input
    (onTrue.input.unify onFalse.input)
  let input ← common "branch" (.predicateInput predicate.name) arms predicate.input
    (predicate.input.unify arms)
  let output ← common "branch" (.outputsDiffer onTrue.name onFalse.name) onTrue.output onFalse.output
    (onTrue.output.unify onFalse.output)
  return .branch
    ⟨applied "branch" [predicate.name, onTrue.name, onFalse.name], ⟨input, output⟩,
      .triple predicate.initial onTrue.initial onFalse.initial⟩
    predicate onTrue onFalse

/-- The body again and again, until the predicate holds of its output or the tries run out. -/
def retrying (predicate body : Agent m) (policy : RetryPolicy m) : Except AlgebraError (Agent m) := do
  demand "fix" (.predicateBlind predicate.name body.name) predicate.input body.output
  demand "fix" (.predicateNotBool predicate.name) .bool predicate.output
  return .fix
    ⟨applied "fix" [predicate.name, body.name], ⟨body.input, RetryOutcome.typeOf body.output⟩,
      .pair predicate.initial body.initial⟩
    predicate body policy

/-- The type of the report of a move. -/
def moveType : ValueType :=
  .recordOf [("agent", .text), ("input", .any), ("from", .any), ("to", .any)]

/-- The agent with a report of each of its moves beside the output. -/
def observed (inner : Agent m) : Agent m :=
  .observe
    ⟨applied "observe" [inner.name],
      ⟨inner.input, .recordOf [("output", inner.output), ("observation", moveType)]⟩,
      inner.initial⟩
    inner

end Agent

end AgentAlgebra
