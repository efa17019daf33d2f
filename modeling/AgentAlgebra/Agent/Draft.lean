import AgentAlgebra.Agent.Error
import AgentAlgebra.Agent.Retry
import AgentAlgebra.Repeated
/-!
# Making agents

A primitive agent is made from a draft, which is checked first. Agents of one position need no draft:
constants, the exchange of a pair's parts, the choice of a field, predicates, and the identity.
-/

namespace AgentAlgebra

/-- What a primitive agent is to be made of. What is left out has a default, but for the positions
and the transition. -/
structure Draft (m : Type → Type) where
  name : String
  signature : Signature := .untyped
  positions : List Value := []
  /-- Where to start; the first position if absent. -/
  initial : Option Value := none
  /-- The legal inputs; at every position all values of the input type if absent. -/
  directions : Option (Value → Directions) := none
  transition : Option (Value → Value → m (Value × Value)) := none

namespace Draft

variable {m : Type → Type}

/-- The agent of a draft. There must be a position, no two may be equal, the start must be one of
them, and the transition must be given; what fails first is the answer. -/
def build (draft : Draft m) : Except DraftError (Agent m) :=
  match given : draft.positions with
  | [] => .error (.noPositions draft.name)
  | first :: _ =>
    match unrepeated : firstRepeated? draft.positions with
    | some position => .error (.duplicatePosition draft.name position)
    | none =>
      let initial := draft.initial.getD first
      if draft.positions.contains initial then
        match draft.transition with
        | none => .error (.incomplete draft.name "transition")
        | some transition =>
          .ok (.primitive ⟨draft.name, draft.signature, initial⟩
            { positions := draft.positions
              directions := draft.directions.getD fun _ => .typed draft.signature.input
              transition
              nonempty := by simp [given]
              distinct := distinct_of_firstRepeated?_eq_none unrepeated })
      else .error (.initialNotAPosition draft.name initial)

end Draft

namespace Agent

variable {m : Type → Type}

/-- The agent that starts at another of its positions. -/
def startingAt (agent : Agent m) (position : Value) : Except StepError (Agent m) :=
  if agent.isPosition position then
    .ok (agent.withHeader { agent.header with initial := position })
  else .error (.unknownPosition agent.name position)

/-- The agent that gives back what it takes. -/
def id (type : ValueType) : Agent m := .identity ⟨"id", ⟨type, type⟩, .null⟩

variable [Monad m]

/-- An agent of one position that works out each output from the input alone. -/
def stateless (name : String) (signature : Signature) (output : Value → m Value) : Agent m :=
  .primitive ⟨name, signature, .null⟩
    { positions := [.null]
      directions := fun _ => .typed signature.input
      transition := fun position input => return (position, ← output input)
      nonempty := by simp
      distinct := by simp }

/-- A stateless agent that gives a truth value. -/
def predicate (name : String) (input : ValueType) (holds : Value → m Bool) : Agent m :=
  stateless name ⟨input, .bool⟩ fun value => return .bool (← holds value)

/-- The agent that gives the same value whatever it takes. -/
def constant (value : Value) : Agent m :=
  stateless ("const(" ++ value.canonicalText ++ ")") ⟨.any, .of value⟩ fun _ => pure value

/-- The agent that exchanges the parts of a pair, and gives `null` for anything else. -/
def swap : Agent m :=
  stateless "swap" ⟨.pair .any .any, .pair .any .any⟩ fun value =>
    pure (match value.pair? with
      | some (first, second) => .pair second first
      | none => .null)

/-- The agent that gives one field of a record, or `null` if the record lacks it. -/
def project (field : String) : Agent m :=
  stateless ("project(" ++ field ++ ")") ⟨.recordOf [(field, .any)], .any⟩ fun value =>
    pure (.ofOption (value.field? field))

end Agent

end AgentAlgebra
