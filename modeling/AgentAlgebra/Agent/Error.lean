import AgentAlgebra.ValueType
/-!
# What can go wrong with an agent

`DraftError` says why a primitive agent cannot be made, `StepError` why a step cannot be taken.
-/

namespace AgentAlgebra

/-- Why a draft is no agent. -/
inductive DraftError where
  | noPositions (agent : String)
  | duplicatePosition (agent : String) (position : Value)
  | initialNotAPosition (agent : String) (position : Value)
  /-- A part that every agent needs is missing. -/
  | incomplete (agent part : String)

/-- The sentence that reports the error. -/
def DraftError.message : DraftError → String
  | .noPositions agent => s!"agent {agent}: position set is empty"
  | .duplicatePosition agent position => s!"agent {agent}: duplicate position {position}"
  | .initialNotAPosition agent position =>
    s!"agent {agent}: initial position {position} is not a declared position"
  | .incomplete agent part => s!"agent {agent}: missing {part}"

/-- How an agent left its contract, or was driven out of it. -/
inductive StepError where
  | unknownPosition (agent : String) (position : Value)
  | illegalInput (agent : String) (position input : Value)
  /-- The transition led to a value that is no position. -/
  | illegalTransition (agent : String) (position produced : Value)
  /-- The output is not of the declared type. -/
  | illTypedOutput (agent : String) (output : Value) (expected : ValueType)

namespace StepError

/-- The agent whose contract was broken. -/
def agent : StepError → String
  | .unknownPosition agent _ | .illegalInput agent .. | .illegalTransition agent ..
  | .illTypedOutput agent .. => agent

/-- The sentence that reports the error. -/
def message : StepError → String
  | .unknownPosition agent position => s!"agent {agent}: {position} is not a position"
  | .illegalInput agent position input =>
    s!"agent {agent}: input {input} is not a legal direction at {position}"
  | .illegalTransition agent position produced =>
    s!"agent {agent}: transition from {position} produced unknown position {produced}"
  | .illTypedOutput agent output expected => s!"agent {agent}: output {output} is not a {expected}"

end StepError

end AgentAlgebra
