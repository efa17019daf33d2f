import AgentAlgebra.Agent.Basic
/-!
# Retrying

What an agent that retries gives back: how it ended, its last output, and how often it tried.
-/

namespace AgentAlgebra

namespace RetryPolicy

variable {m : Type → Type} [Pure m]

/-- Try the same input again. -/
def sameInput (input _output : Value) : m Value := pure input

/-- Try the output as the next input. -/
def lastOutput (_input output : Value) : m Value := pure output

/-- The number of tries where none is given. -/
def defaultAttempts : Nat := 8

/-- Try the same input as often as is usual. -/
def standard : RetryPolicy m := ⟨defaultAttempts, sameInput, by decide⟩

end RetryPolicy

/-- Whether the predicate held at last, or the tries ran out. -/
inductive RetryStatus where
  | converged
  | exhausted
deriving DecidableEq

namespace RetryStatus

def name : RetryStatus → String
  | .converged => "converged"
  | .exhausted => "exhausted"

def ofName? : String → Option RetryStatus
  | "converged" => some .converged
  | "exhausted" => some .exhausted
  | _ => none

end RetryStatus

/-- The output of an agent that retries. -/
structure RetryOutcome where
  status : RetryStatus
  value : Value
  attempts : Nat

namespace RetryOutcome

def toValue (outcome : RetryOutcome) : Value :=
  .record [("status", .text outcome.status.name), ("value", outcome.value),
    ("attempts", .ofNat outcome.attempts)]

def ofValue? (value : Value) : Option RetryOutcome := do
  match ← value.members? ["status", "value", "attempts"] with
  | [status, value, attempts] =>
    return ⟨← RetryStatus.ofName? (← (← status).symbol?), ← value, ← (← attempts).nat?⟩
  | _ => none

/-- The type of the outcomes whose last output is of the type `value`. -/
def typeOf (value : ValueType) : ValueType :=
  .recordOf [("status", .text), ("value", value), ("attempts", .number)]

end RetryOutcome

end AgentAlgebra
