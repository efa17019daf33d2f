import AgentAlgebra.Agent.Error
/-!
# What can go wrong in an algebra

`AlgebraError` says why agents do not combine, or why operations and laws make no algebra.
-/

namespace AgentAlgebra

/-- How the types of two agents fail to meet. -/
inductive Mismatch where
  /-- What the first gives, the second does not take. -/
  | notFed (first second : String)
  | inputsDiffer (left right : String)
  | outputsDiffer (left right : String)
  | predicateNotBool (predicate : String)
  /-- The predicate does not take what the arms of a branch take. -/
  | predicateInput (predicate : String)
  /-- The predicate does not take what the body gives. -/
  | predicateBlind (predicate body : String)

/-- The mismatch in words. -/
def Mismatch.detail : Mismatch → String
  | .notFed first second => s!"output of {first} does not feed input of {second}"
  | .inputsDiffer left right => s!"{left} and {right} take different inputs"
  | .outputsDiffer left right => s!"{left} and {right} produce different outputs"
  | .predicateNotBool predicate => s!"predicate {predicate} does not produce a bool"
  | .predicateInput predicate => s!"predicate {predicate} does not read the arms' input"
  | .predicateBlind predicate body => s!"predicate {predicate} cannot read the output of {body}"

/-- Why a law does not belong to an algebra. -/
inductive LawFault where
  | unknownOperation (operation algebra : String)
  | wrongArity (operation : String) (arity applied : Nat)

/-- The fault in words. -/
def LawFault.reason : LawFault → String
  | .unknownOperation operation algebra => s!"operation {operation} is not in algebra {algebra}"
  | .wrongArity operation arity applied =>
    s!"operation {operation} takes {arity} agents, law applies it to {applied}"

/-- Why agents do not combine, or why operations and laws make no algebra. -/
inductive AlgebraError where
  | typeMismatch (operation : String) (mismatch : Mismatch) (expected found : ValueType)
  | arityMismatch (operation : String) (expected found : Nat)
  | unknownOperation (algebra operation : String)
  | duplicateOperation (algebra operation : String)
  | duplicateLaw (algebra law : String)
  | invalidLaw (law : String) (fault : LawFault)
  | invalidBound
  | emptyPrimitives
  | contract (error : StepError)

/-- The sentence that reports the error. -/
def AlgebraError.message : AlgebraError → String
  | .typeMismatch operation mismatch expected found =>
    s!"type mismatch in {operation}: " ++ mismatch.detail ++
      s!" (expected {expected}, found {found})"
  | .arityMismatch operation expected found =>
    s!"operation {operation} takes {expected} agents, got {found}"
  | .unknownOperation algebra operation => s!"algebra {algebra} has no operation {operation}"
  | .duplicateOperation algebra operation =>
    s!"algebra {algebra} already defines operation {operation}"
  | .duplicateLaw algebra law => s!"algebra {algebra} already declares law {law}"
  | .invalidLaw law fault => s!"law {law} is ill-formed: " ++ fault.reason
  | .invalidBound => "retry bound must be at least 1"
  | .emptyPrimitives => "exploration needs at least one primitive agent"
  | .contract error => error.message

end AgentAlgebra
