import AgentAlgebra.Algebra.Law
import AgentAlgebra.Algebra.Operation
/-!
# Algebras

A catalogue of named operations and the laws that they are to satisfy. An algebra grows by extension:
the result has everything that was there before, and no name may be given twice, so a law keeps its
meaning.
-/

namespace AgentAlgebra

/-- Operations and laws under one name. -/
structure Algebra (m : Type → Type) where
  name : String
  /-- The name of the algebra that this one extends. -/
  parent : Option String
  operations : List (Operation m)
  laws : List (Law m)

namespace Algebra

variable {m : Type → Type}

/-- The operation of a name. -/
def operation? (algebra : Algebra m) (name : String) : Option (Operation m) :=
  algebra.operations.find? (·.name == name)

/-- The law of a name. -/
def law? (algebra : Algebra m) (name : String) : Option (Law m) :=
  algebra.laws.find? (·.name == name)

/-- One operation more, under a new name. -/
def addOperation (algebra : Algebra m) (operation : Operation m) : Except AlgebraError (Algebra m) :=
  if (algebra.operation? operation.name).isSome then
    .error (.duplicateOperation algebra.name operation.name)
  else .ok { algebra with operations := algebra.operations ++ [operation] }

/-- What is wrong with applying an operation of this name to so many agents. -/
def fault? (algebra : Algebra m) (application : String × Nat) : Option LawFault :=
  match algebra.operation? application.1 with
  | none => some (.unknownOperation application.1 algebra.name)
  | some operation =>
    if operation.arity = application.2 then none
    else some (.wrongArity application.1 operation.arity application.2)

/-- One law more, under a new name. It may apply only operations that are there, to as many agents as
they take. -/
def addLaw (algebra : Algebra m) (law : Law m) : Except AlgebraError (Algebra m) :=
  if (algebra.law? law.name).isSome then .error (.duplicateLaw algebra.name law.name)
  else
    match law.applications.findSome? algebra.fault? with
    | some fault => .error (.invalidLaw law.name fault)
    | none => .ok { algebra with laws := algebra.laws ++ [law] }

/-- Operations and then laws, one after the other. -/
def add (algebra : Algebra m) (operations : List (Operation m)) (laws : List (Law m)) :
    Except AlgebraError (Algebra m) := do
  laws.foldlM addLaw (← operations.foldlM addOperation algebra)

/-- The algebra of these operations and laws alone. -/
def ofParts (name : String) (operations : List (Operation m)) (laws : List (Law m)) :
    Except AlgebraError (Algebra m) :=
  add ⟨name, none, [], []⟩ operations laws

/-- The algebra with more operations and laws, under another name. -/
def extend (algebra : Algebra m) (name : String) (operations : List (Operation m))
    (laws : List (Law m)) : Except AlgebraError (Algebra m) :=
  add { algebra with name, parent := some algebra.name } operations laws

variable [Monad m]

/-- The built-in operations and the base laws. -/
def baseWith (policy : RetryPolicy m) : Algebra m :=
  ⟨"base", none, (Builtin.catalogue policy).map .ofBuiltin, Law.base⟩

/-- The base algebra whose `fix` repeats its input as often as is usual. -/
def base : Algebra m := baseWith .standard

/-- The base algebra whose `fix` repeats its input up to a bound, which must be positive. -/
def baseOfBound (bound : Nat) : Except AlgebraError (Algebra m) := do
  return baseWith (← RetryPolicy.ofBound bound RetryPolicy.sameInput)

/-- Apply the operation of a name. -/
def compose (algebra : Algebra m) (operation : String) (agents : List (Agent m)) :
    ExceptT AlgebraError m (Agent m) :=
  match algebra.operation? operation with
  | some found => found.apply agents
  | none => throw (.unknownOperation algebra.name operation)

end Algebra

variable {m : Type → Type} [Monad m]

/-- The agent that an expression denotes when its variables stand for the agents given. Operands are
built left to right before the operation is looked up. -/
def Expr.instantiate (algebra : Algebra m) (agents : List (Agent m)) :
    Expr m → ExceptT AlgebraError m (Agent m)
  | .var index =>
    match agents[index]? with
    | some bound => pure bound
    | none => throw (.arityMismatch (Expr.variableName index) (index + 1) agents.length)
  | .agent fixed => pure fixed
  | .apply operation count operand => do
    let built ← (List.finRange count).mapM fun i => instantiate algebra agents (operand i)
    algebra.compose operation built

/-- The two agents that a law says behave alike. -/
def Law.sides (law : Law m) (algebra : Algebra m) (agents : List (Agent m)) :
    ExceptT AlgebraError m (Agent m × Agent m) := do
  if agents.length = law.arity then
    let lhs ← law.lhs.instantiate algebra agents
    let rhs ← law.rhs.instantiate algebra agents
    return (lhs, rhs)
  else throw (.arityMismatch s!"law {law.name}" law.arity agents.length)

end AgentAlgebra
