import AgentAlgebra.Agent.Composite
/-!
# Operations

A named way of combining a fixed number of agents: one of the five built in, or an extension that
builds its result by a function of its own.
-/

namespace AgentAlgebra

/-- The operations that every base algebra has. -/
inductive Builtin (m : Type → Type) where
  | sequence
  | parallel
  | branch
  | fix (policy : RetryPolicy m)
  | observe

namespace Builtin

variable {m : Type → Type}

/-- Grows with every change to the list of these operations or to their meaning. -/
def catalogueVersion : Nat := 1

/-- All of them, with the policy by which `fix` retries. -/
def catalogue (policy : RetryPolicy m) : List (Builtin m) :=
  [.sequence, .parallel, .branch, .fix policy, .observe]

def name : Builtin m → String
  | .sequence => "seq"
  | .parallel => "par"
  | .branch => "branch"
  | .fix _ => "fix"
  | .observe => "observe"

/-- How many agents it combines. -/
def arity : Builtin m → Nat
  | .sequence | .parallel | .fix _ => 2
  | .branch => 3
  | .observe => 1

/-- What it makes of agents of which types. -/
def signature : Builtin m → String
  | .sequence => "(X -> Y, Y -> Z) -> (X -> Z)"
  | .parallel => "(X -> Y, X -> Z) -> (X -> (Y, Z))"
  | .branch => "(X -> bool, X -> Y, X -> Y) -> (X -> Y)"
  | .fix _ => "(Y -> bool, X -> Y) -> (X -> retry(Y))"
  | .observe => "(X -> Y) -> (X -> observed(Y))"

/-- The greatest number of tries, where there is one. -/
def maxAttempts? : Builtin m → Option Nat
  | .fix policy => some policy.maxAttempts
  | _ => none

/-- Combine agents, which must be as many as the arity says. -/
def compose : Builtin m → List (Agent m) → Except AlgebraError (Agent m)
  | .sequence, [first, second] => first.inSequence second
  | .parallel, [left, right] => left.inParallel right
  | .branch, [predicate, onTrue, onFalse] => predicate.branching onTrue onFalse
  | .fix policy, [predicate, body] => predicate.retrying body policy
  | .observe, [inner] => .ok inner.observed
  | builtin, agents => .error (.arityMismatch builtin.name builtin.arity agents.length)

end Builtin

/-- How an operation builds its result. An extension may have effects of its own. -/
inductive Composer (m : Type → Type) where
  | builtin (operation : Builtin m)
  | extension (build : List (Agent m) → ExceptT AlgebraError m (Agent m))

/-- A named operation of fixed arity. -/
structure Operation (m : Type → Type) where
  name : String
  arity : Nat
  signature : String
  composer : Composer m

namespace Operation

variable {m : Type → Type}

/-- A built-in operation under its own name. -/
def ofBuiltin (builtin : Builtin m) : Operation m :=
  ⟨builtin.name, builtin.arity, builtin.signature, .builtin builtin⟩

/-- The built-in operation that this is, if it is one. -/
def builtin? (operation : Operation m) : Option (Builtin m) :=
  match operation.composer with
  | .builtin builtin => some builtin
  | .extension _ => none

/-- Combine agents. A wrong number of them is refused before anything is built. -/
def apply [Monad m] (operation : Operation m) (agents : List (Agent m)) :
    ExceptT AlgebraError m (Agent m) :=
  if agents.length = operation.arity then
    match operation.composer with
    | .builtin builtin => liftExcept (builtin.compose agents)
    | .extension build => build agents
  else throw (.arityMismatch operation.name operation.arity agents.length)

end Operation

end AgentAlgebra
