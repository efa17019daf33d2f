import AgentAlgebra.Algebra.Basic
import AgentAlgebra.Explore.Tuples
/-!
# Enumerating composites

All agents that an algebra builds from given ones within a depth of nested operations, up to a cap. In
each round every operation is applied to every tuple of agents known before it, in lexicographic
order; combinations that do not go together are passed over, and of agents with one name the first is
kept. After the first round only tuples with an agent of the last round in them are tried, as all
others were tried before.
-/

namespace AgentAlgebra

/-- How agents are built and explored. -/
structure ComposeSettings where
  /-- The bound by which `fix` retries in the base algebra. -/
  defaultRetryBound : Nat := RetryPolicy.defaultAttempts
  /-- How many agents are enumerated at most. -/
  maxEnumerated : Nat := 4096

namespace Enumeration

variable {m : Type → Type}

/-- Whether one of the agents has this name. -/
def named (agents : Array (Agent m)) (name : String) : Bool := agents.any (·.name == name)

/-- The first agents of a list with different names, at most `cap`, added to a pool. -/
def distinctUpTo (cap : Nat) : (pool : Array (Agent m)) → List (Agent m) → Array (Agent m)
  | pool, [] => pool
  | pool, agent :: rest =>
    if cap ≤ pool.size then pool
    else if named pool agent.name then distinctUpTo cap pool rest
    else distinctUpTo cap (pool.push agent) rest

variable [Monad m]

/-- Apply an operation to the agents of a pool at these places, and keep the result if it is new. Only
tuples with a place from `fresh` on are tried, and the empty tuple in the first round alone. -/
def tryTuple (cap : Nat) (pool : Array (Agent m)) (fresh : Nat) (first : Bool)
    (operation : Operation m) (found : Array (Agent m)) (places : List (Fin pool.size)) :
    m (ForInStep (Array (Agent m))) := do
  if places.any (fresh ≤ ·.val) || (places.isEmpty && first) then
    match ← (operation.apply (places.map fun i => pool[i])).run with
    | .error _ => return .yield found
    | .ok agent =>
      if named pool agent.name || named found agent.name then return .yield found
      else if cap ≤ pool.size + found.size + 1 then return .done (found.push agent)
      else return .yield (found.push agent)
  else return .yield found

/-- The new agents of a round, until the pool with them reaches the cap. -/
def round (algebra : Algebra m) (cap : Nat) (pool : Array (Agent m)) (fresh : Nat) (first : Bool) :
    m (Array (Agent m)) := do
  let places := List.finRange pool.size
  let found ← walk
    (fun found (operation : Operation m) =>
      walkTuples places (tryTuple cap pool fresh first operation) operation.arity [] found)
    #[] algebra.operations
  return match found with
    | .yield found | .done found => found

/-- Add rounds to a pool, until one brings nothing new or the cap is reached. -/
def rounds (algebra : Algebra m) (cap : Nat) :
    (depth : Nat) → (pool : Array (Agent m)) → (fresh : Nat) → (first : Bool) → m (Array (Agent m))
  | 0, pool, _, _ => return pool
  | depth + 1, pool, fresh, first => do
    if cap ≤ pool.size then return pool
    else
      let found ← round algebra cap pool fresh first
      if found.isEmpty then return pool
      else rounds algebra cap depth (pool ++ found) pool.size false

end Enumeration

/-- The agents built from given ones by at most `depth` nested operations, at most `cap` of them: the
given ones first, then those of each round. -/
def enumerate {m : Type → Type} [Monad m] (algebra : Algebra m) (primitives : List (Agent m))
    (depth cap : Nat) : m (Array (Agent m)) :=
  Enumeration.rounds algebra cap depth (Enumeration.distinctUpTo cap #[] primitives) 0 true

end AgentAlgebra
