import AgentAlgebra.Agent.Error
import AgentAlgebra.Agent.Retry
/-!
# Steps

One move of an agent. The position must be one of the agent's and the input legal there; composites
ask the same of every part that they run. Beside the new position and the output a step lists its
stages, the moves of the primitive agents in it, in the order in which they were made.
-/

namespace AgentAlgebra

/-- A move of a primitive agent. -/
structure Stage where
  agent : String
  input : Value
  output : Value
deriving BEq

/-- A move of an agent. -/
structure Step where
  position : Value
  output : Value
  stages : List Stage

variable {m : Type → Type} [Monad m]

/-- Move as a machine says, holding it to its positions and to the declared output type. -/
def Machine.step (machine : Machine m) (header : Header) (position input : Value) :
    ExceptT StepError m Step := do
  let (next, output) ← machine.transition position input
  if machine.positions.contains next then
    if header.signature.output.admits output then
      return ⟨next, output, [⟨header.name, input, output⟩]⟩
    else throw (.illTypedOutput header.name output header.signature.output)
  else throw (.illegalTransition header.name position next)

namespace Agent

/-- Demand that the agent may move from this position on this input. -/
def require (agent : Agent m) (position input : Value) : ExceptT StepError m Unit :=
  if agent.isPosition position then
    if (agent.directions position).contains input then pure ()
    else throw (.illegalInput agent.name position input)
  else throw (.unknownPosition agent.name position)

/-- The verdict that a predicate gave, which must be a truth value. -/
def verdict (predicate : String) (output : Value) : ExceptT StepError m Bool :=
  match output with
  | .bool holds => pure holds
  | _ => throw (.illTypedOutput predicate output .bool)

/-- Retry: move the body, then the predicate on what the body gave, until the predicate holds or
`remaining` further tries are used up. The stages of the tries before this one are given last
first. -/
def retry (predicate : String) (movePredicate moveBody : Value → Value → ExceptT StepError m Step)
    (refine : Value → Value → m Value) :
    (remaining attempts : Nat) → (p q input : Value) → (before : List Stage) →
      ExceptT StepError m Step
  | remaining, attempts, p, q, input, before => do
    let produced ← moveBody q input
    let judged ← movePredicate p produced.output
    let holds ← verdict predicate judged.output
    let stages := (produced.stages ++ judged.stages).reverse ++ before
    let finish (status : RetryStatus) : Step :=
      ⟨.pair judged.position produced.position,
        RetryOutcome.toValue ⟨status, produced.output, attempts⟩, stages.reverse⟩
    if holds then return finish .converged
    else
      match remaining with
      | 0 => return finish .exhausted
      | remaining + 1 =>
        let next ← refine input produced.output
        retry predicate movePredicate moveBody refine remaining (attempts + 1) judged.position
          produced.position next stages

/-- What an observer reports of a move. -/
def report (agent : String) (position input : Value) (move : Step) : Value :=
  .record [("output", move.output),
    ("observation", .record [("agent", .text agent), ("input", input), ("from", position),
      ("to", move.position)])]

/-- The move of an agent from a position on an input. -/
def step : Agent m → (position input : Value) → ExceptT StepError m Step
  | agent@(.primitive header machine), position, input => do
    agent.require position input
    machine.step header position input
  | agent@(.identity _), position, input => do
    agent.require position input
    return ⟨.null, input, []⟩
  | agent@(.sequence _ first second), position, input => do
    agent.require position input
    let (p, q) ← parts2 agent position
    let one ← first.step p input
    let two ← second.step q one.output
    return ⟨.pair one.position two.position, two.output, one.stages ++ two.stages⟩
  | agent@(.parallel _ left right), position, input => do
    agent.require position input
    let (p, q) ← parts2 agent position
    let one ← left.step p input
    let two ← right.step q input
    return ⟨.pair one.position two.position, .pair one.output two.output, one.stages ++ two.stages⟩
  | agent@(.branch _ predicate onTrue onFalse), position, input => do
    agent.require position input
    let (p, q, r) ← parts3 agent position
    let judged ← predicate.step p input
    if ← verdict predicate.name judged.output then
      let taken ← onTrue.step q input
      return ⟨.triple judged.position taken.position r, taken.output, judged.stages ++ taken.stages⟩
    else
      let taken ← onFalse.step r input
      return ⟨.triple judged.position q taken.position, taken.output, judged.stages ++ taken.stages⟩
  | agent@(.fix _ predicate body policy), position, input => do
    agent.require position input
    let (p, q) ← parts2 agent position
    retry predicate.name predicate.step body.step policy.refine (policy.maxAttempts - 1) 1 p q
      input []
  | agent@(.observe _ inner), position, input => do
    agent.require position input
    let move ← inner.step position input
    return { move with output := report inner.name position input move }
where
  /-- The two positions in a position of an agent with two parts. -/
  parts2 (agent : Agent m) (position : Value) : ExceptT StepError m (Value × Value) :=
    match position.pair? with
    | some parts => pure parts
    | none => throw (.unknownPosition agent.name position)
  /-- The three positions in a position of an agent with three parts. -/
  parts3 (agent : Agent m) (position : Value) : ExceptT StepError m (Value × Value × Value) :=
    match position.triple? with
    | some parts => pure parts
    | none => throw (.unknownPosition agent.name position)

end Agent

end AgentAlgebra
