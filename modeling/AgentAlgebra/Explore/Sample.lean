import AgentAlgebra.Algebra.Basic
import AgentAlgebra.Explore.ChaCha
/-!
# Drawing a composite

An agent that an algebra builds from given ones by operations drawn at random. Each step applies an
operation to agents drawn from those built so far, with the current agent in one place; a step whose
draws do not go together is tried again a few times and then left out.
-/

namespace AgentAlgebra

/-- A way of drawing numbers below a bound from a source. -/
abbrev Draw (γ : Type) := (bound : Nat) → 0 < bound → γ → Fin bound × γ

namespace Sampling

variable {m : Type → Type} {γ : Type}

/-- Agents to draw from; there is at least one. -/
structure Pool (m : Type → Type) where
  agents : Array (Agent m)
  nonempty : 0 < agents.size

/-- One agent more. -/
def Pool.push (pool : Pool m) (agent : Agent m) : Pool m :=
  ⟨pool.agents.push agent, by simp⟩

/-- Draw an agent. -/
def Pool.draw (pool : Pool m) (draw : Draw γ) (source : γ) : Agent m × γ :=
  let (place, source) := draw pool.agents.size pool.nonempty source
  (pool.agents[place], source)

/-- Draw a number of agents, one after the other. -/
def Pool.drawMany (pool : Pool m) (draw : Draw γ) : (count : Nat) → γ → List (Agent m) × γ
  | 0, source => ([], source)
  | count + 1, source =>
    let (agent, source) := pool.draw draw source
    let (agents, source) := pool.drawMany draw count source
    (agent :: agents, source)

/-- Put an agent in the place of one of the operands, drawn at random, if there are any. -/
def placeCurrent (draw : Draw γ) (current : Agent m) (operands : List (Agent m)) (source : γ) :
    List (Agent m) × γ :=
  if present : 0 < operands.length then
    let (place, source) := draw operands.length present source
    (operands.set place current, source)
  else (operands, source)

variable [Monad m]

/-- Operations to draw from; there is at least one. -/
structure Choice (m : Type → Type) where
  operations : Array (Operation m)
  nonempty : 0 < operations.size

/-- Try to grow the current agent, at most `tries` times. -/
def grow (choice : Choice m) (draw : Draw γ) (pool : Pool m) (current : Agent m) :
    (tries : Nat) → γ → m (Option (Agent m) × γ)
  | 0, source => return (none, source)
  | tries + 1, source => do
    let (place, source) := draw choice.operations.size choice.nonempty source
    let operation := choice.operations[place]
    let (operands, source) := pool.drawMany draw operation.arity source
    let (operands, source) := placeCurrent draw current operands source
    match ← (operation.apply operands).run with
    | .ok agent => return (some agent, source)
    | .error _ => grow choice draw pool current tries source

/-- How often a step is tried. -/
def triesPerStep : Nat := 16

/-- Take a number of steps. -/
def steps (choice : Choice m) (draw : Draw γ) :
    (bound : Nat) → Pool m → (current : Agent m) → γ → m (Agent m)
  | 0, _, current, _ => return current
  | bound + 1, pool, current, source => do
    match ← grow choice draw pool current triesPerStep source with
    | (some agent, source) => steps choice draw bound (pool.push agent) agent source
    | (none, source) => steps choice draw bound pool current source

end Sampling

/-- An agent built by at most `bound` operations from given agents, of which there must be one. -/
def sample {m : Type → Type} [Monad m] {γ : Type} (draw : Draw γ) (algebra : Algebra m)
    (primitives : List (Agent m)) (source : γ) (bound : Nat) : ExceptT AlgebraError m (Agent m) :=
  let agents := primitives.toArray
  if nonempty : 0 < agents.size then do
    let pool : Sampling.Pool m := ⟨agents, nonempty⟩
    let (current, source) := pool.draw draw source
    let operations := algebra.operations.toArray
    if choices : 0 < operations.size then
      Sampling.steps ⟨operations, choices⟩ draw bound pool current source
    else return current
  else throw .emptyPrimitives

/-- The agent that a seed stands for. -/
def sampleSeed {m : Type → Type} [Monad m] (algebra : Algebra m) (primitives : List (Agent m))
    (seed : UInt64) (bound : Nat) : ExceptT AlgebraError m (Agent m) :=
  sample ChaCha.below algebra primitives (ChaCha.ofSeed seed) bound

end AgentAlgebra
