import AgentAlgebra.Directions
/-!
# Agents

An agent has a finite set of positions and moves from one to another on inputs. A primitive agent is
a table of positions with a transition function; composite agents are built from others and keep
their parts, so that a position of a composite is the array of the positions of its parts.

The functions that callers supply run in a monad `m`: at `Id` agents are pure, and in a state monad
they may remember how often they were called.
-/

namespace AgentAlgebra

/-- How often `fix` tries, and what it tries next after an input and its output. -/
structure RetryPolicy (m : Type → Type) where
  maxAttempts : Nat
  refine : Value → Value → m Value
  positive : 0 < maxAttempts

/-- What every agent declares: its name, what it takes and gives, and where it starts. -/
structure Header where
  name : String
  signature : Signature
  initial : Value

/-- The positions of a primitive agent, the inputs that are legal at each, and its transition from a
position and an input to the next position and an output. -/
structure Machine (m : Type → Type) where
  positions : List Value
  directions : Value → Directions
  transition : Value → Value → m (Value × Value)
  nonempty : positions ≠ []
  distinct : positions.Pairwise fun p q => (q == p) = false

/-- An agent. -/
inductive Agent (m : Type → Type) where
  | primitive (header : Header) (machine : Machine m)
  /-- Gives back its input. Its only position is `null`. -/
  | identity (header : Header)
  /-- The second agent works on the output of the first. -/
  | sequence (header : Header) (first second : Agent m)
  /-- Both agents work on the same input. -/
  | parallel (header : Header) (left right : Agent m)
  /-- The predicate chooses which of two agents works on the input. -/
  | branch (header : Header) (predicate onTrue onFalse : Agent m)
  /-- The body works again and again until the predicate holds of its output. -/
  | fix (header : Header) (predicate body : Agent m) (policy : RetryPolicy m)
  /-- Reports each move of an agent beside its output. -/
  | observe (header : Header) (inner : Agent m)

namespace Agent

variable {m : Type → Type}

def header : Agent m → Header
  | .primitive header _ | .identity header | .sequence header .. | .parallel header ..
  | .branch header .. | .fix header .. | .observe header _ => header

/-- The same agent under another header. -/
def withHeader (agent : Agent m) (header : Header) : Agent m :=
  match agent with
  | .primitive _ machine => .primitive header machine
  | .identity _ => .identity header
  | .sequence _ first second => .sequence header first second
  | .parallel _ left right => .parallel header left right
  | .branch _ predicate onTrue onFalse => .branch header predicate onTrue onFalse
  | .fix _ predicate body policy => .fix header predicate body policy
  | .observe _ inner => .observe header inner

@[simp]
theorem header_withHeader (agent : Agent m) (header : Header) :
    (agent.withHeader header).header = header := by
  cases agent <;> rfl

def name (agent : Agent m) : String := agent.header.name
def signature (agent : Agent m) : Signature := agent.header.signature
def input (agent : Agent m) : ValueType := agent.signature.input
def output (agent : Agent m) : ValueType := agent.signature.output
def initial (agent : Agent m) : Value := agent.header.initial

/-- The same behaviour under another name. -/
def withName (agent : Agent m) (name : String) : Agent m :=
  agent.withHeader { agent.header with name }

@[simp]
theorem name_withName (agent : Agent m) (name : String) : (agent.withName name).name = name := by
  simp [withName, Agent.name]

def isPrimitive : Agent m → Bool
  | .primitive .. => true
  | _ => false

/-- Whether a value is a position of the agent. -/
def isPosition : Agent m → Value → Bool
  | .primitive _ machine, position => machine.positions.contains position
  | .identity _, position => position.isNull
  | .sequence _ a b, position | .parallel _ a b, position | .fix _ a b _, position =>
    match position.pair? with
    | some (p, q) => a.isPosition p && b.isPosition q
    | none => false
  | .branch _ a b c, position =>
    match position.triple? with
    | some (p, q, r) => a.isPosition p && b.isPosition q && c.isPosition r
    | none => false
  | .observe _ inner, position => inner.isPosition position

/-- All positions. The positions of the last part of a composite change fastest. -/
def positions : Agent m → List Value
  | .primitive _ machine => machine.positions
  | .identity _ => [.null]
  | .sequence _ a b | .parallel _ a b | .fix _ a b _ =>
    a.positions.flatMap fun p => b.positions.map (.pair p)
  | .branch _ a b c =>
    a.positions.flatMap fun p => b.positions.flatMap fun q => c.positions.map (.triple p q)
  | .observe _ inner => inner.positions

/-- The legal inputs at a position; none where there is no such position. A composite takes what all
its parts that read its input take. -/
def directions (agent : Agent m) (position : Value) : Directions :=
  if agent.isPosition position then
    match agent with
    | .primitive _ machine => machine.directions position
    | .identity header => .typed header.signature.input
    | .sequence _ first _ =>
      match position.pair? with
      | some (p, _) => first.directions p
      | none => .none
    | .parallel _ left right =>
      match position.pair? with
      | some (p, q) => (left.directions p).intersect (right.directions q)
      | none => .none
    | .branch _ predicate onTrue onFalse =>
      match position.triple? with
      | some (p, q, r) =>
        ((predicate.directions p).intersect (onTrue.directions q)).intersect (onFalse.directions r)
      | none => .none
    | .fix _ _ body _ =>
      match position.pair? with
      | some (_, q) => body.directions q
      | none => .none
    | .observe _ inner => inner.directions position
  else .none

/-- The positions of the primitive agents in a position, left to right. An identity has no state and
adds nothing. -/
def frontier : Agent m → Value → List Value
  | .primitive .., position => [position]
  | .identity _, _ => []
  | .sequence _ a b, position | .parallel _ a b, position | .fix _ a b _, position =>
    match position.pair? with
    | some (p, q) => a.frontier p ++ b.frontier q
    | none => [position]
  | .branch _ a b c, position =>
    match position.triple? with
    | some (p, q, r) => a.frontier p ++ b.frontier q ++ c.frontier r
    | none => [position]
  | .observe _ inner, position => inner.frontier position

end Agent

end AgentAlgebra
