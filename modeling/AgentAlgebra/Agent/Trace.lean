import AgentAlgebra.Agent.Step
/-!
# Runs and traces

A run folds an agent's steps over a sequence of inputs and keeps the outputs; a trace also keeps, for
every step, the frontier it reached and its stages. Both end at the first step that fails.
-/

namespace AgentAlgebra

/-- The outputs of a sequence of steps, and the position after them. -/
structure Run where
  finalPosition : Value
  outputs : List Value

/-- A step as it was seen. -/
structure StepTrace where
  input : Value
  output : Value
  /-- The positions of the primitive agents after the step. -/
  frontier : List Value
  stages : List Stage
deriving BEq

/-- A sequence of steps as it was seen. -/
structure Trace where
  initial : Value
  finalPosition : Value
  finalFrontier : List Value
  steps : List StepTrace
deriving BEq

/-- The outputs of a trace. -/
def Trace.outputs (trace : Trace) : List Value := trace.steps.map (·.output)

namespace Agent

variable {m : Type → Type} [Monad m]

/-- Run from a position. -/
def run (agent : Agent m) : (position : Value) → List Value → ExceptT StepError m Run
  | position, [] => return ⟨position, []⟩
  | position, input :: inputs => do
    let move ← agent.step position input
    let rest ← agent.run move.position inputs
    return ⟨rest.finalPosition, move.output :: rest.outputs⟩

/-- The steps from a position, and the position after them. -/
def traceFrom (agent : Agent m) :
    (position : Value) → List Value → ExceptT StepError m (List StepTrace × Value)
  | position, [] => return ([], position)
  | position, input :: inputs => do
    let move ← agent.step position input
    let (rest, last) ← agent.traceFrom move.position inputs
    return (⟨input, move.output, agent.frontier move.position, move.stages⟩ :: rest, last)

/-- Run from a position and record what is seen. The start must be a position even where there are no
inputs. -/
def trace (agent : Agent m) (initial : Value) (inputs : List Value) :
    ExceptT StepError m Trace := do
  if agent.isPosition initial then
    let (steps, last) ← agent.traceFrom initial inputs
    return ⟨initial, last, agent.frontier last, steps⟩
  else throw (.unknownPosition agent.name initial)

end Agent

namespace Stage

def toValue (stage : Stage) : Value :=
  .record [("agent", .text stage.agent), ("input", stage.input), ("output", stage.output)]

def ofValue? (value : Value) : Option Stage := do
  match ← value.members? ["agent", "input", "output"] with
  | [agent, input, output] => return ⟨← (← agent).text?, ← input, ← output⟩
  | _ => none

end Stage

namespace StepTrace

def toValue (step : StepTrace) : Value :=
  .record [("input", step.input), ("output", step.output), ("frontier", .ofList step.frontier),
    ("stages", .ofList (step.stages.map Stage.toValue))]

def ofValue? (value : Value) : Option StepTrace := do
  match ← value.members? ["input", "output", "frontier", "stages"] with
  | [input, output, frontier, stages] =>
    return ⟨← input, ← output, ← (← frontier).items?, ← (← stages).listOf? Stage.ofValue?⟩
  | _ => none

end StepTrace

namespace Trace

def toValue (trace : Trace) : Value :=
  .record [("initial", trace.initial), ("finalPosition", trace.finalPosition),
    ("finalFrontier", .ofList trace.finalFrontier), ("steps", .ofList (trace.steps.map (·.toValue)))]

def ofValue? (value : Value) : Option Trace := do
  match ← value.members? ["initial", "finalPosition", "finalFrontier", "steps"] with
  | [initial, finalPosition, finalFrontier, steps] =>
    return ⟨← initial, ← finalPosition, ← (← finalFrontier).items?,
      ← (← steps).listOf? StepTrace.ofValue?⟩
  | _ => none

end Trace

def Run.toValue (run : Run) : Value :=
  .record [("finalPosition", run.finalPosition), ("outputs", .ofList run.outputs)]

end AgentAlgebra
