import AgentAlgebra.Agent.Trace
/-!
# Divergences

The earliest point at which two traces were seen to differ, and what differed there.
-/

namespace AgentAlgebra

/-- What is compared at a step. -/
inductive Observable where
  | output
  | frontier
  | stages
deriving DecidableEq

namespace Observable

def name : Observable → String
  | .output => "output"
  | .frontier => "frontier"
  | .stages => "stages"

def ofName? : String → Option Observable
  | "output" => some .output
  | "frontier" => some .frontier
  | "stages" => some .stages
  | _ => none

end Observable

/-- A difference between two traces. -/
structure Divergence where
  /-- The index of the step. -/
  step : Nat
  observable : Observable
  /-- Where both sides ran the same agents, the index of the first stage that differs, -/
  stage : Option Nat
  /-- and its agent. -/
  stageAgent : Option String
  lhs : Value
  rhs : Value

/-- The first stage that differs between two steps in which the same agents moved in the same
order. -/
def firstStageDifference? (l r : StepTrace) : Option (Nat × String) :=
  let stages := l.stages.zip r.stages
  if l.stages.length = r.stages.length ∧ stages.all fun (a, b) => a.agent == b.agent then do
    let index ← stages.findIdx? fun (a, b) => a != b
    let (stage, _) ← stages[index]?
    return (index, stage.agent)
  else none

namespace Divergence

/-- How two steps of one index differ: in the output, or in the frontier if that counts, or in the
stages if those count. -/
def atStep? (frontier stages : Bool) (step : Nat) (l r : StepTrace) : Option Divergence :=
  let blame := firstStageDifference? l r
  if l.output != r.output then
    some ⟨step, .output, blame.map (·.1), blame.map (·.2), l.output, r.output⟩
  else if frontier && l.frontier != r.frontier then
    some ⟨step, .frontier, none, none, .ofList l.frontier, .ofList r.frontier⟩
  else if stages && l.stages != r.stages then
    some ⟨step, .stages, blame.map (·.1), blame.map (·.2),
      .ofList (l.stages.map Stage.toValue), .ofList (r.stages.map Stage.toValue)⟩
  else none

/-- The first difference from a step on. -/
def among? (frontier stages : Bool) :
    (step : Nat) → List StepTrace → List StepTrace → Option Divergence
  | step, l :: left, r :: right =>
    match atStep? frontier stages step l r with
    | some divergence => some divergence
    | none => among? frontier stages (step + 1) left right
  | _, _, _ => none

/-- The first difference between two traces. -/
def between? (left right : Trace) (frontier stages : Bool) : Option Divergence :=
  among? frontier stages 0 left.steps right.steps

/-- The form leaves out what there is not. -/
def toValue (divergence : Divergence) : Value :=
  .record ([("step", .ofNat divergence.step), ("observable", .text divergence.observable.name),
      ("lhs", divergence.lhs), ("rhs", divergence.rhs)]
    ++ (divergence.stage.map fun stage => ("stage", Value.ofNat stage)).toList
    ++ (divergence.stageAgent.map fun agent => ("stageAgent", Value.text agent)).toList)

/-- A divergence is read as a part of what became of a law. -/
def ofValue? (value : Value) : Option Divergence := do
  match ← value.members? ["step", "observable", "stage", "stageAgent", "lhs", "rhs"] with
  | [step, observable, stage, stageAgent, lhs, rhs] =>
    return ⟨← (← step).nat?, ← Observable.ofName? (← (← observable).nestedSymbol?),
      ← Value.optional? Value.nat? stage, ← Value.optional? Value.text? stageAgent, ← lhs, ← rhs⟩
  | _ => none

end Divergence

end AgentAlgebra
