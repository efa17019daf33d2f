import AgentAlgebra.Verify.Divergence
import AgentAlgebra.Verify.Scenario
import AgentAlgebra.Witness
/-!
# Violations

A report of a broken law that needs no agents to be understood: the law, the scenario, what each
side was seen to do, and where the two parted.
-/

namespace AgentAlgebra

/-- What one side was seen to do. -/
structure Observation where
  agent : String
  outputs : List Value
  finalFrontier : List Value

namespace Observation

/-- What a trace shows of an agent. -/
def of (agent : String) (trace : Trace) : Observation := ⟨agent, trace.outputs, trace.finalFrontier⟩

def toValue (observation : Observation) : Value :=
  .record [("agent", .text observation.agent), ("outputs", .ofList observation.outputs),
    ("finalFrontier", .ofList observation.finalFrontier)]

def ofValue? (value : Value) : Option Observation := do
  match ← value.members? ["agent", "outputs", "finalFrontier"] with
  | [agent, outputs, finalFrontier] =>
    return ⟨← (← agent).text?, ← (← outputs).items?, ← (← finalFrontier).items?⟩
  | _ => none

end Observation

/-- A report of a broken law. -/
structure Violation where
  witnessId : String
  /-- The name of the sort of failure. -/
  failure : String
  law : String
  equation : String
  input : Scenario
  lhs : Observation
  rhs : Observation
  divergence : Divergence
  message : String

namespace Violation

/-- What the failure is known by: the two agents, the scenario, the step and what differed. -/
def key (failure law : String) (input : Scenario) (lhs rhs : Observation)
    (divergence : Divergence) : WitnessKey where
  failure
  law
  subject := some s!"{lhs.agent} = {rhs.agent}"
  context := some (.record [("input", input.toValue), ("step", .ofNat divergence.step),
    ("observable", .text divergence.observable.name)])

/-- The report of a divergence. -/
def of (failure law equation : String) (input : Scenario) (lhs rhs : Observation)
    (divergence : Divergence) : Violation where
  witnessId := (key failure law input lhs rhs divergence).id
  failure
  law
  equation
  input
  lhs
  rhs
  divergence
  message :=
    s!"{law} violated at step {divergence.step} (" ++ divergence.observable.name ++
      s!"): {lhs.agent} gave {divergence.lhs}, {rhs.agent} gave {divergence.rhs}"

/-- The fields of the form. -/
def fields (violation : Violation) : List (String × Value) :=
  [ ("witnessId", .text violation.witnessId), ("class", .text violation.failure),
    ("law", .text violation.law), ("equation", .text violation.equation),
    ("input", violation.input.toValue), ("lhs", violation.lhs.toValue),
    ("rhs", violation.rhs.toValue), ("divergence", violation.divergence.toValue),
    ("message", .text violation.message) ]

def toValue (violation : Violation) : Value := .record violation.fields

def ofValue? (value : Value) : Option Violation := do
  match ← value.members? ["witnessId", "class", "law", "equation", "input", "lhs", "rhs",
      "divergence", "message"] with
  | [witnessId, failure, law, equation, input, lhs, rhs, divergence, message] =>
    return {
      witnessId := ← (← witnessId).text?
      failure := ← (← failure).text?
      law := ← (← law).text?
      equation := ← (← equation).text?
      input := ← Scenario.ofValue? (← input)
      lhs := ← Observation.ofValue? (← lhs)
      rhs := ← Observation.ofValue? (← rhs)
      divergence := ← Divergence.ofValue? (← divergence)
      message := ← (← message).text? }
  | _ => none

end Violation

end AgentAlgebra
