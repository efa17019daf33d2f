import AgentAlgebra.Agent.Basic
/-!
# Scenarios

What a law is tried on: the inputs that both sides are run on, and where the agents start.
-/

namespace AgentAlgebra

/-- Inputs, and for each agent a start position in place of its own. Where there is none the agent
keeps its own. -/
structure Scenario where
  positions : List (Option Value) := []
  inputs : List Value

namespace Scenario

/-- One input. -/
def single (input : Value) : Scenario := { inputs := [input] }

/-- Several inputs, one after the other. -/
def sequence (inputs : List Value) : Scenario := { inputs }

/-- Start the agent of a variable at a position. -/
def startAt (scenario : Scenario) (operand : Nat) (position : Value) : Scenario :=
  let missing := operand + 1 - scenario.positions.length
  let positions := scenario.positions ++ List.replicate missing none
  { scenario with positions := positions.set operand (some position) }

/-- The form has no `positions` where no agent is moved. -/
def toValue (scenario : Scenario) : Value :=
  let inputs := ("inputs", Value.ofList scenario.inputs)
  if scenario.positions.isEmpty then .record [inputs]
  else .record [("positions", .ofList (scenario.positions.map .ofOption)), inputs]

def ofValue? (value : Value) : Option Scenario := do
  match ← value.members? ["positions", "inputs"] with
  | [positions, inputs] =>
    let positions ← match positions with
      | none => some []
      | some positions => positions.listOf? fun position => Value.optional? some position
    return ⟨positions, ← (← inputs).items?⟩
  | _ => none

end Scenario

end AgentAlgebra
