import AgentAlgebra.Algebra.Basic
import AgentAlgebra.Verify.Violation
/-!
# Checking laws

Both sides of a law are built from the agents supplied and run on the same inputs. Nothing about
their structure is compared: a law is satisfied if both sides are seen to do the same. With replay
each side is run a second time and must do the same again.
-/

namespace AgentAlgebra

/-- What became of checking a law. -/
inductive LawOutcome where
  | satisfied (law : String) (cases : Nat)
  | violated (violation : Violation)
  /-- The law could not be tried with what was supplied. -/
  | inapplicable (law reason : String)

namespace LawOutcome

def law : LawOutcome → String
  | .satisfied law _ | .inapplicable law _ => law
  | .violated violation => violation.law

def isSatisfied : LawOutcome → Bool
  | .satisfied .. => true
  | _ => false

def isViolated : LawOutcome → Bool
  | .violated _ => true
  | _ => false

def isInapplicable : LawOutcome → Bool
  | .inapplicable .. => true
  | _ => false

def violation? : LawOutcome → Option Violation
  | .violated violation => some violation
  | _ => none

/-- The form names the result and holds its fields beside the name. -/
def toValue : LawOutcome → Value
  | .satisfied law cases =>
    .record [("result", .text "satisfied"), ("law", .text law), ("cases", .ofNat cases)]
  | .violated violation => .record (("result", .text "violated") :: violation.fields)
  | .inapplicable law reason =>
    .record [("result", .text "inapplicable"), ("law", .text law), ("reason", .text reason)]

/-- The name of the result, and the value that holds its fields. -/
def parts? : Value → Option (String × Value)
  | value@(.object ..) => do return (← (← value.field? "result").text?, value)
  | value => do
    match ← value.items? with
    | name :: rest => return (← name.text?, .ofList rest)
    | [] => none

def ofValue? (value : Value) : Option LawOutcome := do
  let (name, content) ← parts? value
  match name with
  | "satisfied" =>
    match ← content.members? ["law", "cases"] with
    | [law, cases] => return .satisfied (← (← law).text?) (← (← cases).nat?)
    | _ => none
  | "violated" => (Violation.ofValue? content).map .violated
  | "inapplicable" =>
    match ← content.members? ["law", "reason"] with
    | [law, reason] => return .inapplicable (← (← law).text?) (← (← reason).text?)
    | _ => none
  | _ => none

end LawOutcome

/-- Why a law cannot be tried. -/
inductive Obstacle where
  | noLaw (algebra law : String)
  | noInputs
  | wrongAgents (arity supplied : Nat)
  | tooManyStarts (starts agents : Nat)
  | unbuilt (error : AlgebraError)
  | stopped (error : StepError)

/-- The obstacle in words. -/
def Obstacle.reason : Obstacle → String
  | .noLaw algebra law => s!"algebra {algebra} has no law {law}"
  | .noInputs => "no test inputs"
  | .wrongAgents arity supplied => s!"law binds {arity} agents, {supplied} supplied"
  | .tooManyStarts starts agents => s!"{starts} start positions for {agents} agents"
  | .unbuilt error => error.message
  | .stopped error => "contract error: " ++ error.message

/-- How laws are checked. -/
structure VerifySettings where
  /-- Run both sides a second time. -/
  replay : Bool := true

/-- The agents moved to the start positions of a scenario. -/
def Scenario.bind {m : Type → Type} (scenario : Scenario) (agents : List (Agent m)) :
    Except StepError (List (Agent m)) :=
  agents.zipIdx.mapM fun (agent, index) =>
    match scenario.positions[index]? with
    | some (some position) => agent.startingAt position
    | _ => .ok agent

namespace VerifySettings

variable {m : Type → Type} [Monad m]

/-- Run one side of a law from its start. -/
def observe (side : Agent m) (scenario : Scenario) : ExceptT Obstacle m Trace :=
  (side.trace side.initial scenario.inputs).adapt .stopped

/-- Run a side again and compare everything with its first run. -/
def replayed? (law : Law m) (scenario : Scenario) (side : Agent m) (first : Trace) :
    ExceptT Obstacle m (Option Violation) := do
  let again ← observe side scenario
  return (Divergence.between? first again true true).map fun divergence =>
    .of FailureClass.replayDivergence.name law.name law.equation scenario
      (.of side.name first) (.of side.name again) divergence

/-- Try a law on one scenario; the result is what went wrong. -/
def check (settings : VerifySettings) (algebra : Algebra m) (law : Law m) (agents : List (Agent m))
    (scenario : Scenario) : ExceptT Obstacle m (Option Violation) := do
  if agents.length < scenario.positions.length then
    throw (.tooManyStarts scenario.positions.length agents.length)
  let bound ← match scenario.bind agents with
    | .ok bound => pure bound
    | .error error => throw (.unbuilt (.contract error))
  let (lhs, rhs) ← (law.sides algebra bound).adapt Obstacle.unbuilt
  let left ← observe lhs scenario
  let right ← observe rhs scenario
  match Divergence.between? left right (law.comparison = .outputsAndFrontier) false with
  | some divergence =>
    return some (.of FailureClass.lawViolation.name law.name law.equation scenario
      (.of lhs.name left) (.of rhs.name right) divergence)
  | none =>
    if settings.replay then
      match ← replayed? law scenario lhs left with
      | some violation => return some violation
      | none => replayed? law scenario rhs right
    else return none

/-- Try a law on scenarios until something goes wrong. -/
def checkAll (settings : VerifySettings) (algebra : Algebra m) (law : Law m)
    (agents : List (Agent m)) : List Scenario → ExceptT Obstacle m (Option Violation)
  | [] => return none
  | scenario :: scenarios => do
    match ← settings.check algebra law agents scenario with
    | some violation => return some violation
    | none => settings.checkAll algebra law agents scenarios

/-- Check the law of a name with agents for its variables. -/
def verify (settings : VerifySettings) (algebra : Algebra m) (name : String)
    (agents : List (Agent m)) (scenarios : List Scenario) : m LawOutcome := do
  let outcome ← ExceptT.run do
    match algebra.law? name with
    | none => throw (.noLaw algebra.name name)
    | some law =>
      if scenarios.isEmpty then throw .noInputs
      if agents.length ≠ law.arity then throw (.wrongAgents law.arity agents.length)
      settings.checkAll algebra law agents scenarios
  return match outcome with
    | .ok none => .satisfied name scenarios.length
    | .ok (some violation) => .violated violation
    | .error obstacle => .inapplicable name obstacle.reason

end VerifySettings

end AgentAlgebra
