import AgentAlgebra.Value.Record
import AgentAlgebra.Witness
/-!
# Conflicts

Contradictions between the views of a sheaf, or between its views and its glue.
-/

namespace AgentAlgebra

/-- A contradiction. -/
structure Conflict where
  witnessId : String
  /-- The name of the sort of failure. -/
  failure : String
  /-- The view that the contradiction comes from, or `*` for all of them. -/
  source : String
  /-- The view in which it shows. -/
  target : String
  /-- What the target should have rendered. -/
  expected : Value
  /-- What it rendered instead. -/
  found : Value
  distance : Option Double
  description : String

namespace Conflict

/-- The stand-in for all views of a sheaf. -/
def allViews : String := "*"

/-- What the failure is known by: the two views, and what was expected and found. -/
def key (failure sheaf source target : String) (expected found : Value) : WitnessKey where
  failure
  law := sheaf
  subject := some s!"{source} -> {target}"
  context := some (.record [("expected", expected), ("found", found)])

/-- A contradiction in a sheaf. -/
def of (sheaf : String) (failure : FailureClass) (source target : String) (expected found : Value)
    (distance : Option Double) (description : String) : Conflict where
  witnessId := (key failure.name sheaf source target expected found).id
  failure := failure.name
  source
  target
  expected
  found
  distance
  description

/-- Whether a view is one of the two. -/
def involves (conflict : Conflict) (view : String) : Bool :=
  conflict.source == view || conflict.target == view

/-- The conflict in one line. -/
def text (conflict : Conflict) : String :=
  s!"{conflict.failure} [{conflict.source} -> {conflict.target}]: {conflict.description}"

/-- The form leaves out a distance that there is not. -/
def toValue (conflict : Conflict) : Value :=
  .record ([("witnessId", .text conflict.witnessId), ("class", .text conflict.failure),
      ("views", .pair (.text conflict.source) (.text conflict.target)),
      ("expected", conflict.expected), ("found", conflict.found),
      ("description", .text conflict.description)]
    ++ (conflict.distance.map fun distance => ("distance", Value.number (.double distance))).toList)

def ofValue? (value : Value) : Option Conflict := do
  match ← value.members? ["witnessId", "class", "views", "expected", "found", "distance",
      "description"] with
  | [witnessId, failure, views, expected, found, distance, description] =>
    let (source, target) ← (← views).pair?
    return {
      witnessId := ← (← witnessId).text?
      failure := ← (← failure).text?
      source := ← source.text?
      target := ← target.text?
      expected := ← expected
      found := ← found
      distance := ← Value.optional? Value.double? distance
      description := ← (← description).text? }
  | _ => none

end Conflict

/-- What came of checking the views of an artifact. -/
inductive Coherence where
  | coherent
  | conflicts (conflicts : List Conflict)

namespace Coherence

/-- The result that a list of conflicts is. -/
def ofConflicts : List Conflict → Coherence
  | [] => .coherent
  | found => .conflicts found

def isCoherent : Coherence → Bool
  | .coherent => true
  | .conflicts _ => false

def list : Coherence → List Conflict
  | .coherent => []
  | .conflicts found => found

def toValue : Coherence → Value
  | .coherent => .record [("result", .text "coherent")]
  | .conflicts found =>
    .record [("result", .text "conflicts"), ("conflicts", .ofList (found.map (·.toValue)))]

/-- The name of the result, and what stands beside it. In an array of the two the name is a plain
text. -/
def parts? : Value → Option (String × Option Value)
  | value@(.object ..) => do
    return (← (← value.field? "result").symbol?, value.field? "conflicts")
  | value => do
    let (name, content) ← value.pair?
    return (← name.text?, some content)

def ofValue? (value : Value) : Option Coherence := do
  match ← parts? value with
  | ("coherent", content) => if content.all (·.isNull) then some .coherent else none
  | ("conflicts", content) => ((← content).listOf? Conflict.ofValue?).map .conflicts
  | _ => none

end Coherence

end AgentAlgebra
