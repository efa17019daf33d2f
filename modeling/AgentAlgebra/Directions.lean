import AgentAlgebra.ValueType
/-!
# Legal inputs

The inputs that an agent accepts at a position: a finite list of values, or all values of a type.
-/

namespace AgentAlgebra

/-- A set of legal inputs. -/
inductive Directions where
  | finite (inputs : List Value)
  | typed (type : ValueType)

namespace Directions

/-- No input is legal. -/
def none : Directions := .finite []

instance : Inhabited Directions := ⟨none⟩

/-- Whether an input is legal. -/
def contains : Directions → Value → Bool
  | .finite inputs, input => inputs.contains input
  | .typed type, input => type.admits input

/-- The inputs that are legal in both. A list keeps its order. -/
def intersect : Directions → Directions → Directions
  | .finite inputs, other => .finite (inputs.filter other.contains)
  | .typed type, .finite inputs => .finite (inputs.filter type.admits)
  | .typed type, .typed type' =>
    match type.unify type' with
    | some both => .typed both
    | Option.none => none

/-- The legal inputs, where they are listed. -/
def inputs? : Directions → Option (List Value)
  | .finite inputs => some inputs
  | .typed _ => Option.none

def toValue : Directions → Value
  | .finite inputs => .record [("finite", .ofList inputs)]
  | .typed type => .record [("typed", type.toValue)]

/-- The form is an object with one field, which says of which of the two sorts the set is. -/
def ofValue? (value : Value) : Option Directions := do
  let (sort, content) ← value.onlyField?
  match sort with
  | "finite" => content.items?.map .finite
  | "typed" => (ValueType.ofValue? content).map .typed
  | _ => Option.none

end Directions

end AgentAlgebra
