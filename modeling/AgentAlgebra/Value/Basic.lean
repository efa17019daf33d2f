import AgentAlgebra.Double.Basic
import AgentAlgebra.Fields
/-!
# Values

The data that agents exchange: JSON values. The parts of an array are a family indexed by their
places, those of an object a family indexed by its field names, so a value is determined by its parts
and induction over values needs no induction over lists. Numbers are of two kinds that never compare
equal: integers and doubles.
-/

namespace AgentAlgebra

/-- An integer or a finite double. What is read from text is an integer only within 64 bits, signed or
unsigned; beyond them it is a double. -/
inductive Number where
  | integer (value : Int)
  | double (value : Double)
deriving DecidableEq

namespace Number

/-- Numbers of different kinds differ; doubles are compared by value. -/
def beq : Number → Number → Bool
  | .integer a, .integer b => a == b
  | .double a, .double b => a == b
  | _, _ => false

instance : BEq Number := ⟨beq⟩

end Number

/-- A JSON value. -/
inductive Value where
  | null
  | bool (b : Bool)
  | number (n : Number)
  | text (s : String)
  | array (size : Nat) (item : Fin size → Value)
  | object (names : Names) (field : Fin names.size → Value)

namespace Value

instance : Inhabited Value := ⟨.null⟩

/-- Whether two values are equal part by part, numbers by `Number.beq`. -/
def beq : Value → Value → Bool
  | .null, .null => true
  | .bool a, .bool b => a == b
  | .number a, .number b => a == b
  | .text a, .text b => a == b
  | .array size item, .array size' item' =>
    if h : size = size' then (List.finRange size).all fun i => beq (item i) (item' (i.cast h))
    else false
  | .object names field, .object names' field' =>
    if h : names = names' then
      (List.finRange names.size).all fun i => beq (field i) (field' (i.cast (congrArg _ h)))
    else false
  | _, _ => false

instance : BEq Value := ⟨beq⟩

/-- The array of the given items. -/
def ofArray (items : Array Value) : Value := .array items.size fun i => items[i]

/-- The array of the given items. -/
def ofList (items : List Value) : Value := ofArray items.toArray

/-- The array of two values. -/
def pair (first second : Value) : Value := .array 2 fun i => if i.val = 0 then first else second

/-- The array of three values. -/
def triple (first second third : Value) : Value :=
  .array 3 fun i => if i.val = 0 then first else if i.val = 1 then second else third

/-- The object of the given fields. -/
def ofFields (fields : Fields Value) : Value :=
  .object fields.names fields.values.get

/-- The object that a family of values gives, each value worked out once. -/
def ofFamily (names : Names) (family : Fin names.size → Value) : Value :=
  .object names (Vector.ofFn family).get

@[simp]
theorem ofFamily_eq (names : Names) (family : Fin names.size → Value) :
    ofFamily names family = .object names family := by
  simp only [ofFamily, get_ofFn]

/-- The object of the listed fields; of two with one name the later holds. -/
def record (fields : List (String × Value)) : Value := ofFields (Fields.ofList fields)

/-- An integer. -/
def ofInt (z : Int) : Value := .number (.integer z)

/-- A natural number. -/
def ofNat (n : Nat) : Value := ofInt n

/-- The value given, or `null`. -/
def ofOption : Option Value → Value
  | some value => value
  | none => .null

/-- The items of an array. -/
def items? : Value → Option (List Value)
  | .array _ item => some (List.ofFn item)
  | _ => none

/-- The fields of an object. -/
def fields? : Value → Option (Fields Value)
  | .object names field => some (Fields.ofFamily names field)
  | _ => none

/-- The value of a field, if this is an object that has it. -/
def field? (name : String) : Value → Option Value
  | .object names field => (names.index? name).map field
  | _ => none

/-- The name and the value of the field of an object that has just one. -/
def onlyField? : Value → Option (String × Value)
  | .object ⟨[name], _⟩ field => some (name, field ⟨0, Nat.one_pos⟩)
  | _ => none

/-- The parts of an array of two. -/
def pair? : Value → Option (Value × Value)
  | .array 2 item => some (item 0, item 1)
  | _ => none

/-- The parts of an array of three. -/
def triple? : Value → Option (Value × Value × Value)
  | .array 3 item => some (item 0, item 1, item 2)
  | _ => none

@[simp]
theorem pair?_pair (first second : Value) : (pair first second).pair? = some (first, second) := rfl

@[simp]
theorem triple?_triple (first second third : Value) :
    (triple first second third).triple? = some (first, second, third) := rfl

/-- Whether this is `null`. -/
def isNull : Value → Bool
  | .null => true
  | _ => false

def bool? : Value → Option Bool
  | .bool b => some b
  | _ => none

def text? : Value → Option String
  | .text s => some s
  | _ => none

/-- The integer that this value is. -/
def int? : Value → Option Int
  | .number (.integer z) => some z
  | _ => none

/-- The natural number that this value is. -/
def nat? (value : Value) : Option Nat :=
  value.int?.bind fun z => if 0 ≤ z then some z.toNat else none

/-- The double that a number is; an integer is rounded. -/
def double? : Value → Option Double
  | .number (.double x) => some x
  | .number (.integer z) => (Double.ofInt z).finite?
  | _ => none

end Value

end AgentAlgebra
