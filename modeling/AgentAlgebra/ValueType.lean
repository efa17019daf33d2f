import AgentAlgebra.Value.Printer
import AgentAlgebra.Value.Record
/-!
# Types of values

A type says which values an agent takes or gives. `admits` is membership; `accepts` says whether what
one type describes may be fed to another; `unify` is the common type of two. Typing is gradual: `any`
goes with everything, on either side.
-/

namespace AgentAlgebra

/-- The types of values without parts. -/
inductive Scalar where
  | null
  | bool
  | number
  | text
deriving DecidableEq

/-- A type of values. A pair is an array of two, a record an object with at least the named fields. -/
inductive ValueType where
  | any
  | scalar (kind : Scalar)
  | list (item : ValueType)
  | pair (left right : ValueType)
  | record (names : Names) (field : Fin names.size → ValueType)

namespace Scalar

/-- Whether a value is of this kind. -/
def admits : Scalar → Value → Bool
  | .null, .null => true
  | .bool, .bool _ => true
  | .number, .number _ => true
  | .text, .text _ => true
  | _, _ => false

def name : Scalar → String
  | .null => "null"
  | .bool => "bool"
  | .number => "number"
  | .text => "text"

end Scalar

namespace ValueType

instance : Inhabited ValueType := ⟨.any⟩

def null : ValueType := .scalar .null
def bool : ValueType := .scalar .bool
def number : ValueType := .scalar .number
def text : ValueType := .scalar .text

/-- The record with these fields. -/
def ofFields (fields : Fields ValueType) : ValueType :=
  .record fields.names fields.values.get

/-- The record with the listed fields. -/
def recordOf (fields : List (String × ValueType)) : ValueType := ofFields (Fields.ofList fields)

/-- The record that a family of types gives, each type worked out once. -/
def ofFamily (names : Names) (family : Fin names.size → ValueType) : ValueType :=
  .record names (Vector.ofFn family).get

@[simp]
theorem ofFamily_eq (names : Names) (family : Fin names.size → ValueType) :
    ofFamily names family = .record names family := by
  simp only [ofFamily, get_ofFn]

/-- Whether a value is of this type. -/
def admits : ValueType → Value → Bool
  | .any, _ => true
  | .scalar kind, value => kind.admits value
  | .list type, .array size item => (List.finRange size).all fun i => admits type (item i)
  | .pair left right, .array 2 item => admits left (item 0) && admits right (item 1)
  | .record names field, .object held value =>
    (List.finRange names.size).all fun i =>
      match held.index? (names.name i) with
      | some j => admits (field i) (value j)
      | none => false
  | _, _ => false

/-- Whether values of the type `produced` may be fed where this type is expected. -/
def accepts : ValueType → (produced : ValueType) → Bool
  | .any, _ => true
  | _, .any => true
  | .scalar expected, .scalar produced => expected = produced
  | .list item, .list item' => accepts item item'
  | .list item, .pair left right => accepts item left && accepts item right
  | .pair left right, .pair left' right' => accepts left left' && accepts right right'
  | .record names field, .record names' field' =>
    (List.finRange names.size).all fun i =>
      match names'.index? (names.name i) with
      | some j => accepts (field i) (field' j)
      | none => false
  | _, _ => false

/-- The type of the values that two types both describe, if they go together. -/
def unify : ValueType → ValueType → Option ValueType
  | .any, other => some other
  | other, .any => some other
  | .scalar kind, .scalar kind' => if kind = kind' then some (.scalar kind) else none
  | .list item, .list item' => (unify item item').map .list
  | .pair left right, .pair left' right' => do
    let left ← unify left left'
    let right ← unify right right'
    some (.pair left right)
  | .record names field, .record names' field' =>
    let all := names.union names'
    let merged (i : Fin all.size) : Option ValueType :=
      match names.index? (all.name i), names'.index? (all.name i) with
      | some j, some k => unify (field j) (field' k)
      | some j, none => some (field j)
      | none, some k => some (field' k)
      | none, none => none
    (collect? merged).map (.record all)
  | _, _ => none

/-- The type of an array whose items have the given types: a pair if there are two, and otherwise a
list of what all of them go together as, or of anything. -/
def ofItems : List ValueType → ValueType
  | [left, right] => .pair left right
  | types => .list ((types.foldlM unify .any).getD .any)

/-- The most specific type that can be named for a value. -/
def of : Value → ValueType
  | .null => null
  | .bool _ => bool
  | .number _ => number
  | .text _ => text
  | .array _ item => ofItems (List.ofFn fun i => of (item i))
  | .object names field => ofFamily names fun i => of (field i)

/-- The characters of the type's text. -/
def chars : ValueType → List Char
  | .any => ['a', 'n', 'y']
  | .scalar kind => kind.name.toList
  | .list item => '[' :: (chars item ++ [']'])
  | .pair left right => '(' :: (chars left ++ [',', ' '] ++ chars right ++ [')'])
  | .record names field =>
    '\x7b' :: (separated [',', ' ']
      (List.ofFn fun i => (names.name i).toList ++ [':', ' '] ++ chars (field i)) ++ ['\x7d'])

instance : ToString ValueType := ⟨fun type => String.ofList type.chars⟩

/-- The JSON form: the kind under `kind`, and what the kind is made of under `of`. -/
def toValue : ValueType → Value
  | .any => .record [("kind", .text "any")]
  | .scalar kind => .record [("kind", .text kind.name)]
  | .list item => .record [("kind", .text "list"), ("of", toValue item)]
  | .pair left right =>
    .record [("kind", .text "pair"), ("of", .pair (toValue left) (toValue right))]
  | .record names field =>
    .record [("kind", .text "record"), ("of", .ofFamily names fun i => toValue (field i))]

/-- What one value can be read as where a type is read: the kind or the content of one, or a type. -/
structure Readings where
  isNull : Bool
  text : Option String
  symbol : Option String
  type : Option ValueType
  pair : Option ValueType
  record : Option ValueType

/-- The type of a kind with its content. A kind without parts may have `null` for content. -/
def ofKind? (kind : String) (content : Option Readings) : Option ValueType := do
  let whole (type : ValueType) : Option ValueType :=
    if content.all (·.isNull) then some type else none
  match kind with
  | "any" => whole any
  | "null" => whole null
  | "bool" => whole bool
  | "number" => whole number
  | "text" => whole text
  | "list" => (← (← content).type).list
  | "pair" => (← content).pair
  | "record" => (← content).record
  | _ => none

/-- Every reading of a value. -/
def readings : Value → Readings
  | .null => ⟨true, none, none, none, none, none⟩
  | .text s => ⟨false, some s, some s, none, none, none⟩
  | .array size item =>
    let parts := Vector.ofFn fun i => readings (item i)
    match parts.toList with
    | [first, second] =>
      { isNull := false, text := none, symbol := none, record := none
        type := do ofKind? (← first.text) (some second)
        pair := do return .pair (← first.type) (← second.type) }
    | _ => ⟨false, none, none, none, none, none⟩
  | .object names field =>
    let parts := Vector.ofFn fun i => readings (field i)
    { isNull := false, text := none, pair := none
      symbol := (Value.object names field).symbol?
      type := do
        ofKind? (← parts[← names.index? "kind"].symbol) ((names.index? "of").map (parts[·]))
      record := (collect? fun i => parts[i].type).map (.record names) }
  | _ => ⟨false, none, none, none, none, none⟩

/-- The type that a value is the JSON form of. The kind and its content may also come as an array of
the two, in which the kind is a plain text. -/
def ofValue? (value : Value) : Option ValueType := (readings value).type

end ValueType

/-- What an agent takes and what it gives. -/
structure Signature where
  input : ValueType
  output : ValueType

namespace Signature

/-- Any value to any value. -/
def untyped : Signature := ⟨.any, .any⟩

instance : Inhabited Signature := ⟨untyped⟩

instance : ToString Signature := ⟨fun s => toString s.input ++ " -> " ++ toString s.output⟩

def toValue (s : Signature) : Value :=
  .record [("input", s.input.toValue), ("output", s.output.toValue)]

def ofValue? (value : Value) : Option Signature := do
  match ← value.members? ["input", "output"] with
  | [input, output] => return ⟨← ValueType.ofValue? (← input), ← ValueType.ofValue? (← output)⟩
  | _ => none

end Signature

end AgentAlgebra
