import AgentAlgebra.Settings.Toml
import AgentAlgebra.Value.Basic
/-!
# Settings before they are read

What a document of settings holds, whatever its syntax. Records of settings may leave out fields,
which then have their defaults, but have no fields of other names. A record may also be given as the
list of its fields in order.
-/

namespace AgentAlgebra

/-- A piece of a document of settings. -/
inductive SettingTree where
  | flag (b : Bool)
  | whole (z : Int)
  | real (x : Extended)
  /-- Items in order. In a closed list every item must be one that is asked for. -/
  | list (closed : Bool) (items : List SettingTree)
  | table (entries : List (String × SettingTree))
  /-- What no setting is made of. -/
  | other

namespace SettingTree

def flag? : SettingTree → Option Bool
  | .flag b => some b
  | _ => none

/-- A count, which is not negative. -/
def count? : SettingTree → Option Nat
  | .whole z => if 0 ≤ z then some z.toNat else none
  | _ => none

/-- A measure; an integer is rounded to a double. -/
def real? : SettingTree → Option Extended
  | .real x => some x
  | .whole z => some (Double.ofInt z)
  | _ => none

/-- The fields of a record of the given names, in that order. -/
def fields? (names : List String) : SettingTree → Option (List (Option SettingTree))
  | .table entries =>
    if entries.all fun entry => names.contains entry.1 then
      some (names.map fun name => entries.lookup name)
    else none
  | .list closed items =>
    if closed && names.length < items.length then none
    else some ((items.map some ++ List.replicate names.length none).take names.length)
  | _ => none

/-- A field, or its default where it is left out. -/
def fieldOr {α : Type} (standard : α) (read : SettingTree → Option α) :
    Option SettingTree → Option α
  | none => some standard
  | some tree => read tree

mutual

/-- What stands under a key of a TOML document. -/
def ofToml : Toml → SettingTree
  | .string | .moment => .other
  | .bool b => .flag b
  | .integer z => .whole z
  | .float x => .real x
  | .array items => .list false (ofItems items)
  | .table _ entries => .table (ofEntries entries)
  | .tables opened => .list false (ofOpened opened).reverse

/-- The items of an array. -/
def ofItems : List Toml → List SettingTree
  | [] => []
  | item :: rest => ofToml item :: ofItems rest

/-- The entries of a table. -/
def ofEntries : List (String × Toml) → List (String × SettingTree)
  | [] => []
  | (key, item) :: rest => (key, ofToml item) :: ofEntries rest

/-- The tables of an array of tables. -/
def ofOpened : List (List (String × Toml)) → List SettingTree
  | [] => []
  | entries :: rest => .table (ofEntries entries) :: ofOpened rest

end

/-- The tree that a JSON value is. -/
def ofValue : Value → SettingTree
  | .bool b => .flag b
  | .number (.integer z) => .whole z
  | .number (.double x) => .real (.finite x)
  | .array _ item => .list true (List.ofFn fun i => ofValue (item i))
  | .object names field => .table (List.ofFn fun i => (names.name i, ofValue (field i)))
  | .null | .text _ => .other

end SettingTree

end AgentAlgebra
