import AgentAlgebra.Value.Basic
/-!
# Records and symbols in JSON

How the library's own structures are read back from values: a record is an object, whose further
fields are ignored, or the array of its fields in order; a symbol is its name.
-/

namespace AgentAlgebra

/-- The results of a family, if all of them exist. -/
def collect? {α : Type} {n : Nat} (family : Fin n → Option α) : Option (Fin n → α) :=
  let results := Vector.ofFn family
  if all : ∀ i : Fin n, results[i].isSome then some fun i => results[i].get (all i) else none

namespace Value

/-- The fields of a record of the given names, in that order. An object gives each by its name. An
array gives them by place; it may stop early, but has no items beyond the names. -/
def members? (names : List String) : Value → Option (List (Option Value))
  | .object held field => some (names.map (Value.field? · (.object held field)))
  | .array size item =>
    if size ≤ names.length then
      some ((List.ofFn item).map some ++ List.replicate (names.length - size) none)
    else none
  | _ => none

/-- A symbol: its name as text, or an object with the name as only field and `null` in it. -/
def symbol? : Value → Option String
  | .text name => some name
  | value =>
    match value.onlyField? with
    | some (name, .null) => some name
    | _ => none

/-- A symbol within a form whose result is named beside its fields: there an empty object may stand
for the `null`. -/
def nestedSymbol? (value : Value) : Option String :=
  match value.onlyField? with
  | some (name, .object names _) => if names.size = 0 then some name else none
  | _ => value.symbol?

/-- An array of which every item can be read. -/
def listOf? {α : Type} (read : Value → Option α) (value : Value) : Option (List α) :=
  value.items?.bind (·.mapM read)

/-- A field that may be absent or `null`. -/
def optional? {α : Type} (read : Value → Option α) : Option Value → Option (Option α)
  | none | some .null => some none
  | some value => (read value).map some

end Value

end AgentAlgebra
