import AgentAlgebra.Text.Words
import AgentAlgebra.Value.Printer
/-!
# Entailment

Whether one value says nothing that another does not. Text is held against text by containment without
regard to case, an array item by item, an object field by field, and `null` says nothing.
-/

namespace AgentAlgebra

namespace Value

/-- The texts of the leaves of a value, in order. -/
def leaves : Value → List String
  | .null => []
  | .text s => [s]
  | .array _ item => (List.ofFn fun i => leaves (item i)).flatten
  | .object _ field => (List.ofFn fun i => leaves (field i)).flatten
  | leaf => [leaf.canonicalText]

/-- The text of a value: its leaves with blanks between them. -/
def flatText (value : Value) : String := joinTexts " " value.leaves

/-- Whether the claim, given second, says nothing that the truth does not. -/
def entails : (truth claimed : Value) → Bool
  | _, .null => true
  | truth, .text claim =>
    occursIn (lowercase claim).toList (lowercase truth.flatText).toList
  | .array size item, .array count claim =>
    (List.finRange count).all fun i =>
      (List.finRange size).any fun j => entails (item j) (claim i)
  | truth, .array count claim => (List.finRange count).all fun i => entails truth (claim i)
  | .object names field, .object claimed claim =>
    (List.finRange claimed.size).all fun i =>
      match names.index? (claimed.name i) with
      | some j => entails (field j) (claim i)
      | none => false
  | truth, .object claimed claim => (List.finRange claimed.size).all fun i => entails truth (claim i)
  | truth, claimed => truth == claimed

end Value

end AgentAlgebra
