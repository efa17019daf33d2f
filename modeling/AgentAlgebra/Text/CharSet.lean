/-!
# Sets of characters

A set of characters given by the first and last code points of its runs.
-/

namespace AgentAlgebra

/-- A set of characters, as the ranges of code points that make it up. -/
structure CharSet where
  ranges : List (Nat × Nat)

namespace CharSet

/-- Whether a character is in one of the ranges. -/
def contains (set : CharSet) (c : Char) : Bool :=
  set.ranges.any fun (first, last) => first ≤ c.toNat && c.toNat ≤ last

end CharSet

end AgentAlgebra
