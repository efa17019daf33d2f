/-!
# Odometers

The tuples of numbers below a base, each counted up from the one before it: the last digit that may
grow does so, and those behind it go back to zero. There is no tuple after the one whose first digit
runs over.
-/

namespace AgentAlgebra

/-- A count through tuples of numbers below `base`: the tuple that comes next, if one is left. -/
structure Odometer where
  base : Nat
  next? : Option (List Nat)

namespace Odometer

/-- In front of the tuple of zeros. With no number below the base there is but the empty tuple. -/
def start (base arity : Nat) : Odometer :=
  ⟨base, if 0 < base ∨ arity = 0 then some (List.replicate arity 0) else none⟩

/-- Count up in the digits in front of a place, from the last of them on. A digit that runs over
goes back to zero and carries into the one in front of it. -/
def carry (base : Nat) : (place : Nat) → (digits : List Nat) → Option (List Nat)
  | 0, _ => none
  | place + 1, digits =>
    let raised := digits.modify place (· + 1)
    if raised.getD place 0 < base then some raised else carry base place (raised.set place 0)

/-- The tuple that comes next, and the odometer behind it. -/
def advance (odometer : Odometer) : Option (List Nat × Odometer) :=
  odometer.next?.map fun digits =>
    (digits, { odometer with next? := carry odometer.base digits.length digits })

end Odometer

end AgentAlgebra
