/-!
# Binary floating-point numbers of double precision

A finite double is a sign and a whole number of units, the unit being `2 ^ (-1074)`, the least
positive double. Its significand has 53 bits unless the unit itself is the last place, so two
doubles with the same sign and size are equal. `Extended` adds the infinities and the value that is
not a number. Every operation is exact arithmetic followed by one rounding, `ofRatio`.
-/

namespace AgentAlgebra

/-- The natural number nearest to `num / den`; of two equally near the even one. -/
def divNearest (num den : Nat) : Nat :=
  let quotient := num / den
  let twice := 2 * (num % den)
  if twice < den then quotient
  else if twice = den ∧ quotient % 2 = 0 then quotient
  else quotient + 1

/-- Ten to a power. -/
def powerOfTen (n : Nat) : Nat := Nat.pow 10 n

/-- A finite double: `significand * 2 ^ scale` units of `2 ^ (-1074)`, with a sign. The significand
has at most 53 bits. -/
structure Double where
  negative : Bool
  significand : Nat
  scale : Nat
  significand_lt : significand < 0x20000000000000
  scale_le : scale ≤ 2045
  normal : 0x10000000000000 ≤ significand ∨ scale = 0
deriving DecidableEq

/-- A double, an infinity, or no number at all. -/
inductive Extended where
  | nan
  | infinite (negative : Bool)
  | finite (value : Double)
deriving DecidableEq

namespace Double

/-- The unit is one over this. -/
def unitsPerOne : Nat := 1 <<< 1074

/-- Zero, of either sign. -/
def zero (negative : Bool) : Double := ⟨negative, 0, 0, by decide, by decide, .inr rfl⟩

instance : Inhabited Double := ⟨zero false⟩

/-- The size in units, without the sign. -/
def magnitude (x : Double) : Nat := x.significand <<< x.scale

/-- The value in units. -/
def units (x : Double) : Int := if x.negative then -(x.magnitude : Int) else x.magnitude

/-- The same size with the other sign. -/
def neg (x : Double) : Double := { x with negative := !x.negative }

/-- Doubles are compared by value: the two zeros are equal. -/
def beq (x y : Double) : Bool := x.units == y.units

instance : BEq Double := ⟨beq⟩

/-- `x` is at most `y`. -/
def ble (x y : Double) : Bool := decide (x.units ≤ y.units)

/-- Assemble a double from a significand that may have been rounded up to 54 bits; too large a scale
overflows to infinity. -/
def ofParts (negative : Bool) (significand scale : Nat) : Extended :=
  if normal : significand < 0x20000000000000 ∧ (0x10000000000000 ≤ significand ∨ scale = 0) then
    if bounded : scale ≤ 2045 then
      .finite ⟨negative, significand, scale, normal.1, bounded, normal.2⟩
    else .infinite negative
  else
    if bounded : scale + 1 ≤ 2045 then
      .finite ⟨negative, 0x10000000000000, scale + 1, by decide, bounded, .inl (Nat.le_refl _)⟩
    else .infinite negative

/-- The double nearest to `num / den`, ties going to the even significand. -/
def ofRatio (negative : Bool) (num den : Nat) : Extended :=
  let units := num * unitsPerOne
  let scale := (units / den).log2 - 52
  ofParts negative (divNearest units (den <<< scale)) scale

/-- The double nearest to an integer. -/
def ofInt (z : Int) : Extended := ofRatio (decide (z < 0)) z.natAbs 1

/-- The rounded product. -/
def mul (x y : Double) : Extended :=
  ofRatio (x.negative != y.negative) (x.magnitude * y.magnitude) (unitsPerOne * unitsPerOne)

/-- The rounded quotient by a number other than zero. -/
def div (x y : Double) : Extended :=
  ofRatio (x.negative != y.negative) x.magnitude y.magnitude

/-- The rounded difference `1 - x`. -/
def oneMinus (x : Double) : Extended :=
  let difference : Int := unitsPerOne - x.units
  ofRatio (decide (difference < 0)) difference.natAbs unitsPerOne

/-- One. -/
def one : Double := ⟨false, 0x10000000000000, 1022, by decide, by decide, .inl (Nat.le_refl _)⟩

/-- One half. -/
def half : Double := ⟨false, 0x10000000000000, 1021, by decide, by decide, .inl (Nat.le_refl _)⟩

end Double

namespace Extended

/-- The double that this is, if it is one. -/
def finite? : Extended → Option Double
  | .finite x => some x
  | _ => none

/-- Whether the first is at most the second. What is not a number is neither below nor above anything,
itself included. -/
def ble : Extended → Extended → Bool
  | .nan, _ => false
  | _, .nan => false
  | .infinite true, _ => true
  | _, .infinite false => true
  | .infinite false, _ => false
  | _, .infinite true => false
  | .finite x, .finite y => x.ble y

/-- The number brought between zero and one; what is not a number counts as one. -/
def toUnitInterval : Extended → Double
  | .nan => .one
  | .infinite negative => if negative then .zero false else .one
  | .finite x =>
    if x.units < 0 then .zero false
    else if Double.one.units < x.units then .one
    else x

end Extended

end AgentAlgebra
