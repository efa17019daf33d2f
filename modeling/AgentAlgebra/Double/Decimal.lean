import AgentAlgebra.Double.Basic
/-!
# Decimal texts of doubles

`shortest` finds the decimal with the fewest digits that rounds back to a given double, and of those
the one nearest to it. `DoubleFormat` says which of two it is that are equally near, and how its
digits are laid out. `fixed` writes a double with a given number of places after the point. All of it
is exact arithmetic on natural numbers.
-/

namespace AgentAlgebra

/-- The number `coefficient * 10 ^ exponent`. -/
structure Decimal where
  coefficient : Nat
  exponent : Int
deriving DecidableEq

/-- The decimal digits of a number, most significant first; zero has one digit. -/
def digitsOf (n : Nat) : List Char := Nat.toDigits 10 n

namespace Decimal

/-- The power of ten that the first digit stands for. -/
def leadingExponent (d : Decimal) : Int := (digitsOf d.coefficient).length - 1 + d.exponent

/-- Drop zeros at the end of the coefficient, at most `fuel` of them. -/
def trimmed : Nat → Decimal → Decimal
  | 0, d => d
  | fuel + 1, d =>
    if d.coefficient ≠ 0 ∧ d.coefficient % 10 = 0 then
      trimmed fuel ⟨d.coefficient / 10, d.exponent + 1⟩
    else d

end Decimal

namespace Double

/-- The quarter units between which every number rounds to a given double. The bound below is nearer
where the significand is the least of its scale. -/
structure RoundingInterval where
  low : Nat
  high : Nat
  closed : Bool

/-- The numbers that round to `x`, as an interval in quarters of a unit. -/
def roundingInterval (x : Double) : RoundingInterval where
  low :=
    if x.significand = 0x10000000000000 ∧ 0 < x.scale then 4 * x.magnitude - 1 <<< x.scale
    else 4 * x.magnitude - 2 <<< x.scale
  high := 4 * x.magnitude + 2 <<< x.scale
  closed := x.significand % 2 = 0

/-- Whether a number of quarter units, given as a ratio, rounds to the double of this interval. -/
def RoundingInterval.contains (interval : RoundingInterval) (num den : Nat) : Bool :=
  if interval.closed then interval.low * den ≤ num && num ≤ interval.high * den
  else interval.low * den < num && num < interval.high * den

/-- The greatest power of ten that is at most `x`, for `x` other than zero. -/
def decimalExponent (x : Double) : Int :=
  (digitsOf (x.magnitude * powerOfTen 324 / unitsPerOne)).length - 325

/-- Which neighbour is taken by a number halfway between the two. -/
inductive Halving where
  | even
  /-- The one that is greater in size. -/
  | up
deriving DecidableEq

/-- On the grid of multiples of `10 ^ exponent`, the neighbour of `x` that rounds back to `x` and is
nearer to it, if one of its two neighbours does. -/
def onGrid? (halving : Halving) (x : Double) (exponent : Int) : Option Decimal :=
  let up := powerOfTen exponent.toNat
  let down := powerOfTen (-exponent).toNat
  let value := 4 * x.magnitude * down
  let step := 4 * unitsPerOne * up
  let below := value / step
  let interval := x.roundingInterval
  let belowFits := interval.contains (below * step) down
  let aboveFits := interval.contains ((below + 1) * step) down
  let rest := value % step
  if belowFits && aboveFits then
    if 2 * rest < step || (2 * rest = step && halving = .even && below % 2 = 0) then
      some ⟨below, exponent⟩
    else some ⟨below + 1, exponent⟩
  else if belowFits then some ⟨below, exponent⟩
  else if aboveFits then some ⟨below + 1, exponent⟩
  else none

/-- The size of `x` itself as a decimal: a unit is `5 ^ 1074` over `10 ^ 1074`. -/
def exact (x : Double) : Decimal := ⟨x.magnitude * Nat.pow 5 1074, -1074⟩

/-- The decimal with the fewest digits that rounds to the size of `x`, nearest to it among those.
Seventeen digits always suffice. -/
def shortest (halving : Halving) (x : Double) : Decimal :=
  if x.significand = 0 then ⟨0, 0⟩
  else
    let leading := x.decimalExponent
    match (List.range 17).findSome? fun (n : Nat) => x.onGrid? halving (leading - n) with
    | some decimal => decimal.trimmed 20
    | none => x.exact

end Double

/-- How a double is laid out. -/
structure DoubleFormat where
  /-- Whether a number whose first digit stands for this power of ten is written without exponent. -/
  positional : Int → Bool
  /-- What follows the digits of a number without fraction. -/
  wholeEnd : String
  /-- Which of two shortest decimals is taken that are equally near. -/
  halving : Double.Halving

namespace DoubleFormat

/-- Digits with a point in the place that the exponent asks for. -/
def placePoint (wholeEnd : String) (d : Decimal) : String :=
  let digits := digitsOf d.coefficient
  if 0 ≤ d.exponent then
    String.ofList (digits ++ List.replicate d.exponent.toNat '0') ++ wholeEnd
  else
    let places := (-d.exponent).toNat
    if places < digits.length then
      let whole := digits.length - places
      String.ofList (digits.take whole ++ '.' :: digits.drop whole)
    else
      String.ofList ('0' :: '.' :: List.replicate (places - digits.length) '0' ++ digits)

/-- One digit before the point and the power of ten with its sign behind it. -/
def withExponent (d : Decimal) : String :=
  let mantissa := match digitsOf d.coefficient with
    | first :: second :: rest => String.ofList (first :: '.' :: second :: rest)
    | digits => String.ofList digits
  let power := d.leadingExponent
  mantissa ++ (if power < 0 then "e-" else "e+") ++ toString power.natAbs

/-- The text of a double: its shortest decimal, laid out by the format. -/
def write (format : DoubleFormat) (x : Double) : String :=
  let decimal := x.shortest format.halving
  let size :=
    if format.positional decimal.leadingExponent then placePoint format.wholeEnd decimal
    else withExponent decimal
  if x.negative then "-" ++ size else size

/-- In JSON a double always shows a fraction or an exponent, and has an exponent below `0.00001` and
from `10 ^ 16` on. -/
def json : DoubleFormat := ⟨fun power => decide (-5 ≤ power ∧ power ≤ 15), ".0", .even⟩

/-- In a sentence a double has no exponent, and no fraction where it is whole. -/
def sentence : DoubleFormat := ⟨fun _ => true, "", .up⟩

end DoubleFormat

/-- The text of `x` with `places` digits after the point; a half goes to the even neighbour. -/
def Double.fixed (places : Nat) (x : Double) : String :=
  let scaled := divNearest (x.magnitude * powerOfTen places) unitsPerOne
  let digits := digitsOf scaled
  let padded := List.replicate (places + 1 - digits.length) '0' ++ digits
  let whole := padded.length - places
  let text := String.ofList (padded.take whole ++ '.' :: padded.drop whole)
  if x.negative then "-" ++ text else text

/-- The text of an extended number in a sentence. -/
def Extended.sentence : Extended → String
  | .nan => "NaN"
  | .infinite negative => if negative then "-inf" else "inf"
  | .finite x => DoubleFormat.sentence.write x

end AgentAlgebra
