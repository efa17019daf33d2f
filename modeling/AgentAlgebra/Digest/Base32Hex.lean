/-!
# The base32hex text of bytes

Bytes read as bits, most significant first, five bits to a digit from `0` to `v`, with zero bits added
to fill the last digit. This is the encoding of RFC 4648 in lower case and without padding.
-/

namespace AgentAlgebra.Base32Hex

/-- The digit for a number below 32. -/
def digit (n : Nat) : Char :=
  if n < 10 then Char.ofNat ('0'.toNat + n) else Char.ofNat ('a'.toNat + (n - 10))

/-- Bits that do not yet fill a digit: `count` of them, as a number. -/
structure Pending where
  value : Nat
  count : Nat

/-- Nothing pending. -/
def Pending.none : Pending := ⟨0, 0⟩

/-- Add a byte, and take off the digits that are now full. -/
def Pending.push (pending : Pending) (byte : UInt8) : List Char × Pending :=
  let value := pending.value * 256 + byte.toNat
  let count := pending.count + 8
  if 10 ≤ count then
    ([digit ((value >>> (count - 5)) % 32), digit ((value >>> (count - 10)) % 32)],
      ⟨value % (1 <<< (count - 10)), count - 10⟩)
  else ([digit ((value >>> (count - 5)) % 32)], ⟨value % (1 <<< (count - 5)), count - 5⟩)

/-- The digits of bytes after pending bits. -/
def encodeFrom : Pending → List UInt8 → List Char
  | pending, [] =>
    if pending.count = 0 then [] else [digit ((pending.value <<< (5 - pending.count)) % 32)]
  | pending, byte :: bytes =>
    let (digits, pending) := pending.push byte
    digits ++ encodeFrom pending bytes

/-- The text of bytes. -/
def encode (bytes : List UInt8) : String := String.ofList (encodeFrom .none bytes)

end AgentAlgebra.Base32Hex
