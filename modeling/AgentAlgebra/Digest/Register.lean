import AgentAlgebra.Digest.Base32Hex
/-!
# Base32hex digits by a register

The digits of bytes as a word of 32 bits gives them: bytes are shifted into it from the right,
digits are taken off at the left while five bits are there, and the bits that are taken off are
masked out.
-/

namespace AgentAlgebra.Base32Hex

/-- The word, and how many of its low bits are not taken off yet. -/
structure Register where
  buffer : UInt32
  bits : Nat

namespace Register

def empty : Register := ⟨0, 0⟩

/-- Shift a byte in. -/
def load (register : Register) (byte : UInt8) : Register :=
  ⟨register.buffer <<< 8 ||| byte.toUInt32, register.bits + 8⟩

/-- The digits that are full, and how many bits are left behind them. -/
def drain (buffer : UInt32) : (bits : Nat) → List Char × Nat
  | bits + 5 =>
    let later := drain buffer bits
    (digit ((buffer >>> bits.toUInt32) &&& 31).toNat :: later.1, later.2)
  | bits => ([], bits)

/-- Take in a byte: the digits that are now full, and the register with the bits that are left. -/
def feed (register : Register) (byte : UInt8) : List Char × Register :=
  let loaded := register.load byte
  let drained := drain loaded.buffer loaded.bits
  (drained.1, ⟨loaded.buffer &&& ((1 <<< drained.2.toUInt32) - 1), drained.2⟩)

/-- What is left at the end, filled up to a digit. -/
def last (register : Register) : List Char :=
  if 0 < register.bits then
    [digit ((register.buffer <<< (5 - register.bits).toUInt32) &&& 31).toNat]
  else []

/-- The digits of bytes that are taken in one after another. -/
def digits : Register → List UInt8 → List Char
  | register, [] => register.last
  | register, byte :: bytes => (register.feed byte).1 ++ digits (register.feed byte).2 bytes

/-- The register behind some bytes. -/
def behind (register : Register) (bytes : List UInt8) : Register :=
  bytes.foldl (fun register byte => (register.feed byte).2) register

end Register

end AgentAlgebra.Base32Hex
