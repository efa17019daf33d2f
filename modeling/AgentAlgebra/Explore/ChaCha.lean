/-!
# A stream of random numbers

Words of the ChaCha stream cipher with twelve rounds, drawn one after the other. A seed of 64 bits
is spread over the key by a linear congruential generator. `below` draws a number below a bound,
every one equally likely, by rejecting draws from an uneven rest.
-/

namespace AgentAlgebra

/-- A place in the stream of a key. -/
structure ChaCha where
  key : List UInt32
  /-- How many words were drawn. -/
  drawn : Nat

namespace ChaCha

/-- One step of the generator that spreads a seed, and the word it gives. -/
def spread (state : UInt64) : UInt32 × UInt64 :=
  let next := state * 6364136223846793005 + 11634580027462260723
  let word := (((next >>> 18) ^^^ next) >>> 27).toUInt32
  let turn := (next >>> 59).toUInt32
  ((word >>> turn) ||| (word <<< ((32 - turn) % 32)), next)

/-- The key of a seed. -/
def keyOfSeed (seed : UInt64) : (count : Nat) → List UInt32
  | 0 => []
  | count + 1 =>
    let (word, next) := spread seed
    word :: keyOfSeed next count

/-- The start of the stream of a seed. -/
def ofSeed (seed : UInt64) : ChaCha := ⟨keyOfSeed seed 8, 0⟩

/-- Rotation to the left. -/
def rotate (x : UInt32) (n : UInt32) : UInt32 := (x <<< n) ||| (x >>> (32 - n))

/-- Mix the words of a state at four places. -/
def quarter (s : Array UInt32) (i j k l : Nat) : Array UInt32 :=
  let a := s.getD i 0 + s.getD j 0
  let d := rotate (s.getD l 0 ^^^ a) 16
  let c := s.getD k 0 + d
  let b := rotate (s.getD j 0 ^^^ c) 12
  let a := a + b
  let d := rotate (d ^^^ a) 8
  let c := c + d
  let b := rotate (b ^^^ c) 7
  (((s.setIfInBounds i a).setIfInBounds j b).setIfInBounds k c).setIfInBounds l d

/-- A round on columns and a round on diagonals. -/
def doubleRound (s : Array UInt32) : Array UInt32 :=
  let s := quarter (quarter (quarter (quarter s 0 4 8 12) 1 5 9 13) 2 6 10 14) 3 7 11 15
  quarter (quarter (quarter (quarter s 0 5 10 15) 1 6 11 12) 2 7 8 13) 3 4 9 14

/-- The first four words of every block. -/
def constants : List UInt32 := [0x61707865, 0x3320646e, 0x79622d32, 0x6b206574]

/-- The sixteen words of the block with a number. -/
def block (key : List UInt32) (number : Nat) : Array UInt32 :=
  let start : Array UInt32 :=
    (constants ++ key ++ [UInt32.ofNat number, UInt32.ofNat (number >>> 32), 0, 0]).toArray
  let mixed := (List.range 6).foldl (fun s _ => doubleRound s) start
  Array.zipWith (· + ·) mixed start

/-- The word of the stream at a place. -/
def word (source : ChaCha) (place : Nat) : UInt32 :=
  (block source.key (place / 16)).getD (place % 16) 0

/-- The next 64 bits, of two words the lower first. -/
def next (source : ChaCha) : Nat × ChaCha :=
  ((source.word source.drawn).toNat + (source.word (source.drawn + 1)).toNat * 0x100000000,
    { source with drawn := source.drawn + 2 })

theorem next_lt (source : ChaCha) : source.next.1 < 0x10000000000000000 := by
  have low := (source.word source.drawn).toNat_lt
  have high := (source.word (source.drawn + 1)).toNat_lt
  simp only [next]
  omega

/-- A number below a bound of 64 bits. A draw is rejected, at most `fuel` times, where the lower half
of its product with the bound lies in the uneven rest. -/
def belowWithin (bound : Nat) (positive : 0 < bound) : (fuel : Nat) → ChaCha → Fin bound × ChaCha
  | fuel, source =>
    let product := source.next.1 * bound
    let result : Fin bound :=
      ⟨product / 0x10000000000000000,
        Nat.div_lt_of_lt_mul (Nat.mul_lt_mul_of_pos_right source.next_lt positive)⟩
    match fuel with
    | 0 => (result, source.next.2)
    | fuel + 1 =>
      if product % 0x10000000000000000 < bound <<< (63 - bound.log2) then (result, source.next.2)
      else belowWithin bound positive fuel source.next.2

/-- A number below a bound. Each draw is rejected with a chance below one half, so the limit on
rejections is not met. -/
def below (bound : Nat) (positive : 0 < bound) (source : ChaCha) : Fin bound × ChaCha :=
  source.belowWithin bound positive 256

end ChaCha

end AgentAlgebra
