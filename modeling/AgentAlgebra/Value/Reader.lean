import AgentAlgebra.Value.Basic
/-!
# Reading values from JSON text

`Value.ofText?` reads one JSON value and refuses everything else. An integer literal that fits 64
bits, signed if it is negative, is an integer, and any other number is a double. The digits of a
double are kept as long as they fit 64 bits, and are then scaled by a power of ten in double
arithmetic. Of two fields of one name the later holds.
-/

namespace AgentAlgebra

namespace Reader

/-- Drop blanks. -/
def skipBlanks (cs : List Char) : List Char :=
  cs.dropWhile fun c => c = ' ' || c = '\t' || c = '\n' || c = '\r'

/-- What follows `word`, if the text begins with it. -/
def word? : List Char → List Char → Option (List Char)
  | [], rest => some rest
  | c :: word, d :: rest => if c = d then word? word rest else none
  | _ :: _, [] => none

/-- The number that a digit of a base up to sixteen stands for. -/
def digit? (base : Nat) (c : Char) : Option Nat :=
  let value :=
    if '0' ≤ c ∧ c ≤ '9' then c.toNat - '0'.toNat
    else if 'a' ≤ c ∧ c ≤ 'f' then c.toNat - 'a'.toNat + 10
    else if 'A' ≤ c ∧ c ≤ 'F' then c.toNat - 'A'.toNat + 10
    else base
  if value < base then some value else none

/-- The number that some digits of a base stand for. -/
def digits? (base : Nat) (cs : List Char) : Option Nat :=
  cs.foldlM (fun n c => (digit? base c).map (base * n + ·)) 0

/-- Whether a code unit is the first or the second half of a surrogate pair. -/
def isHighSurrogate (n : Nat) : Bool := 0xD800 ≤ n && n ≤ 0xDBFF

@[inherit_doc isHighSurrogate]
def isLowSurrogate (n : Nat) : Bool := 0xDC00 ≤ n && n ≤ 0xDFFF

/-- The character that a single letter after a backslash stands for. -/
def shortEscape? : Char → Option Char
  | '"' => some '"'
  | '\\' => some '\\'
  | '/' => some '/'
  | 'b' => some '\x08'
  | 'f' => some '\x0c'
  | 'n' => some '\n'
  | 'r' => some '\r'
  | 't' => some '\t'
  | _ => none

/-- The text up to the closing quote, and what follows the quote. -/
def quoted? : List Char → Option (List Char × List Char)
  | [] => none
  | '"' :: rest => some ([], rest)
  | '\\' :: 'u' :: a :: b :: c :: d :: rest => do
    let unit ← digits? 16 [a, b, c, d]
    if isHighSurrogate unit then
      match rest with
      | '\\' :: 'u' :: e :: f :: g :: h :: rest => do
        let low ← digits? 16 [e, f, g, h]
        if isLowSurrogate low then
          let (text, after) ← quoted? rest
          some (Char.ofNat (0x10000 + (unit - 0xD800) * 0x400 + (low - 0xDC00)) :: text, after)
        else none
      | _ => none
    else if isLowSurrogate unit then none
    else
      let (text, after) ← quoted? rest
      some (Char.ofNat unit :: text, after)
  | '\\' :: c :: rest => do
    let plain ← shortEscape? c
    let (text, after) ← quoted? rest
    some (plain :: text, after)
  | c :: rest =>
    if c = '\\' || c.toNat < 0x20 then none
    else do
      let (text, after) ← quoted? rest
      some (c :: text, after)

/-- Digits read so far: the number they make while it fits 64 bits, and how many later digits were
left out. -/
structure Significand where
  value : Nat
  omitted : Nat

/-- Take one more digit, or leave it out if the number no longer fits. -/
def Significand.push (s : Significand) (digit : Nat) : Significand :=
  if s.omitted = 0 ∧ 10 * s.value + digit < 0x10000000000000000 then ⟨10 * s.value + digit, 0⟩
  else ⟨s.value, s.omitted + 1⟩

/-- The digits at the head of the text, and the rest. -/
def splitDigits (cs : List Char) : List Nat × List Char :=
  ((cs.takeWhile Char.isDigit).filterMap (digit? 10), cs.dropWhile Char.isDigit)

/-- The exponent part at the head of the text, if there is one, and the rest. A mark without digits is
refused. -/
def exponent? : List Char → Option (Option Int × List Char)
  | e :: rest =>
    if e = 'e' || e = 'E' then
      let (negative, rest) := match rest with
        | '-' :: rest => (true, rest)
        | '+' :: rest => (false, rest)
        | rest => (false, rest)
      match splitDigits rest with
      | ([], _) => none
      | (digits, rest) =>
        let size : Nat := digits.foldl (fun n d => 10 * n + d) 0
        some (some (if negative then -size else size), rest)
    else some (none, e :: rest)
  | [] => some (none, [])

/-- The double that is `significand * 10 ^ exponent`, rounded first to a double and then by each
scaling; none if it is too great. No scaling is by more than the greatest power of ten that is a
double. -/
def scaled? (significand : Nat) (exponent : Int) : Option Double := do
  let power (n : Nat) : Option Double := (Double.ofRatio false (powerOfTen n) 1).finite?
  let size ← (Double.ofRatio false significand 1).finite?
  if size.significand = 0 then some size
  else if 308 < exponent then none
  else if 0 ≤ exponent then (size.mul (← power exponent.toNat)).finite?
  else if -308 ≤ exponent then (size.div (← power exponent.natAbs)).finite?
  else if -616 ≤ exponent then
    let smaller ← (size.div (← power 308)).finite?
    (smaller.div (← power (exponent.natAbs - 308))).finite?
  else some (.zero false)

/-- The number at the head of the text. -/
def number? (cs : List Char) : Option (Number × List Char) := do
  let (negative, cs) := match cs with
    | '-' :: rest => (true, rest)
    | cs => (false, cs)
  let signed (size : Double) : Number := .double (if negative then size.neg else size)
  let (whole, rest) := splitDigits cs
  if whole = [] || (whole.head? = some 0 && whole.length ≠ 1) then none
  let integral := whole.foldl Significand.push ⟨0, 0⟩
  match rest with
  | '.' :: rest =>
    let (fraction, rest) := splitDigits rest
    if fraction = [] then none
    let both := fraction.foldl Significand.push ⟨integral.value, 0⟩
    let (power, rest) ← exponent? rest
    let kept : Nat := fraction.length - both.omitted
    let size ← scaled? both.value (integral.omitted - kept + power.getD 0)
    some (signed size, rest)
  | _ =>
    let (power, rest) ← exponent? rest
    let z : Int := if negative then -integral.value else integral.value
    if power.isSome || integral.omitted ≠ 0 || (negative && z = 0) || z < -0x8000000000000000 then
      some (signed (← scaled? integral.value (integral.omitted + power.getD 0)), rest)
    else some (.integer z, rest)

mutual

/-- The value at the head of a text of fewer than `fuel` characters. -/
def value? : Nat → List Char → Option (Value × List Char)
  | 0, _ => none
  | fuel + 1, cs =>
    match skipBlanks cs with
    | 'n' :: rest => (word? ['u', 'l', 'l'] rest).map (Value.null, ·)
    | 't' :: rest => (word? ['r', 'u', 'e'] rest).map (Value.bool true, ·)
    | 'f' :: rest => (word? ['a', 'l', 's', 'e'] rest).map (Value.bool false, ·)
    | '"' :: rest => (quoted? rest).map fun (text, rest) => (Value.text (String.ofList text), rest)
    | '[' :: rest =>
      match skipBlanks rest with
      | ']' :: rest => some (Value.ofList [], rest)
      | rest => (items? fuel rest).map fun (items, rest) => (Value.ofList items, rest)
    | '\x7b' :: rest =>
      match skipBlanks rest with
      | '\x7d' :: rest => some (Value.record [], rest)
      | rest => (members? fuel rest).map fun (fields, rest) => (Value.record fields, rest)
    | cs => (number? cs).map fun (n, rest) => (Value.number n, rest)

/-- The items of an array up to its closing bracket. -/
def items? : Nat → List Char → Option (List Value × List Char)
  | 0, _ => none
  | fuel + 1, cs => do
    let (item, rest) ← value? fuel cs
    match skipBlanks rest with
    | ',' :: rest =>
      let (items, rest) ← items? fuel rest
      some (item :: items, rest)
    | ']' :: rest => some ([item], rest)
    | _ => none

/-- The fields of an object up to its closing brace. -/
def members? : Nat → List Char → Option (List (String × Value) × List Char)
  | 0, _ => none
  | fuel + 1, cs => do
    let '"' :: rest := skipBlanks cs | none
    let (name, rest) ← quoted? rest
    let ':' :: rest := skipBlanks rest | none
    let (item, rest) ← value? fuel rest
    match skipBlanks rest with
    | ',' :: rest =>
      let (fields, rest) ← members? fuel rest
      some ((String.ofList name, item) :: fields, rest)
    | '\x7d' :: rest => some ([(String.ofList name, item)], rest)
    | _ => none

end

end Reader

/-- The value that a JSON text denotes. -/
def Value.ofText? (text : String) : Option Value :=
  match Reader.value? (text.length + 1) text.toList with
  | some (value, rest) => if Reader.skipBlanks rest = [] then some value else none
  | none => none

end AgentAlgebra
