import AgentAlgebra.Double.Decimal
import AgentAlgebra.Value.Basic
/-!
# The canonical text of a value

Compact JSON: no blanks, fields in increasing order of their names, doubles by their shortest
decimals. Equal text means equal values, since every part is written in one way only and shows where
it ends.
-/

namespace AgentAlgebra

/-- One item after the other with `separator` between them. -/
def separated (separator : List Char) : List (List Char) → List Char
  | [] => []
  | [item] => item
  | item :: rest => item ++ separator ++ separated separator rest

/-- The texts one after the other with `separator` between them. -/
def joinTexts (separator : String) (texts : List String) : String :=
  String.ofList (separated separator.toList (texts.map String.toList))

/-- A character inside a quoted text: quotes, backslashes and control characters are escaped. -/
def escapeChar (c : Char) : List Char :=
  if c = '"' then ['\\', '"']
  else if c = '\\' then ['\\', '\\']
  else if c = '\x08' then ['\\', 'b']
  else if c = '\x0c' then ['\\', 'f']
  else if c = '\n' then ['\\', 'n']
  else if c = '\r' then ['\\', 'r']
  else if c = '\t' then ['\\', 't']
  else if c.toNat < 0x20 then
    ['\\', 'u', '0', '0', Nat.digitChar (c.toNat / 16), Nat.digitChar (c.toNat % 16)]
  else [c]

/-- A text in quotes. -/
def quote (s : String) : List Char := '"' :: (s.toList.flatMap escapeChar ++ ['"'])

/-- The decimal digits of an integer, with a sign if it is negative. -/
def integerText (z : Int) : List Char :=
  if z < 0 then '-' :: digitsOf z.natAbs else digitsOf z.natAbs

/-- The text of a number. -/
def Number.text : Number → List Char
  | .integer z => integerText z
  | .double x => (DoubleFormat.json.write x).toList

namespace Value

/-- The characters of the canonical text. -/
def chars : Value → List Char
  | .null => ['n', 'u', 'l', 'l']
  | .bool true => ['t', 'r', 'u', 'e']
  | .bool false => ['f', 'a', 'l', 's', 'e']
  | .number n => n.text
  | .text s => quote s
  | .array _ item => '[' :: (separated [','] (List.ofFn fun i => chars (item i)) ++ [']'])
  | .object names field =>
    '\x7b' :: (separated [',']
      (List.ofFn fun i => quote (names.name i) ++ ':' :: chars (field i)) ++ ['\x7d'])

/-- The canonical text. -/
def canonicalText (value : Value) : String := String.ofList value.chars

instance : ToString Value := ⟨canonicalText⟩

end Value

end AgentAlgebra
