import AgentAlgebra.Value.Reader
/-!
# TOML documents

`Toml.ofText?` reads a document of TOML 1.0 and refuses everything else. A document is a list of
statements: headers open a table, and entries put a value under a key of the open table. A table may
be opened once only, and a key may be given once only. The contents of texts and moments of time are
checked but not kept. Values may lie within each other, and keys be dotted, only to a limit.
-/

namespace AgentAlgebra

/-- How a table came about. -/
inductive TableSort where
  /-- By its own header. -/
  | opened
  /-- By the header of a table within it. -/
  | implied
  /-- By a dotted key. -/
  | dotted
  /-- Between braces; it is complete. -/
  | inline
deriving DecidableEq

/-- What stands under a key. -/
inductive Toml where
  | string
  | moment
  | bool (b : Bool)
  | integer (z : Int)
  | float (x : Extended)
  | array (items : List Toml)
  | table (sort : TableSort) (entries : List (String × Toml))
  /-- Tables opened one after the other by a header in double brackets, last first. -/
  | tables (opened : List (List (String × Toml)))

namespace Toml

/-- The entries of a table. -/
abbrev Entries := List (String × Toml)

/-- Put a value under a key in place of what was there. -/
def replace (key : String) (value : Toml) : Entries → Entries
  | [] => [(key, value)]
  | entry :: rest => if entry.1 = key then (key, value) :: rest else entry :: replace key value rest

/-- Put a value under a key that must be free. -/
def insertNew? (key : String) (value : Toml) (entries : Entries) : Option Entries :=
  if (entries.lookup key).isSome then none else some (entries ++ [(key, value)])

/-- Change the table at the end of a path. Tables that are missing on the way come about as `made`;
by a dotted key none may be entered that was opened by a header, nor by any path one between braces.
The change is told how the table at the end came about, which for the table at hand is `sort`. -/
def alter (made : TableSort) (change : TableSort → Entries → Option Entries) :
    List String → TableSort → Entries → Option Entries
  | [], sort, entries => change sort entries
  | key :: path, _, entries =>
    match entries.lookup key with
    | none => do
      let inner ← alter made change path made []
      some (entries ++ [(key, .table made inner)])
    | some (.table sort inner) =>
      if sort = .inline || (made = .dotted && sort = .opened) then none
      else do
        let inner ← alter made change path sort inner
        some (replace key (.table sort inner) entries)
    | some (.tables (last :: earlier)) => do
      let last ← alter made change path .opened last
      some (replace key (.tables (last :: earlier)) entries)
    | some _ => none

/-- Put a value under a dotted key. Each table belongs either to headers or to dotted keys. -/
def enter? (path : List String) (key : String) (value : Toml) (entries : Entries) : Option Entries :=
  alter .dotted
    (fun sort held => if path.isEmpty || sort = .dotted then insertNew? key value held else none)
    path .opened entries

/-- Open a table. One that came about by the header of a table within it may still be opened. -/
def open? (path : List String) (key : String) (entries : Entries) : Option Entries :=
  alter .implied
    (fun _ held =>
      match held.lookup key with
      | none => some (held ++ [(key, .table .opened [])])
      | some (.table .implied inner) => some (replace key (.table .opened inner) held)
      | some _ => none)
    path .opened entries

/-- Open one more table of an array of tables. -/
def openNext? (path : List String) (key : String) (entries : Entries) : Option Entries :=
  alter .implied
    (fun _ held =>
      match held.lookup key with
      | none => some (held ++ [(key, .tables [[]])])
      | some (.tables opened) => some (replace key (.tables ([] :: opened)) held)
      | some _ => none)
    path .opened entries

/-- Put a value under a dotted key of the table that a header opened. -/
def enterAt? (header path : List String) (key : String) (value : Toml) (entries : Entries) :
    Option Entries :=
  alter .implied (fun _ held => enter? path key value held) header .opened entries

end Toml

namespace Toml.Reader

open AgentAlgebra.Reader (digit? digits? splitDigits word? isHighSurrogate isLowSurrogate)

/-- Drop spaces and tabs. -/
def skipSpaces (cs : List Char) : List Char := cs.dropWhile fun c => c = ' ' || c = '\t'

/-- What follows the end of a line. -/
def newline? : List Char → Option (List Char)
  | '\n' :: rest => some rest
  | '\r' :: '\n' :: rest => some rest
  | _ => none

/-- Whether a character may stand in a line: a tab, or none of the control characters. -/
def isLineChar (c : Char) : Bool := c = '\t' || (0x20 ≤ c.toNat && c.toNat ≠ 0x7F)

/-- Drop a comment, if there is one. -/
def skipComment : List Char → List Char
  | '#' :: rest => rest.dropWhile isLineChar
  | cs => cs

/-- Demand the end of the line, after spaces and a comment. -/
def lineEnd? (cs : List Char) : Option (List Char) :=
  match skipComment (skipSpaces cs) with
  | [] => some []
  | rest => newline? rest

/-- Drop spaces, comments and ends of lines. -/
def skipLines : (fuel : Nat) → List Char → List Char
  | 0, cs => cs
  | fuel + 1, cs =>
    let rest := skipComment (skipSpaces cs)
    match newline? rest with
    | some rest => skipLines fuel rest
    | none => rest

/-- The character of a code point, which must not be half of a surrogate pair. -/
def scalar? (n : Nat) : Option Char :=
  if isHighSurrogate n || isLowSurrogate n || 0x110000 ≤ n then none else some (Char.ofNat n)

/-- The character that an escape stands for, and what follows it. -/
def escape? : List Char → Option (Char × List Char)
  | 'b' :: rest => some ('\x08', rest)
  | 't' :: rest => some ('\t', rest)
  | 'n' :: rest => some ('\n', rest)
  | 'f' :: rest => some ('\x0c', rest)
  | 'r' :: rest => some ('\r', rest)
  | '"' :: rest => some ('"', rest)
  | '\\' :: rest => some ('\\', rest)
  | 'u' :: rest => do some (← scalar? (← hex? 4 rest), rest.drop 4)
  | 'U' :: rest => do some (← scalar? (← hex? 8 rest), rest.drop 8)
  | _ => none
where
  /-- The number that the first hexadecimal digits of a text stand for. -/
  hex? (count : Nat) (cs : List Char) : Option Nat :=
    if count ≤ cs.length then digits? 16 (cs.take count) else none

/-- The text up to a closing quote in the same line. -/
def quoted? : (fuel : Nat) → List Char → Option (List Char × List Char)
  | 0, _ | _, [] => none
  | _ + 1, '"' :: rest => some ([], rest)
  | fuel + 1, '\\' :: rest => do
    let (c, rest) ← escape? rest
    let (text, rest) ← quoted? fuel rest
    some (c :: text, rest)
  | fuel + 1, c :: rest =>
    if isLineChar c then do
      let (text, rest) ← quoted? fuel rest
      some (c :: text, rest)
    else none

/-- The text up to a closing apostrophe in the same line, taken as it stands. -/
def verbatim? (cs : List Char) : Option (List Char × List Char) :=
  let (text, rest) := cs.span fun c => isLineChar c && c ≠ '\''
  match rest with
  | '\'' :: rest => some (text, rest)
  | _ => none

/-- What follows the three quotes that close a text of several lines. Up to two quotes may stand
before them. -/
def closeLong? (mark : Char) (cs : List Char) : Option (List Char) :=
  let marks := cs.takeWhile (· = mark)
  if 3 ≤ marks.length then some (cs.drop (min marks.length 5)) else none

/-- What follows a text of several lines, in which escapes count if `escapes`. A backslash at the end
of a line joins lines. -/
def longText? (mark : Char) (escapes : Bool) : (fuel : Nat) → List Char → Option (List Char)
  | 0, _ | _, [] => none
  | fuel + 1, c :: rest =>
    match closeLong? mark (c :: rest) with
    | some rest => some rest
    | none =>
      match newline? (c :: rest) with
      | some rest => longText? mark escapes fuel rest
      | none =>
        if escapes && c = '\\' then
          match newline? (skipSpaces rest) with
          | some rest => longText? mark escapes fuel (skipBlankLines fuel rest)
          | none => do longText? mark escapes fuel (← escape? rest).2
        else if isLineChar c then longText? mark escapes fuel rest
        else none
where
  /-- Drop spaces and ends of lines. -/
  skipBlankLines : Nat → List Char → List Char
    | 0, cs => cs
    | fuel + 1, cs =>
      match newline? (skipSpaces cs) with
      | some rest => skipBlankLines fuel rest
      | none => skipSpaces cs

/-- A key without dots: bare, or between quotes of either kind. -/
def simpleKey? (cs : List Char) : Option (String × List Char) :=
  match cs with
  | '"' :: rest => (quoted? (rest.length + 1) rest).map fun (key, rest) => (String.ofList key, rest)
  | '\'' :: rest => (verbatim? rest).map fun (key, rest) => (String.ofList key, rest)
  | cs =>
    let (key, rest) := cs.span fun c => c.isAlphanum || c = '_' || c = '-'
    if key.isEmpty then none else some (String.ofList key, rest)

/-- How many arrays and tables between braces may lie within each other, and how many parts a dotted
key may have. -/
def maxNesting : Nat := 79

/-- The parts of a dotted key: those before the last, and the last. -/
def keyParts? : (fuel : Nat) → List Char → Option (List String × String × List Char)
  | 0, _ => none
  | fuel + 1, cs => do
    let (key, rest) ← simpleKey? (skipSpaces cs)
    match skipSpaces rest with
    | '.' :: rest =>
      let (path, last, rest) ← keyParts? fuel rest
      some (key :: path, last, rest)
    | rest => some ([], key, rest)

/-- A dotted key: the path to its table, and the last part. -/
def key? (cs : List Char) : Option (List String × String × List Char) := do
  let (path, key, rest) ← keyParts? (cs.length + 1) cs
  if path.length < maxNesting then some (path, key, rest) else none

/-- Digits of a base with single underscores between digits, and the rest. -/
def grouped? (base : Nat) : (fuel : Nat) → List Char → Option (List Nat × List Char)
  | fuel + 1, c :: rest => do
    let d ← digit? base c
    match rest with
    | '_' :: after =>
      let (ds, rest) ← grouped? base fuel after
      some (d :: ds, rest)
    | next :: _ =>
      if (digit? base next).isSome then
        let (ds, rest) ← grouped? base fuel rest
        some (d :: ds, rest)
      else some ([d], rest)
    | [] => some ([d], [])
  | _, _ => none

/-- The number that digits of a base make. -/
def ofDigits (base : Nat) (ds : List Nat) : Nat := ds.foldl (fun n d => base * n + d) 0

/-- An integer, which must fit 64 bits with its sign. -/
def integer? (z : Int) : Option Toml :=
  if -0x8000000000000000 ≤ z ∧ z < 0x8000000000000000 then some (.integer z) else none

/-- The sign at the head of a number. -/
def sign : List Char → Bool × List Char
  | '-' :: rest => (true, rest)
  | '+' :: rest => (false, rest)
  | cs => (false, cs)

/-- The double nearest to a decimal. One above all doubles is refused, one below them becomes
infinite. -/
def float? (negative : Bool) (coefficient : Nat) (exponent : Int) : Option Toml :=
  let size : Extended :=
    if coefficient = 0 then .finite (.zero negative)
    else if 400 < exponent + (digitsOfCount coefficient : Int) then .infinite negative
    else if exponent + (digitsOfCount coefficient : Int) < -400 then .finite (.zero negative)
    else
      Double.ofRatio negative (coefficient * powerOfTen exponent.toNat)
        (powerOfTen (-exponent).toNat)
  match size with
  | .infinite false => none
  | size => some (.float size)
where
  /-- How many decimal digits a number has. -/
  digitsOfCount (n : Nat) : Nat := (Nat.toDigits 10 n).length

/-- A number to base ten, with fraction or exponent or neither. -/
def decimal? (cs : List Char) : Option (Toml × List Char) := do
  let (negative, cs) := sign cs
  match word? ['i', 'n', 'f'] cs, word? ['n', 'a', 'n'] cs with
  | some rest, _ => some (.float (.infinite negative), rest)
  | _, some rest => some (.float .nan, rest)
  | none, none =>
    let (whole, rest) ← grouped? 10 (cs.length + 1) cs
    if whole.head? = some 0 && whole.length ≠ 1 then none
    let (fraction, rest) ← match rest with
      | '.' :: rest => (grouped? 10 (rest.length + 1) rest).map fun (ds, rest) => (some ds, rest)
      | rest => some (none, rest)
    let (power, rest) ← match rest with
      | e :: after =>
        if e = 'e' || e = 'E' then do
          let (below, rest) := sign after
          let (ds, rest) ← grouped? 10 (rest.length + 1) rest
          let size : Int := ofDigits 10 ds
          some (some (if below then -size else size), rest)
        else some (none, rest)
      | [] => some (none, [])
    let coefficient := ofDigits 10 (whole ++ fraction.getD [])
    if fraction.isNone && power.isNone then
      let z : Int := coefficient
      some (← integer? (if negative then -z else z), rest)
    else
      some (← float? negative coefficient (power.getD 0 - (fraction.getD []).length), rest)

/-- A number to another base. -/
def based? (base : Nat) (cs : List Char) : Option (Toml × List Char) := do
  let (ds, rest) ← grouped? base (cs.length + 1) cs
  some (← integer? (ofDigits base ds), rest)

/-- A number of exactly `count` digits. -/
def fixed? (count : Nat) (cs : List Char) : Option (Nat × List Char) :=
  let ds := cs.take count
  if ds.length = count && ds.all Char.isDigit then
    (digits? 10 ds).map (·, cs.drop count)
  else none

/-- How many days a month has. -/
def daysIn (year month : Nat) : Nat :=
  if month = 2 then
    if year % 4 = 0 && (year % 100 ≠ 0 || year % 400 = 0) then 29 else 28
  else if month = 4 || month = 6 || month = 9 || month = 11 then 30
  else 31

/-- What follows a day. -/
def day? (cs : List Char) : Option (List Char) := do
  let (year, rest) ← fixed? 4 cs
  let (month, rest) ← fixed? 2 (← word? ['-'] rest)
  let (day, rest) ← fixed? 2 (← word? ['-'] rest)
  if 1 ≤ month && month ≤ 12 && 1 ≤ day && day ≤ daysIn year month then some rest else none

/-- What follows a time of day. -/
def time? (cs : List Char) : Option (List Char) := do
  let (hour, rest) ← fixed? 2 cs
  let (minute, rest) ← fixed? 2 (← word? [':'] rest)
  let (second, rest) ← fixed? 2 (← word? [':'] rest)
  if hour ≤ 23 && minute ≤ 59 && second ≤ 60 then
    match rest with
    | '.' :: rest =>
      match splitDigits rest with
      | ([], _) => none
      | (_, rest) => some rest
    | rest => some rest
  else none

/-- What follows the offset of a time, which may be absent. -/
def offset? (cs : List Char) : Option (List Char) :=
  match cs with
  | c :: rest =>
    if c = 'Z' || c = 'z' then some rest
    else if c = '+' || c = '-' then do
      let (hour, rest) ← fixed? 2 rest
      let (minute, rest) ← fixed? 2 (← word? [':'] rest)
      if hour ≤ 23 && minute ≤ 59 then some rest else none
    else some cs
  | [] => some []

/-- What follows a moment: a day, a time, or a day and a time with its offset. -/
def moment? (cs : List Char) : Option (List Char) :=
  match day? cs with
  | none => time? cs
  | some (c :: rest) =>
    if c = 'T' || c = 't' then do offset? (← time? rest)
    else if c = ' ' then
      match time? rest with
      | some rest => offset? rest
      | none => some (c :: rest)
    else some (c :: rest)
  | some [] => some []

/-- Whether a text begins as a moment does: with four digits and a dash, or two and a colon. -/
def beginsMoment (cs : List Char) : Bool :=
  match fixed? 4 cs, fixed? 2 cs with
  | some (_, '-' :: _), _ => true
  | _, some (_, ':' :: _) => true
  | _, _ => false

/-- A value without parts. -/
def scalarValue? (cs : List Char) : Option (Toml × List Char) :=
  match cs with
  | '"' :: '"' :: '"' :: rest => (longText? '"' true (rest.length + 1) rest).map (.string, ·)
  | '"' :: rest => (quoted? (rest.length + 1) rest).map fun (_, rest) => (.string, rest)
  | '\'' :: '\'' :: '\'' :: rest => (longText? '\'' false (rest.length + 1) rest).map (.string, ·)
  | '\'' :: rest => (verbatim? rest).map fun (_, rest) => (.string, rest)
  | 't' :: rest => (word? ['r', 'u', 'e'] rest).map (.bool true, ·)
  | 'f' :: rest => (word? ['a', 'l', 's', 'e'] rest).map (.bool false, ·)
  | '0' :: 'x' :: rest => based? 16 rest
  | '0' :: 'o' :: rest => based? 8 rest
  | '0' :: 'b' :: rest => based? 2 rest
  | cs => if beginsMoment cs then (moment? cs).map (.moment, ·) else decimal? cs

mutual

/-- A value, in which at most `depth` arrays and tables between braces may lie within each other. -/
def value? : (fuel depth : Nat) → List Char → Option (Toml × List Char)
  | 0, _, _ => none
  | fuel + 1, depth, cs =>
    match cs, depth with
    | '[' :: rest, depth + 1 => items? fuel depth [] rest
    | '\x7b' :: rest, depth + 1 =>
      match skipSpaces rest with
      | '\x7d' :: rest => some (.table .inline [], rest)
      | rest => pairs? fuel depth [] rest
    | '[' :: _, 0 | '\x7b' :: _, 0 => none
    | cs, _ => scalarValue? cs

/-- The items of an array up to its closing bracket, after those read already, last first. -/
def items? : (fuel depth : Nat) → List Toml → List Char → Option (Toml × List Char)
  | 0, _, _, _ => none
  | fuel + 1, depth, items, cs =>
    match skipLines cs.length cs with
    | ']' :: rest => some (.array items.reverse, rest)
    | rest => do
      let (item, rest) ← value? fuel depth rest
      match skipLines rest.length rest with
      | ',' :: rest => items? fuel depth (item :: items) rest
      | ']' :: rest => some (.array (item :: items).reverse, rest)
      | _ => none

/-- The entries of a table between braces up to the closing one, after those read already. -/
def pairs? : (fuel depth : Nat) → Entries → List Char → Option (Toml × List Char)
  | 0, _, _, _ => none
  | fuel + 1, depth, entries, cs => do
    let (path, key, rest) ← key? cs
    let (value, rest) ← value? fuel depth (skipSpaces (← word? ['='] rest))
    let entries ← enter? path key value entries
    match skipSpaces rest with
    | ',' :: rest => pairs? fuel depth entries rest
    | '\x7d' :: rest => some (.table .inline entries, rest)
    | _ => none

end

/-- The entries of a document, after those read already, in the table that `header` opened. -/
def document? : (fuel : Nat) → (header : List String) → Entries → List Char → Option Entries
  | 0, _, _, _ => none
  | fuel + 1, header, entries, cs =>
    match skipLines cs.length cs with
    | [] => some entries
    | '[' :: '[' :: rest => do
      let (path, key, rest) ← key? rest
      let rest ← lineEnd? (← word? [']', ']'] rest)
      document? fuel (path ++ [key]) (← openNext? path key entries) rest
    | '[' :: rest => do
      let (path, key, rest) ← key? rest
      let rest ← lineEnd? (← word? [']'] rest)
      document? fuel (path ++ [key]) (← open? path key entries) rest
    | rest => do
      let (path, key, rest) ← key? rest
      let rest ← word? ['='] rest
      let (value, rest) ← value? (rest.length + 1) maxNesting (skipSpaces rest)
      document? fuel header (← enterAt? header path key value entries) (← lineEnd? rest)

end Toml.Reader

/-- The entries of the document that a text is. A mark of the byte order may stand before it. -/
def Toml.ofText? (text : String) : Option Toml.Entries :=
  let cs := match text.toList with
    | c :: rest => if c.toNat = 0xFEFF then rest else c :: rest
    | [] => []
  Toml.Reader.document? (cs.length + 1) [] [] cs

end AgentAlgebra
