import MarkupDesk.Data.Datum
import MarkupDesk.Number.Decimal
import MarkupDesk.Text.Search
import MarkupDesk.Text.Utf16

/-!
# JSON

`Json.read` reads a text that consists of one JSON value, `Json.quote` writes a
string.

The reader is strict: no trailing comma, no comment, no raw control character in
a string, no leading zero, blanks are the four ASCII ones.  A number without a
point and an exponent that fits into 64 bits is an integer (minus zero is not).
Every other number is real: its digits are collected in a 64-bit coefficient, the
digits for which there is no room are dropped, and the coefficient is scaled by a
power of ten in double precision (`scaled`).
-/
namespace MarkupDesk.Json

open Number Text

/-! ## Numbers -/

/-- Whether another digit still fits into a 64-bit coefficient. -/
def fits (coefficient : Nat) (digit : Char) : Bool :=
  10 * coefficient + (digit.toNat - 48) < UInt64.size

/-- Appends digits to a coefficient as long as they fit, and counts the others. -/
def collectWhole (coefficient : Nat) : List Char → Nat × Nat
  | [] => (coefficient, 0)
  | d :: rest =>
    if fits coefficient d then collectWhole (10 * coefficient + (d.toNat - 48)) rest
    else (coefficient, rest.length + 1)

/-- Appends digits to a coefficient as long as they fit, and counts those. -/
def collectFraction (coefficient : Nat) : List Char → Nat × Nat
  | [] => (coefficient, 0)
  | d :: rest =>
    if fits coefficient d then
      let (c, n) := collectFraction (10 * coefficient + (d.toNat - 48)) rest
      (c, n + 1)
    else (coefficient, 0)

/-- The size of a finite double. -/
def size : Binary → Ratio
  | .finite _ m e => Binary.magnitude m e
  | _ => Ratio.ofNat 0

/-- The double nearest to a power of ten. -/
def powerOfTen (k : Nat) : Ratio := size (double.nearest false ((Ratio.ofNat 1).scale10 k))

/-- A double times a power of ten, one rounding at each step: powers up to 308 in one
step, smaller numbers by way of quotients by the largest power.  There is no result
beyond the largest double. -/
def scaled : (steps : Nat) → Ratio → Int → Option Binary
  | 0, value, _ => some (double.nearest false value)
  | steps + 1, value, exponent =>
    if value.num = 0 then some (double.nearest false value)
    else if 308 < exponent then none
    else if 0 ≤ exponent then
      let product := double.nearest false (value.mul (powerOfTen exponent.toNat))
      if product.isInfinite then none else some product
    else if -308 ≤ exponent then
      some (double.nearest false (value.div (powerOfTen exponent.natAbs)))
    else
      scaled steps (size (double.nearest false (value.div (powerOfTen 308)))) (exponent + 308)

/-- The value of a number that is not an integer. -/
def realValue (s : Decimal.Spelling) : Option Binary :=
  let (whole, dropped) := collectWhole 0 s.whole
  let (coefficient, taken) := collectFraction whole (s.fraction.getD [])
  let start := double.nearest false (Ratio.ofNat coefficient)
  (scaled 4 (size start) (dropped - taken + s.power)).map (Binary.withSign s.negative)

/-- The value of a number as written. -/
def numberValue (s : Decimal.Spelling) : Datum :=
  let n := decimalValue s.whole
  if s.fraction.isSome || s.exponent.isSome then .real (realValue s)
  else if s.negative then
    if 0 < n ∧ n ≤ UInt64.size / 2 then .integer (-n) else .real (realValue s)
  else if n < UInt64.size then .integer n
  else .real (realValue s)

/-- Whether a number is written as JSON wants it. -/
def wellSpelled (s : Decimal.Spelling) : Bool :=
  s.complete && (s.whole.head? != some '0' || s.whole.length == 1)

/-- Reads a number from the front of a text. -/
def number (s : List Char) : Option (Datum × List Char) :=
  let (spelling, rest) :=
    match s with
    | '-' :: r => Decimal.scanUnsigned true r
    | r => Decimal.scanUnsigned false r
  if wellSpelled spelling then some (numberValue spelling, rest) else none

/-! ## Strings -/

/-- A unit of a string as written: a character, or half of a surrogate pair that is
written as an escape. -/
inductive Piece where
  | char (c : Char)
  | highHalf (unit : Nat)
  | lowHalf (unit : Nat)

/-- The unit that an escape of four hexadecimal digits writes. -/
def Piece.ofUnit (unit : Nat) : Piece :=
  if Utf16.isHighHalf unit then .highHalf unit
  else if Utf16.isLowHalf unit then .lowHalf unit
  else .char (Char.ofNat unit)

/-- The character that a letter after a backslash stands for. -/
def escaped? : Char → Option Char
  | '"' => some '"'
  | '\\' => some '\\'
  | '/' => some '/'
  | 'b' => some '\x08'
  | 'f' => some '\x0C'
  | 'n' => some '\n'
  | 'r' => some '\r'
  | 't' => some '\t'
  | _ => none

/-- Reads the rest of a string, after its opening quote. -/
def pieces : List Char → Option (List Piece × List Char)
  | [] => none
  | '"' :: rest => some ([], rest)
  | '\\' :: 'u' :: a :: b :: c :: d :: rest => do
    let unit ← hexNumber? [a, b, c, d]
    let (ps, after) ← pieces rest
    some (Piece.ofUnit unit :: ps, after)
  | '\\' :: c :: rest => do
    let e ← escaped? c
    let (ps, after) ← pieces rest
    some (.char e :: ps, after)
  | c :: rest => do
    if c.toNat < 0x20 ∨ c = '\\' then none
    else
      let (ps, after) ← pieces rest
      some (.char c :: ps, after)

/-- The characters of a string; none if half of a surrogate pair stands alone. -/
def joinPieces : List Piece → Option (List Char)
  | [] => some []
  | .char c :: rest => (joinPieces rest).map (c :: ·)
  | .highHalf h :: .lowHalf l :: rest => (joinPieces rest).map (Utf16.joined h l :: ·)
  | _ => none

/-- Reads a string from its opening quote on. -/
def string : List Char → Option (Option String × List Char)
  | '"' :: rest => do
    let (ps, after) ← pieces rest
    some ((joinPieces ps).map String.ofList, after)
  | _ => none

/-! ## Values -/

/-- The blanks of JSON. -/
def isSpace (c : Char) : Bool := c == ' ' || c == '\t' || c == '\n' || c == '\r'

/-- The text without the blanks in front. -/
def skip (s : List Char) : List Char := s.dropWhile isSpace

/-- Reads a word that stands for a value. -/
def word (s : List Char) : Option (Datum × List Char) :=
  match after? "null".toList s with
  | some rest => some (.null, rest)
  | none =>
    match after? "true".toList s with
    | some rest => some (.bool true, rest)
    | none => (after? "false".toList s).map fun rest => (.bool false, rest)

mutual

/-- Reads a value from the front of a text. -/
def value : (fuel : Nat) → List Char → Option (Datum × List Char)
  | 0, _ => none
  | fuel + 1, s =>
    match skip s with
    | '"' :: rest => do
      let (t, after) ← string ('"' :: rest)
      some (.text t, after)
    | '[' :: rest =>
      match skip rest with
      | ']' :: after => some (.list [], after)
      | first => do
        let (items, after) ← items fuel first
        some (.list items, after)
    | '\x7b' :: rest =>
      match skip rest with
      | '\x7d' :: after => some (.record [], after)
      | first => do
        let (members, after) ← members fuel first
        some (.record members, after)
    | c :: rest => if c = '-' ∨ c.isDigit then number (c :: rest) else word (c :: rest)
    | [] => none

/-- Reads the items of a list up to its closing bracket; there is at least one. -/
def items : (fuel : Nat) → List Char → Option (List Datum × List Char)
  | 0, _ => none
  | fuel + 1, s => do
    let (first, rest) ← value fuel s
    match skip rest with
    | ',' :: more =>
      let (others, after) ← items fuel more
      some (first :: others, after)
    | ']' :: after => some ([first], after)
    | _ => none

/-- Reads the members of a record up to its closing brace; there is at least one. -/
def members : (fuel : Nat) → List Char → Option (List (Option String × Datum) × List Char)
  | 0, _ => none
  | fuel + 1, s => do
    let (name, rest) ← string (skip s)
    match skip rest with
    | ':' :: tail =>
      let (first, rest) ← value fuel tail
      match skip rest with
      | ',' :: more =>
        let (others, after) ← members fuel more
        some ((name, first) :: others, after)
      | '\x7d' :: after => some ([(name, first)], after)
      | _ => none
    | _ => none

end

/-- Reads a text that holds one value and blanks around it.  Each step into a value
or past one takes a character, so the fuel never runs out first. -/
def read (text : String) : Option Datum := do
  let s := text.toList
  let (d, rest) ← value (2 * s.length + 2) s
  if (skip rest).isEmpty then some d else none

/-! ## Writing -/

/-- How a character is written in a string. -/
def escape (c : Char) : List Char :=
  match c with
  | '"' => ['\\', '"']
  | '\\' => ['\\', '\\']
  | '\x08' => ['\\', 'b']
  | '\x0C' => ['\\', 'f']
  | '\n' => ['\\', 'n']
  | '\r' => ['\\', 'r']
  | '\t' => ['\\', 't']
  | c =>
    if c.toNat < 0x20 then ['\\', 'u', '0', '0', (c.toNat / 16).digitChar, (c.toNat % 16).digitChar]
    else [c]

/-- The string as JSON writes it. -/
def quote (s : String) : String := String.ofList ('"' :: s.toList.flatMap escape ++ ['"'])

end MarkupDesk.Json
