import MarkupDesk.Data.Datum
import MarkupDesk.Number.Decimal

/-!
# The numbers of a TOML document

A number is judged twice.  A word that has not the form of a number makes the document
ill-formed, so `number?` gives none.  A word in good form can still be without a value:
it is out of range, or it announces digits of a base and has none, or a letter stands
among its decimal digits.  Such a number is `unreadable`, and only who reads it finds
out.

The form allows for underscores between digits (`separated`).  In an integer, the letters
that are digits of base 16 count as digits there, whatever the base.
-/
namespace MarkupDesk.Toml

open Number Text

/-! ## Underscores -/

/-- A digit of base 16. -/
def isHexDigit (c : Char) : Bool := (hexValue? c).isSome

/-- Whether each underscore has a digit on either side; `led` says whether what stands in
front of the text will do for one. -/
def separated (isDigit : Char → Bool) (led : Bool) : List Char → Bool
  | [] => true
  | c :: rest =>
    if c = '_' then led && rest.head?.any isDigit && separated isDigit false rest
    else separated isDigit (isDigit c) rest

example : separated isHexDigit false "1_f_0".toList = true := by decide
example : separated isHexDigit true "_1".toList = true ∧
    separated isHexDigit false "1__0".toList = false := by decide

/-- The text without its underscores. -/
def withoutUnderscores (s : List Char) : List Char := s.filter (· != '_')

/-! ## Integers -/

/-- The number of values of 128 bits. -/
def widest : Nat := UInt64.size * UInt64.size

/-- The data of an integer.  Readers take what fits into 128 bits. -/
def integerDatum (i : Int) : Datum :=
  if -(widest / 2 : Nat) ≤ i ∧ i < widest then .integer i else .unreadable

/-- Reads an integer in a base that is a power of two, after the letters that announce it. -/
def radixInteger (base : Nat) (s : List Char) : Option Datum :=
  let isDigit := fun c => (hexValue? c).any (· < base)
  let digits := withoutUnderscores s
  if !digits.all isDigit || !separated isHexDigit false s then none
  else if digits.isEmpty then some .unreadable
  else some (integerDatum (digits.foldl (fun n c => base * n + (hexValue? c).getD 0) 0))

/-- Reads a decimal integer after its sign, if it has one: `negative?` is the sign.  There
is no leading zero, and what follows the first digits begins with an underscore, which may
also stand directly after the sign. -/
def decimalInteger (negative? : Option Bool) (s : List Char) : Option Datum :=
  let tail := s.dropWhile Char.isDigit
  let digits := withoutUnderscores s
  if s.isEmpty || (s.head? == some '0' && s.length != 1) then none
  else if !tail.isEmpty && tail.head? != some '_' then none
  else if !separated isHexDigit negative?.isSome s then none
  else if !digits.all Char.isDigit then some .unreadable
  else
    let n : Int := decimalValue digits
    some (integerDatum (if negative? = some true then -n else n))

/-! ## Numbers with a point or an exponent -/

/-- A character that an integer has not. -/
def isRealMark (c : Char) : Bool := c == '.' || c == 'e' || c == 'E'

/-- Reads a number with a point or an exponent after its sign, if it has one.  There is no
leading zero before the point, and the nearest double has to be finite. -/
def realNumber (negative? : Option Bool) (s : List Char) : Option Datum :=
  let (spelling, rest) := Decimal.scanUnsigned (negative? == some true) (withoutUnderscores s)
  if !spelling.complete || !rest.isEmpty then none
  else if !separated Char.isDigit negative?.isSome s then none
  else if s.head? == some '0' && spelling.whole.length != 1 then none
  else
    let value := spelling.value.nearest double
    some (if value.isInfinite then .unreadable else .real (some value))

/-! ## All numbers -/

/-- Reads a number after its sign, if it has one. -/
def unsignedNumber (negative? : Option Bool) (s : List Char) : Option Datum :=
  if s = "inf".toList then some (.real (some (.infinite (negative? == some true))))
  else if s = "nan".toList then some (.real (some .nan))
  else if (s.dropWhile Char.isDigit).any isRealMark then realNumber negative? s
  else decimalInteger negative? s

/-- Reads a number.  One with a base has no sign. -/
def number? (s : List Char) : Option Datum :=
  match s with
  | '-' :: rest => unsignedNumber (some true) rest
  | '+' :: rest => unsignedNumber (some false) rest
  | '0' :: 'x' :: rest => radixInteger 16 rest
  | '0' :: 'o' :: rest => radixInteger 8 rest
  | '0' :: 'b' :: rest => radixInteger 2 rest
  | rest => unsignedNumber none rest

end MarkupDesk.Toml
