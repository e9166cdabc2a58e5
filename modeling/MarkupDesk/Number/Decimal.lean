import MarkupDesk.Number.Binary
import MarkupDesk.Text.Digit

/-!
# Decimals

A decimal is a sign, the number that its digits make, and a power of ten.
`Decimal.scan` reads one from the front of a text: digits, perhaps a point and
more digits, perhaps an exponent.  `Decimal.nearest` is its value in a binary
format.
-/
namespace MarkupDesk.Number

open Text

/-- The number `coefficient * 10 ^ exponent`, with a sign. -/
structure Decimal where
  negative : Bool
  coefficient : Nat
  exponent : Int
  deriving DecidableEq, Repr

namespace Decimal

/-- The nearest value of a binary format.  A number whose first digit stands
beyond the 400th place before or after the point is out of the range of both
formats, or rounds to zero, and is not computed. -/
def nearest (f : Format) (d : Decimal) : Binary :=
  let firstPlace := d.exponent + (Nat.toDigits 10 d.coefficient).length
  if d.coefficient = 0 then f.nearest d.negative (Ratio.ofNat 0)
  else if 400 < firstPlace then .infinite d.negative
  else if firstPlace < -400 then f.nearest d.negative (Ratio.ofNat 0)
  else f.nearest d.negative ((Ratio.ofNat d.coefficient).scale10 d.exponent)

/-- The parts of a decimal as written: its sign, the digits before the point, the
digits after it if there is a point, and the exponent if there is one, with its
sign and its digits. -/
structure Spelling where
  negative : Bool
  whole : List Char
  fraction : Option (List Char)
  exponent : Option (Bool × List Char)
  deriving DecidableEq, Repr

/-- Splits off an exponent: `e` in either case, perhaps a sign, and digits. -/
def scanExponent : List Char → Option (Bool × List Char) × List Char
  | c :: rest =>
    if c = 'e' ∨ c = 'E' then
      let (negative, digits) :=
        match rest with
        | '-' :: r => (true, r)
        | '+' :: r => (false, r)
        | r => (false, r)
      (some (negative, digits.takeWhile Char.isDigit), digits.dropWhile Char.isDigit)
    else (none, c :: rest)
  | [] => (none, [])

/-- Splits off the digits after a point. -/
def scanFraction : List Char → Option (List Char) × List Char
  | '.' :: rest => (some (rest.takeWhile Char.isDigit), rest.dropWhile Char.isDigit)
  | s => (none, s)

/-- Splits off a decimal without its sign. -/
def scanUnsigned (negative : Bool) (s : List Char) : Spelling × List Char :=
  let (fraction, s₁) := scanFraction (s.dropWhile Char.isDigit)
  let (exponent, s₂) := scanExponent s₁
  (⟨negative, s.takeWhile Char.isDigit, fraction, exponent⟩, s₂)

/-- Whether digits stand wherever the parts call for them. -/
def Spelling.complete (s : Spelling) : Bool :=
  !s.whole.isEmpty && s.fraction.all (!·.isEmpty) && s.exponent.all (!·.2.isEmpty)

/-- The exponent as a number. -/
def Spelling.power (s : Spelling) : Int :=
  match s.exponent with
  | none => 0
  | some (true, digits) => -(decimalValue digits : Int)
  | some (false, digits) => decimalValue digits

/-- The decimal that the parts spell. -/
def Spelling.value (s : Spelling) : Decimal :=
  let fraction := s.fraction.getD []
  ⟨s.negative, decimalValue (s.whole ++ fraction), s.power - fraction.length⟩

/-- Reads a whole text as a decimal with an optional sign. -/
def ofText? (s : List Char) : Option Decimal :=
  let (spelling, rest) :=
    match s with
    | '-' :: r => scanUnsigned true r
    | '+' :: r => scanUnsigned false r
    | r => scanUnsigned false r
  if spelling.complete && rest.isEmpty then some spelling.value else none

example : ofText? "-12.50e2".toList = some ⟨true, 1250, 0⟩ := by decide

end Decimal
end MarkupDesk.Number
