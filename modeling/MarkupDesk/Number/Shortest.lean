import MarkupDesk.Number.Binary

/-!
# The shortest decimal that reads back

A finite value of a binary format stands for an interval of numbers, those that
round to it.  `shortest` finds the decimal with the fewest digits in that
interval, and the nearest to the value of those.  It looks at ever finer decimal
grids; if a point of a grid lies in the interval, so does one of the two
neighbours of the value on that grid.  Where both do and are equally near, the
`Tie` decides.

Two notations are built on it.  `plain` never uses an exponent, and ties go up.
`compact?` has at least one digit after the point, and an exponent where the point
would move more than five places to the left or more than twelve to the right; ties
go to the even digit.
-/
namespace MarkupDesk.Number

/-- The numbers that round to a value of a format.  The gap below a power of two is
half as wide as the one above it. -/
structure Interval where
  low : Ratio
  high : Ratio
  closed : Bool

/-- The interval of a positive value: its mantissa and exponent in the format. -/
def Format.interval (f : Format) (mantissa : Nat) (exponent : Int) : Interval :=
  let narrow := mantissa = Nat.pow 2 (f.precision - 1) ∧ f.least < exponent
  { low := (Ratio.ofNat (4 * mantissa - if narrow then 1 else 2)).scale2 (exponent - 2)
    high := (Ratio.ofNat (4 * mantissa + 2)).scale2 (exponent - 2)
    closed := mantissa % 2 == 0 }

/-- Whether a number rounds to the value. -/
def Interval.contains (i : Interval) (r : Ratio) : Bool :=
  if i.closed then i.low.le r && r.le i.high else i.low.lt r && r.lt i.high

/-- The number of decimal digits. -/
def digitCount (n : Nat) : Nat := (Nat.toDigits 10 n).length

/-- The place before which every decimal grid is too coarse for a positive ratio. -/
def coarsest (r : Ratio) : Int :=
  if r.den ≤ r.num then digitCount (r.num / r.den) else 1 - (digitCount (r.den / r.num) : Int)

/-- Which of two equally near decimals is taken. -/
inductive Tie where
  | up
  | toEven
  deriving DecidableEq, Repr

/-- Whether a ratio is taken up to the next whole number, and not down. -/
def Tie.takesUp (tie : Tie) (r : Ratio) : Bool :=
  let twice := 2 * (r.num % r.den)
  r.den < twice || (twice == r.den && (tie == .up || r.floor % 2 == 1))

/-- The point of the grid of multiples of `10 ^ place` that lies in the interval and
is nearest to the value. -/
def onGrid (tie : Tie) (i : Interval) (value : Ratio) (place : Int) : Option (Nat × Int) :=
  let scaled := value.scale10 (-place)
  let below := scaled.floor
  let point := fun n => (Ratio.ofNat n).scale10 place
  match decide (0 < below) && i.contains (point below), i.contains (point (below + 1)) with
  | true, true => some (if tie.takesUp scaled then below + 1 else below, place)
  | true, false => some (below, place)
  | false, true => some (below + 1, place)
  | false, false => none

/-- The shortest decimal of a positive value: a coefficient and a power of ten.
Seventeen digits are always enough in the formats at hand. -/
def Format.shortest (f : Format) (tie : Tie) (mantissa : Nat) (exponent : Int) : Nat × Int :=
  let value := Binary.magnitude mantissa exponent
  let top := coarsest value
  ((List.range 20).findSome? fun (n : Nat) =>
    onGrid tie (f.interval mantissa exponent) value (top - n)).getD (mantissa, 0)

/-- Digits with a decimal point after the first `point` of them, where `point` may
lie before or behind the digits. -/
def placePoint (digits : List Char) (point : Int) : List Char :=
  match point with
  | .negSucc k => '0' :: '.' :: List.replicate (k + 1) '0' ++ digits
  | .ofNat 0 => '0' :: '.' :: digits
  | .ofNat k =>
    if digits.length ≤ k then digits ++ List.replicate (k - digits.length) '0'
    else digits.take k ++ '.' :: digits.drop k

/-- A sign, and the text of the value without it. -/
def signed (negative : Bool) (text : List Char) : String :=
  String.ofList (if negative then '-' :: text else text)

/-- The value without an exponent. -/
def Format.plain (f : Format) : Binary → String
  | .nan => "NaN"
  | .infinite negative => signed negative "inf".toList
  | .finite negative 0 _ => signed negative ['0']
  | .finite negative m e =>
    let (coefficient, place) := f.shortest .up m e
    let digits := Nat.toDigits 10 coefficient
    signed negative (placePoint digits (digits.length + place))

/-- The text of a coefficient and a power of ten in compact notation. -/
def compactText (coefficient : Nat) (place : Int) : List Char :=
  let digits := Nat.toDigits 10 coefficient
  let point : Int := digits.length + place
  if -6 < point ∧ point ≤ 13 then
    if digits.length ≤ point then placePoint digits point ++ ['.', '0']
    else placePoint digits point
  else
    let mantissa := if digits.length = 1 then digits else placePoint digits 1
    mantissa ++ 'e' :: (toString (point - 1)).toList

/-- The value in compact notation; only finite values have one. -/
def Format.compact? (f : Format) : Binary → Option String
  | .finite negative 0 _ => some (signed negative ['0', '.', '0'])
  | .finite negative m e =>
    let (coefficient, place) := f.shortest .toEven m e
    some (signed negative (compactText coefficient place))
  | _ => none

end MarkupDesk.Number
