import MarkupDesk.Number.Ratio

/-!
# Binary floating point

The numbers of the IEEE formats as exact values: a sign, a mantissa and an
exponent of two.  A `Format` says how many bits the mantissa has and which
exponents there are, and `Format.nearest` rounds a ratio to it: to the nearest
member, the one with the even mantissa from half-way, and to an infinity beyond
the largest.

Each finite value has one representation here: its mantissa is as large as the
format allows, or its exponent is the least one.
-/
namespace MarkupDesk.Number

/-- A floating-point value: not a number, an infinity, or
`mantissa * 2 ^ exponent` with a sign (zero has one too). -/
inductive Binary where
  | nan
  | infinite (negative : Bool)
  | finite (negative : Bool) (mantissa : Nat) (exponent : Int)
  deriving DecidableEq, Repr

/-- A binary format: bits of the mantissa, and the least and the largest exponent
of a mantissa with that many bits. -/
structure Format where
  precision : Nat
  least : Int
  largest : Int
  deriving DecidableEq, Repr

/-- The 32-bit format. -/
def single : Format := ⟨24, -149, 104⟩

/-- The 64-bit format. -/
def double : Format := ⟨53, -1074, 971⟩

/-- The exponent of the largest power of two that is not above a positive ratio. -/
def Ratio.log2 (r : Ratio) : Int :=
  let guess : Int := (Nat.log2 r.num : Int) - Nat.log2 r.den
  if ((Ratio.ofNat 1).scale2 guess).le r then guess else guess - 1

namespace Format

/-- The value nearest to a ratio, with this sign. -/
def nearest (f : Format) (negative : Bool) (r : Ratio) : Binary :=
  if r.num = 0 then .finite negative 0 f.least
  else
    let exponent := max f.least (r.log2 - (f.precision - 1 : Nat))
    let mantissa := (r.scale2 (-exponent)).round
    let (mantissa, exponent) :=
      if mantissa = Nat.pow 2 f.precision then (Nat.pow 2 (f.precision - 1), exponent + 1)
      else (mantissa, exponent)
    if f.largest < exponent then .infinite negative else .finite negative mantissa exponent

end Format

namespace Binary

/-- The size of a finite value, without its sign. -/
def magnitude (mantissa : Nat) (exponent : Int) : Ratio := (Ratio.ofNat mantissa).scale2 exponent

/-- The nearest value of another format. -/
def inFormat (f : Format) : Binary → Binary
  | .nan => .nan
  | .infinite negative => .infinite negative
  | .finite negative m e => f.nearest negative (magnitude m e)

/-- The same value with this sign; not a number stays what it is. -/
def withSign (negative : Bool) : Binary → Binary
  | .nan => .nan
  | .infinite _ => .infinite negative
  | .finite _ m e => .finite negative m e

/-- Whether the value is an infinity. -/
def isInfinite : Binary → Bool
  | .infinite _ => true
  | _ => false

/-- Whether the value lies between zero and this whole number, both included; a
negative zero does. -/
def inZeroTo (n : Nat) : Binary → Bool
  | .finite negative m e => (!negative || m == 0) && (magnitude m e).le (Ratio.ofNat n)
  | _ => false

end Binary

/-- The value of an integer in a format. -/
def Format.ofInt (f : Format) (i : Int) : Binary := f.nearest (i < 0) (Ratio.ofNat i.natAbs)

example : single.ofInt 16777217 = .finite false 8388608 1 := by decide +kernel

end MarkupDesk.Number
