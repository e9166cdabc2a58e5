/-!
# Ratios and their rounding

Exact non-negative rationals, as a numerator over a positive denominator, and
the one way in which this library turns a quotient into a whole number: to the
nearest, and to the even neighbour from half-way (`Ratio.round`).
-/
namespace MarkupDesk.Number

/-- The quotient of two natural numbers. -/
structure Ratio where
  num : Nat
  den : Nat
  den_pos : 0 < den := by omega

namespace Ratio

/-- A whole number. -/
def ofNat (n : Nat) : Ratio := ⟨n, 1, by omega⟩

/-- The product with a power of a positive base, the exponent of either sign. -/
def scale (r : Ratio) (base : Nat) (hbase : 0 < base) (exponent : Int) : Ratio :=
  match exponent with
  | .ofNat k => ⟨r.num * Nat.pow base k, r.den, r.den_pos⟩
  | .negSucc k => ⟨r.num, r.den * Nat.pow base (k + 1), Nat.mul_pos r.den_pos (Nat.pow_pos hbase)⟩

/-- The product with a power of two. -/
def scale2 (r : Ratio) (exponent : Int) : Ratio := r.scale 2 (by omega) exponent

/-- The product with a power of ten. -/
def scale10 (r : Ratio) (exponent : Int) : Ratio := r.scale 10 (by omega) exponent

/-- The sum of two ratios. -/
def add (r s : Ratio) : Ratio :=
  ⟨r.num * s.den + s.num * r.den, r.den * s.den, Nat.mul_pos r.den_pos s.den_pos⟩

/-- The product of two ratios. -/
def mul (r s : Ratio) : Ratio := ⟨r.num * s.num, r.den * s.den, Nat.mul_pos r.den_pos s.den_pos⟩

/-- The quotient by a positive whole number. -/
def divNat (r : Ratio) (n : Nat) (hn : 0 < n) : Ratio :=
  ⟨r.num, r.den * n, Nat.mul_pos r.den_pos hn⟩

/-- The quotient of two ratios; division by zero leaves the dividend. -/
def div (r s : Ratio) : Ratio :=
  if h : 0 < s.num then ⟨r.num * s.den, r.den * s.num, Nat.mul_pos r.den_pos h⟩ else r

/-- The order of the rationals. -/
def le (r s : Ratio) : Bool := r.num * s.den ≤ s.num * r.den

/-- The strict order of the rationals. -/
def lt (r s : Ratio) : Bool := r.num * s.den < s.num * r.den

/-- The whole part. -/
def floor (r : Ratio) : Nat := r.num / r.den

/-- The nearest whole number, the even one of two that are equally near. -/
def round (r : Ratio) : Nat :=
  let whole := r.num / r.den
  let twice := 2 * (r.num % r.den)
  if twice < r.den then whole
  else if r.den < twice then whole + 1
  else if whole % 2 = 0 then whole
  else whole + 1

/-! ## Fixed places -/

/-- The decimal digits of a number, padded with zeros to a least width. -/
def padded (width n : Nat) : List Char :=
  let digits := Nat.toDigits 10 n
  List.replicate (width - digits.length) '0' ++ digits

/-- The ratio with this many decimal places. -/
def fixed (r : Ratio) (places : Nat) : String :=
  let units := (r.scale10 places).round
  if places = 0 then toString units
  else
    let digits := padded (places + 1) units
    String.ofList (digits.take (digits.length - places) ++ '.' :: digits.drop (digits.length - places))

end Ratio
end MarkupDesk.Number
