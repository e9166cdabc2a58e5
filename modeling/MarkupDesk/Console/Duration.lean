import MarkupDesk.Number.Shortest

/-!
# Durations

The time that something took, and how it is written: whole milliseconds below one
second, seconds with two places below one minute, and else minutes and seconds with
one place.

Seconds are 64-bit floating-point numbers: the whole seconds and the fraction are
rounded each, and their sum again.  What is written is the exact value of the
result, so a half goes to the even neighbour only where the sum is exactly a half,
and `1m60.0s` can be written.
-/
namespace MarkupDesk

open Number

/-- The time that something took. -/
structure Duration where
  nanoseconds : Nat
  deriving DecidableEq, Repr

namespace Duration

/-- The value of the nearest 64-bit number. -/
def rounded (r : Ratio) : Ratio :=
  match double.nearest false r with
  | .finite _ m e => Binary.magnitude m e
  | _ => r

/-- The seconds as a 64-bit number. -/
def seconds (d : Duration) : Ratio :=
  let whole := rounded (Ratio.ofNat (d.nanoseconds / 1000000000))
  let part := rounded ⟨d.nanoseconds % 1000000000, 1000000000, by decide⟩
  rounded (whole.add part)

/-- What is left of a ratio when a whole number is taken away as often as possible. -/
def beyond (r : Ratio) (n : Nat) : Ratio := ⟨r.num % (n * r.den), r.den, r.den_pos⟩

/-- The duration in words. -/
def text (d : Duration) : String :=
  let s := d.seconds
  if s.lt (Ratio.ofNat 1) then toString (d.nanoseconds / 1000000) ++ "ms"
  else if s.lt (Ratio.ofNat 60) then s.fixed 2 ++ "s"
  else
    let minutes := (rounded (s.divNat 60 (by decide))).floor
    toString minutes ++ "m" ++ (beyond s 60).fixed 1 ++ "s"

example : text ⟨1125000000⟩ = "1.12s" := by decide +kernel
example : text ⟨119950000000⟩ = "1m60.0s" := by decide +kernel

end Duration
end MarkupDesk
