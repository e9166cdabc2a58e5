import MarkupDesk.Text.Digit
import MarkupDesk.Text.Search

/-!
# The dates of a TOML document

A date, a time of day, or both with or without an offset from universal time.  No
reader here asks for the value of a date, so it is only recognised (`isDate`).
-/
namespace MarkupDesk.Toml

open Text

/-- Reads a number of exactly this many digits within bounds. -/
def clockDigits (count low high : Nat) (s : List Char) : Option (Nat × List Char) :=
  let digits := s.take count
  let n := decimalValue digits
  if digits.length = count ∧ digits.all Char.isDigit ∧ low ≤ n ∧ n ≤ high then
    some (n, s.drop count)
  else none

/-- The length of a month. -/
def monthLength (year month : Nat) : Nat :=
  if month = 2 then
    if year % 4 = 0 ∧ (year % 100 ≠ 0 ∨ year % 400 = 0) then 29 else 28
  else if month = 4 ∨ month = 6 ∨ month = 9 ∨ month = 11 then 30
  else 31

/-- What follows a date. -/
def afterDate? (s : List Char) : Option (List Char) := do
  let (year, s) ← clockDigits 4 0 9999 s
  let s ← after? ['-'] s
  let (month, s) ← clockDigits 2 1 12 s
  let s ← after? ['-'] s
  let (_, s) ← clockDigits 2 1 (monthLength year month) s
  some s

/-- What follows a time of day; the seconds and their fraction may be missing. -/
def afterTime? (s : List Char) : Option (List Char) := do
  let (_, s) ← clockDigits 2 0 23 s
  let s ← after? [':'] s
  let (_, s) ← clockDigits 2 0 59 s
  match s with
  | ':' :: r =>
    let (_, r) ← clockDigits 2 0 60 r
    match r with
    | '.' :: f => if (f.takeWhile Char.isDigit).isEmpty then none else some (f.dropWhile Char.isDigit)
    | r => some r
  | s => some s

/-- What follows an offset from universal time. -/
def afterOffset? : List Char → Option (List Char)
  | c :: rest =>
    if c = 'Z' ∨ c = 'z' then some rest
    else if c = '+' ∨ c = '-' then do
      let (_, s) ← clockDigits 2 0 23 rest
      let s ← after? [':'] s
      let (_, s) ← clockDigits 2 0 59 s
      some s
    else none
  | [] => none

/-- Whether a word is a date, a time of day, or both with or without an offset. -/
def isDate (s : List Char) : Bool :=
  match afterDate? s with
  | some [] => true
  | some (c :: rest) =>
    (c == 'T' || c == 't' || c == ' ') &&
      match afterTime? rest with
      | some [] => true
      | some tail => afterOffset? tail == some []
      | none => false
  | none => afterTime? s == some []

example : isDate "1979-05-27 07:32Z".toList = true ∧ isDate "1979-02-29".toList = false := by decide

end MarkupDesk.Toml
