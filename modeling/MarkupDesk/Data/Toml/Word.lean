import MarkupDesk.Data.Toml.Date
import MarkupDesk.Data.Toml.Number

/-!
# The bare words of a TOML document

A value without quotes, brackets or braces is one word: a truth value, a date or a
number.  The word is cut off first (`bareWord`) and then read whole (`wordValue`).
-/
namespace MarkupDesk.Toml

/-- A character at which a bare word ends. -/
def endsWord (c : Char) : Bool := "=,[]\x7b\x7d# \t\r\n".toList.contains c

/-- Cuts off a bare word.  The blank between a date and a time of day is part of it. -/
def bareWord (s : List Char) : List Char × List Char :=
  let isPart := fun c => !endsWord c
  let first := s.takeWhile isPart
  match s.dropWhile isPart with
  | ' ' :: d :: rest =>
    if isDate first ∧ first.length = 10 ∧ d.isDigit then
      (first ++ ' ' :: (d :: rest).takeWhile isPart, (d :: rest).dropWhile isPart)
    else (first, ' ' :: d :: rest)
  | rest => (first, rest)

/-- The value of a bare word.  A date is data that no reader here asks for: a record with
a nameless field. -/
def wordValue (s : List Char) : Option Datum :=
  if s = "true".toList then some (.bool true)
  else if s = "false".toList then some (.bool false)
  else if isDate s then some (.record [(some "", .null)])
  else number? s

end MarkupDesk.Toml
