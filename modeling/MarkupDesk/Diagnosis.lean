import MarkupDesk.Text.Blank
import MarkupDesk.Text.Digit
import MarkupDesk.Text.Search

/-!
# Diagnoses

A checker that rejects a document explains itself in free text.  A `Diagnosis` is
what the library keeps of it: a line number, where the text names one, and the
message without the boilerplate phrase that some checkers put in front.

The line is taken from the leftmost mention of the word "line" (in any case)
followed by blanks and decimal digits.  The digits are those of any script, but
only a run of ASCII digits with a value below 2^32 is a line number; otherwise
the line is 0, which stands for "unknown".
-/
namespace MarkupDesk

open Text

/-- Why a document was rejected, and on which line; line 0 is an unknown line. -/
structure Diagnosis where
  line : Nat
  message : String
  deriving DecidableEq, Repr

namespace Diagnosis

/-- The phrase that is left out of a message. -/
def boilerplate : String := "This page contains the following errors:"

/-- What is reported when the checker gives no reason. -/
def unknownReason : String := "Unknown parsing error"

/-- What follows the word "line", in upper or lower case, if the text starts with it. -/
def afterWordLine : List Char → Option (List Char)
  | l :: i :: n :: e :: rest =>
    if [l, i, n, e].map Char.toLower = ['l', 'i', 'n', 'e'] then some rest else none
  | _ => none

/-- The digits of a line mention at the start of the text: the word, at least one
blank, and the longest run of decimal digits, which must not be empty. -/
def mention (s : List Char) : Option (List Char) :=
  match afterWordLine s with
  | none => none
  | some rest =>
    let digits := (rest.dropWhile isBlank).takeWhile isDecimalDigit
    if (rest.takeWhile isBlank).isEmpty || digits.isEmpty then none else some digits

/-- The digits of the leftmost line mention. -/
def firstMention : List Char → Option (List Char)
  | [] => none
  | c :: rest =>
    match mention (c :: rest) with
    | some digits => some digits
    | none => firstMention rest

/-- The line that a text mentions first, 0 if it names none that fits in 32 bits. -/
def lineOf (text : List Char) : Nat :=
  ((firstMention text).bind (readBelow UInt32.size)).getD 0

/-- Reads a checker's text. -/
def ofText (text : String) : Diagnosis :=
  let reason := if text = "" then unknownReason else text
  ⟨lineOf reason.toList,
    String.ofList (trim (removeFirst boilerplate.toList reason.toList))⟩

/-- Whether the line is known. -/
def hasLine (d : Diagnosis) : Bool := 0 < d.line

example : lineOf "error on LINE\t12 at column 3".toList = 12 := by decide
example : lineOf "line 4294967296, then line 7".toList = 0 := by decide

end Diagnosis

/-- A checker answers a rejected document with a text, and an accepted one with
nothing. -/
abbrev Checker := String → Option String

/-- The diagnosis of a document, none if the checker accepts it. -/
def Checker.diagnose (check : Checker) (document : String) : Option Diagnosis :=
  (check document).map Diagnosis.ofText

end MarkupDesk
