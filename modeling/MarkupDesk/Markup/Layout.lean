import MarkupDesk.Markup.Tag

/-!
# Line layout

A formatted document has one tag on each line.  An end tag stands one level
further out than what it follows, what follows a start tag stands one level
further in, and nothing goes further out than the margin.

Every line is written with both brackets around its tag; the outermost bracket at
either end of the document belongs to the first and the last tag already, and is
cut off again (`Chars.unwrap`).
-/
namespace MarkupDesk.Markup

/-- One level of indentation. -/
def indentUnit : String := "  "

/-- What ends a line. -/
def lineEnding : String := "\r\n"

namespace Chars

/-- The indentation of a line at this depth. -/
def indent (depth : Nat) : List Char := (List.replicate depth indentUnit.toList).flatten

/-- The depth at which a tag of this kind stands, where the line before left
`depth`. -/
def depthAt (depth : Nat) : Kind → Nat
  | .closing => depth - 1
  | _ => depth

/-- The depth that a tag of this kind, standing at `depth`, leaves behind. -/
def depthAfter (depth : Nat) : Kind → Nat
  | .opening => depth + 1
  | _ => depth

/-- The line of one tag: its indentation, the tag in brackets, and the line end. -/
def line (depth : Nat) (text : List Char) : List Char :=
  indent depth ++ '<' :: text ++ '>' :: lineEnding.toList

/-- The lines of the tags in order, where the line before left `depth`. -/
def lines (depth : Nat) : List (List Char) → List Char
  | [] => []
  | text :: rest =>
    let here := depthAt depth (kind text)
    line here text ++ lines (depthAfter here (kind text)) rest

/-- Cuts off the first character and the last bracket with its line end, if there
is that much. -/
def unwrap (s : List Char) : List Char :=
  let tail := 1 + lineEnding.toList.length
  if s.length < tail + 1 then [] else (s.take (s.length - tail)).drop 1

/-- The characters of the formatted document. -/
def format (s : List Char) : List Char := unwrap (lines 0 (pieces s))

end Chars

/-- The document with one tag on each line, indented by depth. -/
def format (document : String) : String := String.ofList (Chars.format document.toList)

@[simp] theorem toList_format (document : String) :
    (format document).toList = Chars.format document.toList := by
  simp [format]

example : Chars.format "<a><b><c>t</c></b></a>".toList =
    "<a>\r\n  <b>\r\n    <c>t</c>\r\n  </b>\r\n</a>".toList := by decide

end MarkupDesk.Markup
