import MarkupDesk.Text.Blank

/-!
# Insignificant spacing

A **gap** is a run of blanks directly between a `>` and a `<`.  Gaps, and the
blanks at either end of a document, carry no meaning; every other blank is kept.
`minify` removes exactly these.

The work is done on the characters of the document (`Chars.closeGaps`,
`Chars.minify`); `minify` is the same function on strings.
-/
namespace MarkupDesk.Markup

open Text

/-- Whether the text is a run of blanks, possibly empty, followed by a `<`. -/
def opensAfterBlanks (s : List Char) : Bool := (s.dropWhile isBlank).head? == some '<'

namespace Chars

/-- Removes the gaps.  A `>` swallows the blanks after it when a `<` comes next;
the tail is closed first, which leaves its leading blanks where they are. -/
def closeGaps : List Char → List Char
  | [] => []
  | c :: rest =>
    let tail := closeGaps rest
    if c = '>' ∧ opensAfterBlanks tail = true then c :: tail.dropWhile isBlank else c :: tail

/-- The characters of a document without gaps and without blanks at its ends. -/
def minify (s : List Char) : List Char := trim (closeGaps s)

@[simp] theorem closeGaps_nil : closeGaps [] = [] := rfl

theorem closeGaps_cons_of_ne {c : Char} (h : c ≠ '>') (rest : List Char) :
    closeGaps (c :: rest) = c :: closeGaps rest := by
  simp [closeGaps, h]

example : minify "  <a>\n  <b> 1 </b>\n</a>\n".toList = "<a><b> 1 </b></a>".toList := by decide

end Chars

/-- The document with its insignificant spacing removed. -/
def minify (document : String) : String := String.ofList (Chars.minify document.toList)

@[simp] theorem toList_minify (document : String) :
    (minify document).toList = Chars.minify document.toList := by
  simp [minify]

end MarkupDesk.Markup
