import MarkupDesk.Markup.Spacing

/-!
# Tags

A document without gaps is read as a sequence of **tags**: the texts between the
places where a `>` meets a `<`.  The two brackets of such a place belong to
neither neighbour, so the first tag keeps its own `<` and the last one its own
`>`.  There is no tree here: a tag is a text and the kind that its text shows.

`Chars.pieces` cuts, `Chars.kind` classifies, `tags` does both on strings.
-/
namespace MarkupDesk.Markup

open Text

/-- What the text of a tag says about its role.  A `comment` is anything that
starts with `!`, document type declarations and character data included; `other`
is what fits nowhere, an element with its text in one piece for instance. -/
inductive Kind where
  | closing
  | opening
  | selfClosing
  | declaration
  | comment
  | other
  deriving DecidableEq, Repr

/-- The ASCII characters of a name: letters, digits and the underscore. -/
def isWord (c : Char) : Bool := c.isAlphanum || c == '_'

namespace Chars

/-- Cuts a text at every `>` that is followed by a `<`, with or without blanks in
between: the first piece, and the others in order. -/
def cut : List Char → List Char × List (List Char)
  | [] => ([], [])
  | c :: rest =>
    let (first, others) := cut rest
    if c = '>' ∧ opensAfterBlanks first = true then
      ([], (first.dropWhile isBlank).drop 1 :: others)
    else
      (c :: first, others)

/-- The tag texts of a document, of which there is always at least one. -/
def pieces (s : List Char) : List (List Char) :=
  (cut (minify s)).1 :: (cut (minify s)).2

/-- Whether the text is that of an end tag: a slash and a word character. -/
def closes : List Char → Bool
  | '/' :: c :: _ => isWord c
  | _ => false

/-- The text without the `<` that only the first tag of a document still has. -/
def body : List Char → List Char
  | '<' :: rest => rest
  | s => s

/-- Whether the text is that of a start tag: a word character, and then no `>`
except possibly at the very end, where no slash may stand. -/
def opens : List Char → Bool
  | [] => false
  | c :: rest =>
    isWord c && (rest.isEmpty || (rest.getLast? != some '/' && !rest.dropLast.contains '>'))

/-- Whether the text, without the `>`s at its end, ends in a slash. -/
def selfCloses (s : List Char) : Bool := (s.reverse.dropWhile (· == '>')).head? == some '/'

/-- The kind of a tag with this text. -/
def kind (s : List Char) : Kind :=
  if closes s then .closing
  else if (body s).head? = some '?' then .declaration
  else if (body s).head? = some '!' then .comment
  else if opens (body s) then .opening
  else if selfCloses s then .selfClosing
  else .other

example : pieces "<root><item>1</item> </root>".toList =
    ["<root".toList, "item>1</item".toList, "/root>".toList] := by decide

example : kind "b x=\"1\" /".toList = .selfClosing ∧ kind "item>1</item".toList = .other := by
  decide

end Chars

/-- A tag of a document. -/
structure Tag where
  text : String
  deriving DecidableEq, Repr

/-- The kind that the text of the tag shows. -/
def Tag.kind (t : Tag) : Kind := Chars.kind t.text.toList

/-- The tags of a document, in order. -/
def tags (document : String) : List Tag :=
  (Chars.pieces document.toList).map fun s => ⟨String.ofList s⟩

end MarkupDesk.Markup
