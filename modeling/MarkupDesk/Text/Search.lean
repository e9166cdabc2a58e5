/-!
# Finding and removing parts of a text

Fixed words at the front, at the back or at the first place where they occur.
-/
namespace MarkupDesk.Text

/-- What follows `word` if the text starts with it. -/
def after? (word s : List Char) : Option (List Char) := List.isPrefixOf? word s

/-- What precedes `word` if the text ends with it. -/
def before? (word s : List Char) : Option (List Char) := List.isSuffixOf? word s

/-- The text without the first occurrence of `word`, which is not empty; unchanged
if there is none. -/
def removeFirst (word : List Char) : List Char → List Char
  | [] => []
  | c :: rest =>
    match after? word (c :: rest) with
    | some tail => tail
    | none => c :: removeFirst word rest

example : removeFirst "bc".toList "abcbc".toList = "abc".toList := by decide

end MarkupDesk.Text
