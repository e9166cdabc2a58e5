import MarkupDesk.Text.Digit

/-!
# Paths

A path is a string whose parts are separated by slashes.  Empty parts and the part
`.` are skipped, so a slash at the end of a path does not show.  The name of a file
is the last part that is left, and its extension is what follows the last point of
the name; a name whose only point is its first character has none.
-/
namespace MarkupDesk.Path

/-- The parts of a path, the skipped ones included. -/
def segments (path : String) : List (List Char) := path.toList.splitOn '/'

/-- Whether a part is skipped. -/
def isSkipped (segment : List Char) : Bool := segment.isEmpty || segment == ['.']

/-- The parts of a path that count. -/
def parts (path : String) : List (List Char) :=
  (segments path).filter fun s => !isSkipped s

/-- The part that leads back to the directory above. -/
def up : List Char := ['.', '.']

/-- The name of the file, if the path ends in one. -/
def fileName? (path : String) : Option (List Char) :=
  match (parts path).getLast? with
  | some name => if name = up then none else some name
  | none => none

/-- The extension of a name: what follows its last point, unless that is its first
character. -/
def extensionOf? (name : List Char) : Option (List Char) :=
  let tail := name.reverse.takeWhile (· != '.')
  if tail.length + 1 < name.length then some tail.reverse else none

/-- The extension of the file that a path names. -/
def extension? (path : String) : Option String :=
  ((fileName? path).bind extensionOf?).map String.ofList

/-- Whether a path is relative and has this one part. -/
def isJust (part : List Char) (path : String) : Bool :=
  (segments path).head? == some part && parts path == [part]

/-- The path of a file in a directory. -/
def join (directory name : String) : String :=
  if directory = "" ∨ directory.toList.getLast? = some '/' then directory ++ name
  else directory ++ "/" ++ name

example : extension? "a/b.tar.gz/." = some "gz" ∧ extension? "a/.xml" = none := by decide
example : isJust ['-'] "-/" = true ∧ isJust ['-'] "./-" = false := by decide

end MarkupDesk.Path
