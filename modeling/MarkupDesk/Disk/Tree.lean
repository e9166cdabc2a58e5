import MarkupDesk.Disk.Basic

/-!
# File trees

A file system in memory: the files and directories below the working directory,
by their parts.  Outside of the working directory there are directories without
visible entries: its ancestors, and the root.

`Tree.disk` is the tree as the program sees it.
-/
namespace MarkupDesk

/-- The files of a tree with their contents, and its directories.  The working
directory itself has the empty list of parts and always exists. -/
structure Tree where
  files : List (List (List Char) × ByteArray)
  directories : List (List (List Char))

namespace Tree

/-- The tree without files. -/
def empty : Tree := ⟨[], []⟩

/-- The places along the parts of a path, each by its own parts: first the one where the
path begins, last the one where it ends. -/
def route (start : List (List Char)) : List (List Char) → List (List (List Char))
  | [] => [start]
  | part :: rest =>
    start :: route (if part = Path.up then start.dropLast else start ++ [part]) rest

example : route [] (Path.parts "d/../x") = [[], [['d']], [], [['x']]] := by decide

/-- Adds a directory and those on the way. -/
def addDirectory (tree : Tree) (path : String) : Tree :=
  { tree with directories := route [] (Path.parts path) ++ tree.directories }

/-- Adds a file, or replaces its content, and adds the directories on the way. -/
def write (tree : Tree) (path : String) (content : ByteArray) : Tree :=
  let places := route [] (Path.parts path)
  let place := places.getLastD []
  { files := (place, content) :: tree.files.filter (·.1 != place)
    directories := places.dropLast ++ tree.directories }

/-- A place that a path can lead to. -/
inductive Place where
  | outside
  | directory (parts : List (List Char))
  | file (content : ByteArray)

/-- The entry of a directory with this name. -/
def entry? (tree : Tree) (parts : List (List Char)) : Option Place :=
  match tree.files.lookup parts with
  | some content => some (.file content)
  | none => if tree.directories.contains parts then some (.directory parts) else none

/-- The number of bytes from which on a path is too long. -/
def pathLimit : Nat := 4096

/-- Whether a name is too long for an entry of a directory: it has more than 255 bytes. -/
def isTooLong (name : List Char) : Bool := 255 < (String.ofList name).utf8ByteSize

/-- Goes from a place along the segments of a path. -/
def walk (tree : Tree) : Place → List (List Char) → Except Fault Place
  | place, [] => .ok place
  | .file _, _ :: _ => .error .notDirectory
  | .outside, segment :: rest =>
    if Path.isSkipped segment || segment == Path.up then walk tree .outside rest
    else if isTooLong segment then .error .nameTooLong
    else .error .notFound
  | .directory parts, segment :: rest =>
    if Path.isSkipped segment then walk tree (.directory parts) rest
    else if segment = Path.up then
      walk tree (if parts.isEmpty then .outside else .directory parts.dropLast) rest
    else if isTooLong segment then .error .nameTooLong
    else
      match tree.entry? (parts ++ [segment]) with
      | some place => walk tree place rest
      | none => .error .notFound

/-- The place that a path leads to. -/
def locate (tree : Tree) (path : String) : Except Fault Place :=
  if path = "" then .error .notFound
  else if path.toList.contains '\x00' then
    .error (.other "file name contained an unexpected NUL byte")
  else if pathLimit ≤ path.utf8ByteSize then .error .nameTooLong
  else
    let start := if path.toList.head? = some '/' then Place.outside else .directory []
    walk tree start (Path.segments path)

/-- What a path leads to. -/
def find (tree : Tree) (path : String) : Found :=
  match tree.locate path with
  | .ok (.file content) => .file content
  | .ok _ => .directory
  | .error fault => .nothing fault

/-- The path of the directory in which the last segment of a path stands. -/
def above (path : String) : String :=
  let segments := (Path.segments path).dropLast
  if segments = [] then "."
  else if segments = [[]] then "/"
  else String.ofList (['/'].intercalate segments)

/-- Why no file can be written at a path: it is a directory, its name is too long, or its
directory is missing or is none. -/
def refusal (tree : Tree) (path : String) : Option Fault :=
  match tree.find path with
  | .file _ | .unreadable _ => none
  | .directory => some .isDirectory
  | .nothing .nameTooLong => some .nameTooLong
  | .nothing fault =>
    if path = "" then some fault
    else
      match tree.locate (above path) with
      | .ok (.directory _) => none
      | .ok .outside => some (.other "Permission denied (os error 13)")
      | .ok (.file _) => some .notDirectory
      | .error fault => some fault

/-- The tree as the program sees it. -/
def disk (tree : Tree) : Disk := ⟨tree.find, tree.refusal⟩

end Tree
end MarkupDesk
