import MarkupDesk.Disk.Path
import MarkupDesk.Text.Utf8

/-!
# The disk

What the program sees of a file system is a function: what a path leads to, and
whether a file can be written there.  `readText` reads a file as text, which is
the only way in which files are read here.

A `Fault` is what the system says when something cannot be done.
-/
namespace MarkupDesk

/-- Why an operation of the system failed. -/
inductive Fault where
  | notFound
  | notDirectory
  | isDirectory
  | nameTooLong
  | notText
  /-- Bytes that are no text, from a source that says where. -/
  | notUtf8 (fault : Text.Utf8.Fault)
  /-- Any other cause, in its own words. -/
  | other (message : String)
  deriving DecidableEq, Repr

/-- The wording of a fault. -/
def Fault.message : Fault → String
  | .notFound => "No such file or directory (os error 2)"
  | .notDirectory => "Not a directory (os error 20)"
  | .isDirectory => "Is a directory (os error 21)"
  | .nameTooLong => "File name too long (os error 36)"
  | .notText => "stream did not contain valid UTF-8"
  | .notUtf8 fault => fault.message
  | .other message => message

/-- What a path leads to. -/
inductive Found where
  | file (content : ByteArray)
  | directory
  /-- Something is there that cannot be read. -/
  | unreadable (fault : Fault)
  | nothing (fault : Fault)

/-- A file system as the program sees it. -/
structure Disk where
  /-- What a path leads to. -/
  find : String → Found
  /-- Why no file can be written at a path, none if it can. -/
  refusal : String → Option Fault

namespace Disk

/-- Whether a path leads anywhere. -/
def has (disk : Disk) (path : String) : Bool :=
  match disk.find path with
  | .nothing _ => false
  | _ => true

/-- Whether a path leads to a directory. -/
def hasDirectory (disk : Disk) (path : String) : Bool :=
  match disk.find path with
  | .directory => true
  | _ => false

/-- Reads a file as text. -/
def readText (disk : Disk) (path : String) : Except Fault String :=
  match disk.find path with
  | .file content =>
    match Text.Utf8.decode? content with
    | some text => .ok text
    | none => .error .notText
  | .directory => .error .isDirectory
  | .unreadable fault => .error fault
  | .nothing fault => .error fault

end Disk
end MarkupDesk
