import MarkupDesk.Disk.Path

/-!
# Views and downloads

The output of the desk is shown and exported as XML or as JSON: the view gives it
its title, and the file in which it is exported its name and its media type.
-/
namespace MarkupDesk

/-- What the output is shown as. -/
inductive View where
  | xml
  | json
  deriving DecidableEq, Repr

namespace View

/-- The extension of the exported file. -/
def extension : View → String
  | .xml => "xml"
  | .json => "json"

/-- The media type of the exported file. -/
def mediaType : View → String
  | .xml => "application/xml"
  | .json => "application/json"

/-- The name of the exported file. -/
def fileName (v : View) : String := "formatted." ++ v.extension

/-- The title of the output. -/
def title : View → String
  | .xml => "XML Output"
  | .json => "JSON Output"

end View

/-- A file that is offered for export. -/
structure Download where
  fileName : String
  mediaType : String
  content : String
  deriving DecidableEq, Repr

/-- The path of a download in a directory. -/
def Download.pathIn (d : Download) (directory : String) : String :=
  Path.join directory d.fileName

/-- The extensions of files that can be loaded. -/
def loadableExtensions : List String := ["xml", "txt"]

/-- Whether a file can be loaded; the case of its extension does not matter. -/
def isLoadable (path : String) : Bool :=
  match Path.extension? path with
  | some extension => loadableExtensions.contains (extension.map Char.toLower)
  | none => false

example : isLoadable "notes/a.XML/" = true ∧ isLoadable ".xml" = false := by decide +kernel

end MarkupDesk
