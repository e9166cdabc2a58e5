import MarkupDesk.Diagnosis
import MarkupDesk.Text.Blank
import MarkupDesk.Workspace.Notice
import MarkupDesk.Workspace.View

/-!
# The workspace

The state of the desk: the document that is worked on, the output, how the output is
shown, the status line, and the diagnosis that is kept from the last check.
-/
namespace MarkupDesk

/-- The state of the desk. -/
structure Workspace where
  input : String := ""
  output : String := ""
  notice : Notice := .none
  view : View := .xml
  /-- The diagnosis of the last rejected document, until another check takes it back. -/
  diagnosis : Option Diagnosis := none
  deriving DecidableEq, Repr

namespace Workspace

/-- The status of the desk. -/
def status (w : Workspace) : Status := w.notice.status

/-- Whether the desk waits for the assistant. -/
def isBusy (w : Workspace) : Bool := w.status == .loading

/-- Whether a repair is offered: there is something wrong, or nothing there yet. -/
def offersRepair (w : Workspace) : Bool := w.diagnosis.isSome || w.input == ""

/-- Whether there is nothing to work on. -/
def isBlank (w : Workspace) : Bool := Text.isBlankText w.input

/-- The workspace with another status line. -/
def note (w : Workspace) (notice : Notice) : Workspace := { w with notice := notice }

/-- The output as a file, unless it is empty. -/
def download? (w : Workspace) : Option Download :=
  if w.output = "" then none else some ⟨w.view.fileName, w.view.mediaType, w.output⟩

end Workspace
end MarkupDesk
