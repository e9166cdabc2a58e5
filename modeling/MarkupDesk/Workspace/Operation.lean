import MarkupDesk.Assistant.Error
import MarkupDesk.Disk.Basic
import MarkupDesk.Failure
import MarkupDesk.Markup.Layout
import MarkupDesk.Workspace.Basic

/-!
# Operations

What can be done on a workspace.  An operation that needs an answer from outside does
not look for it: it says what it wants to know, and how it goes on (`Step`).  So it is
visible in its type that an operation asks one question at most, and in its definition
which document it asks about.

* `validate`, `format`, `minify` and `load` ask the checker.
* `assist` asks the assistant, and has a state in which it waits.
* None of them does anything with a blank document, apart from `load`, and apart from
  the sample that the assistant makes up.
-/
namespace MarkupDesk

/-- How an operation goes on. -/
inductive Step where
  /-- It is over. -/
  | done (w : Workspace)
  /-- It asks the checker about a document. -/
  | check (document : String) (resume : Option Diagnosis → Workspace)
  /-- It gives a document to the assistant, and stays as it is until the answer comes. -/
  | assist (job : Assistant.Job) (document : String) (waiting : Workspace)
      (resume : Except Assistant.Error String → Workspace)

namespace Workspace

/-- The workspace with another document.  What was found out about the old one is kept. -/
def setInput (w : Workspace) (text : String) : Workspace := { w with input := text }

/-! ## Checking -/

/-- Checks the document and goes on with what the check says, unless it is blank. -/
def checked (w : Workspace) (resume : Option Diagnosis → Workspace) : Step :=
  if w.isBlank then .done w else .check w.input resume

/-- Checks the document. -/
def validate (w : Workspace) : Step :=
  w.checked fun
    | some d => { w with diagnosis := some d, notice := .rejected d.message }
    | none => { w with diagnosis := none, notice := .wellFormed }

/-- The workspace with this XML as its output. -/
def withOutput (w : Workspace) (xml : String) (notice : Notice) : Workspace :=
  { w with output := xml, view := .xml, diagnosis := none, notice := notice }

/-- Lays out the document, if it passes the check. -/
def format (w : Workspace) : Step :=
  w.checked fun
    | some d => { w with diagnosis := some d, notice := .rejected d.message }
    | none => w.withOutput (Markup.format w.input) .formatted

/-- Minifies the document, if it passes the check. -/
def minify (w : Workspace) : Step :=
  w.checked fun
    | some d => { w with diagnosis := some d, notice := .notMinified }
    | none => w.withOutput (Markup.minify w.input) .minified

/-! ## The assistant -/

/-- The workspace with the result of a job.  A repaired document takes the place of the
broken one and is laid out; the view stays.  Converted text is output as it is.  A
sample is new input, for which there is no output yet. -/
def withResult (w : Workspace) (job : Assistant.Job) (result : String) : Workspace :=
  match job with
  | .repair =>
    { w with
      input := result, output := Markup.format result, diagnosis := none
      notice := .completed job }
  | .convert => { w with output := result, view := .json, notice := .completed job }
  | .generate => { w with input := result, output := "", diagnosis := none, notice := .completed job }

/-- The document that goes with a job; a sample needs none. -/
def document (w : Workspace) : Assistant.Job → String
  | .generate => ""
  | _ => w.input

/-- Gives the document to the assistant, unless it is blank where one is needed.  Of a
failure nothing is kept but that there was one. -/
def assist (w : Workspace) (job : Assistant.Job) : Step :=
  if job ≠ .generate ∧ w.isBlank then .done w
  else
    .assist job (w.document job) (w.note (.waiting job)) fun
      | .ok result => w.withResult job result
      | .error _ => w.note (.failed job)

/-! ## Files and the clipboard -/

/-- Loads a file as the document.  If it passes the check it is laid out; the view, the
status line and the diagnosis stay. -/
def load (w : Workspace) (disk : Disk) (path : String) : Except Failure Step :=
  if !isLoadable path then .error (.unsupportedFile path)
  else
    match disk.readText path with
    | .error fault => .error (.io fault)
    | .ok text =>
      .ok <| .check text fun
        | some _ => { w with input := text }
        | none => { w with input := text, output := Markup.format text }

/-- Saves the output. -/
def save (w : Workspace) (target : Download → Except Fault Unit) : Except Failure Download :=
  match w.download? with
  | none => .error .noOutput
  | some d =>
    match target d with
    | .ok () => .ok d
    | .error fault => .error (.io fault)

end Workspace
end MarkupDesk
