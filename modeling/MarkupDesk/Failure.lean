import MarkupDesk.Assistant.Error
import MarkupDesk.Diagnosis
import MarkupDesk.Parser.Report
import MarkupDesk.Settings.Error

/-!
# Failures

Why the program could not do what it was asked to, whatever part of it failed, with
the wording of each cause and the chain of causes behind it.
-/
namespace MarkupDesk

/-- Why something could not be done. -/
inductive Failure where
  | io (fault : Fault)
  | invalidXml (diagnosis : Diagnosis)
  | noInput
  | noOutput
  | unsupportedFile (path : String)
  | assistant (error : Assistant.Error)
  | settings (message : String)
  | parser (details : String)
  deriving DecidableEq, Repr

namespace Failure

/-- The wording of a failure. -/
def message : Failure → String
  | .io fault => s!"IO error: {fault.message}"
  | .invalidXml diagnosis => s!"Invalid XML: {diagnosis.message}"
  | .noInput => "No XML input provided"
  | .noOutput => "Nothing to export: output is empty"
  | .unsupportedFile path => s!"Unsupported file type: {path} - expected .xml or .txt"
  | .assistant error => s!"AI operation failed: {error.message}"
  | .settings message => s!"Configuration error: {message}"
  | .parser details => s!"LibXML2 internal error: {details}"

/-- The failure that an error about settings amounts to. -/
def ofSettings (e : SettingsError) : Failure := .settings e.message

/-- The failure that a document of excessive size amounts to. -/
def ofTooLarge (e : Engine.TooLarge) : Failure := .parser e.message

/-- The wording of a failure and of the causes behind it. -/
def chain (f : Failure) : List String :=
  match f with
  | .io fault => [f.message, fault.message]
  | .assistant error => [f.message, error.message]
  | _ => [f.message]

end Failure

/-- The failure if the checker rejects a document. -/
def Checker.ensure (check : Checker) (document : String) : Except Failure Unit :=
  match check.diagnose document with
  | some diagnosis => .error (.invalidXml diagnosis)
  | none => .ok ()

end MarkupDesk
