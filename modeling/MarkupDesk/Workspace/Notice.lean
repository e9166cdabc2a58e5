import MarkupDesk.Assistant.Job

/-!
# The status line

What the desk says about the last thing that was done.  A `Notice` is what happened;
its status and its text are functions of it, so the two cannot get out of step.
-/
namespace MarkupDesk

/-- How the last operation stands. -/
inductive Status where
  | idle
  | success
  | error
  | loading
  deriving DecidableEq, Repr

/-- What the status line reports. -/
inductive Notice where
  /-- Nothing has been done yet. -/
  | none
  | wellFormed
  /-- The document was rejected with this message. -/
  | rejected (message : String)
  | formatted
  | minified
  /-- The document was rejected, and therefore not minified. -/
  | notMinified
  /-- The assistant is at work. -/
  | waiting (job : Assistant.Job)
  | completed (job : Assistant.Job)
  | failed (job : Assistant.Job)
  deriving DecidableEq, Repr

namespace Notice

/-- The status that a notice reports.  A sample that was made up is nothing but new
input, so the desk is idle again. -/
def status : Notice → Status
  | .none => .idle
  | .wellFormed | .formatted | .minified => .success
  | .rejected _ | .notMinified => .error
  | .waiting _ => .loading
  | .completed .generate => .idle
  | .completed _ => .success
  | .failed _ => .error

/-- The text of the status line. -/
def text : Notice → String
  | .none => ""
  | .wellFormed => "XML is well-formed"
  | .rejected message => "Invalid XML: " ++ message
  | .formatted => "XML formatted successfully"
  | .minified => "XML minified"
  | .notMinified => "Cannot minify invalid XML"
  | .waiting .repair => "AI is analyzing and repairing your XML..."
  | .waiting .convert => "AI is converting XML to JSON..."
  | .waiting .generate => "Generating sample data..."
  | .completed .repair => "XML repaired by Gemini AI"
  | .completed .convert => "Converted to JSON successfully"
  | .completed .generate => "Sample loaded"
  | .failed .repair => "AI Repair failed. Please check your API Key."
  | .failed .convert => "Conversion failed"
  | .failed .generate => "Failed to generate sample"

end Notice
end MarkupDesk
