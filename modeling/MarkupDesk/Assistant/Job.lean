/-!
# What the assistant does

Three jobs are given to a text-generating service: to repair a broken document, to
convert a document to JSON, and to make up a sample document.  A job has a prompt
that carries the document, and a language in which the reply may be fenced.
-/
namespace MarkupDesk.Assistant

/-- A job for the assistant. -/
inductive Job where
  | repair
  | convert
  | generate
  deriving DecidableEq, Repr

namespace Job

/-- The name of a job. -/
def name : Job → String
  | .repair => "repair"
  | .convert => "convert"
  | .generate => "generate"

/-- The language of the reply. -/
def language : Job → String
  | .repair | .generate => "xml"
  | .convert => "json"

/-- The prompt of a job on a document; a sample needs none. -/
def prompt : Job → String → String
  | .repair, document =>
    "Fix the following malformed XML. Return ONLY the corrected XML string without any " ++
      "markdown formatting or explanation.\n\nBroken XML:\n" ++ document
  | .convert, document =>
    "Convert the following XML to valid JSON. Handle attributes and nested structures " ++
      "intelligently. Return ONLY the JSON string without markdown.\n\nXML:\n" ++ document
  | .generate, _ =>
    "Generate a complex sample XML document representing a library catalog with books, " ++
      "authors, and genres. Include at least 3 items with attributes. Return ONLY the XML."

end Job
end MarkupDesk.Assistant
