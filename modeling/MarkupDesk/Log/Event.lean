import MarkupDesk.Assistant.Reply
import MarkupDesk.CommandLine.Invocation
import MarkupDesk.Diagnosis
import MarkupDesk.Log.Basic
import MarkupDesk.Web.Status
import MarkupDesk.Workspace.Notice

/-!
# What is logged

An `Event` is something that the log keeps a record of.  Its origin and its text are
functions of it.  Records of others, which the program passes on, are events as well.
-/
namespace MarkupDesk.Log

open Assistant (Job Usage)
open CommandLine

/-- Something that the log keeps a record of. -/
inductive Event where
  | settingsLoaded (model : String) (timeout : Nat)
  /-- A document was read from a file, with this number of bytes. -/
  | loaded (path : String) (size : Nat)
  /-- The checker has rejected a document. -/
  | rejected (diagnosis : Diagnosis)
  /-- The status line has changed. -/
  | noticed (notice : Notice)
  /-- A job is given to the assistant. -/
  | assigned (job : Job) (model : String)
  | posted (url : String)
  /-- A reply came back with this status. -/
  | answered (url : String) (status : Nat)
  /-- The reply was a refusal. -/
  | refused (url : String) (status : Nat) (text : String)
  /-- The reply could not be read, for what the reader says. -/
  | unreadable (url reason : String)
  | used (usage : Usage)
  /-- The candidate ended for a reason of its own. -/
  | stopped (reason : String)
  /-- The assistant has failed at a job. -/
  | failed (job : Job) (cause : String)
  | saved (path mediaType : String)
  /-- The operation of the command is over. -/
  | finished (command : Command) (status : Status)
  /-- A record of another program that this one uses. -/
  | foreign (record : Record)
  deriving DecidableEq, Repr

namespace Event

/-- Where the record of an event comes from. -/
def origin : Event → Origin
  | .settingsLoaded _ _ => ⟨.debug, "xml_studio", ["message", "model", "timeout"]⟩
  | .loaded _ _ => { severity := .info, part := "xml_studio::session" }
  | .rejected _ => ⟨.debug, "xml_studio::validator", ["message", "line", "message"]⟩
  | .noticed _ => ⟨.debug, "xml_studio::session", ["message", "status", "message"]⟩
  | .assigned _ _ => { severity := .info, part := "xml_studio::ai::gemini" }
  | .posted _ | .answered _ _ => { severity := .debug, part := "xml_studio::http_client" }
  | .refused _ _ _ | .unreadable _ _ => { severity := .error, part := "xml_studio::http_client" }
  | .used _ => { severity := .debug, part := "xml_studio::ai::gemini" }
  | .stopped _ => { severity := .warn, part := "xml_studio::ai::gemini" }
  | .failed _ _ => { severity := .warn, part := "xml_studio::session" }
  | .saved _ _ => { severity := .debug, part := "xml_studio::session" }
  | .finished _ _ => { severity := .info, part := "xml_studio" }
  | .foreign record => record.origin

/-! ## Texts -/

/-- The hexadecimal digits of the code of a character. -/
def codeText (c : Char) : String := String.ofList (Nat.toDigits 16 c.toNat)

/-- A character in quotes.  What `shows` says about the characters beyond ASCII is whether
they stand for themselves. -/
def escaped (shows : Char → Bool) (c : Char) : String :=
  match c with
  | '\x00' => "\\0"
  | '\t' => "\\t"
  | '\r' => "\\r"
  | '\n' => "\\n"
  | '\x27' => "\\'"
  | '"' => "\\\""
  | '\\' => "\\\\"
  | _ =>
    let plain := if c.toNat < 0x80 then 0x20 ≤ c.toNat && c.toNat != 0x7F else shows c
    if plain then c.toString else "\\u\x7b" ++ codeText c ++ "\x7d"

/-- A path in quotes. -/
def quoted (shows : Char → Bool) (path : String) : String :=
  "\"" ++ String.join (path.toList.map (escaped shows)) ++ "\""

/-- A value that may be missing. -/
def optional {α : Type} (text : α → String) : Option α → String
  | none => "None"
  | some a => "Some(" ++ text a ++ ")"

/-- The word for a status. -/
def statusName : Status → String
  | .idle => "Idle"
  | .success => "Success"
  | .error => "Error"
  | .loading => "Loading"

/-- The word for a transformation. -/
def transformName : Transform → String
  | .format => "Format"
  | .minify => "Minify"
  | .repair => "Repair"
  | .convert => "Convert"

/-- A command with the paths it was given. -/
def commandText (shows : Char → Bool) (command : Command) : String :=
  let path := optional (quoted shows)
  let input := "InputArgs \x7b input: " ++ path command.input ++ " \x7d"
  match command with
  | .validate _ => "Validate(" ++ input ++ ")"
  | .transform kind _ directory =>
    transformName kind ++ "(TransformArgs \x7b input: " ++ input ++ ", output: " ++
      path directory ++ " \x7d)"
  | .generate => "Generate"

/-- A status code with its phrase. -/
def codeWithPhrase (code : Nat) : String :=
  toString code ++ " " ++ (Web.reasonPhrases.lookup code).getD "<unknown status code>"

/-- What a job is called when it has failed. -/
def jobName : Job → String
  | .repair => "repair"
  | .convert => "conversion"
  | .generate => "sample generation"

/-- The text of the record of an event. -/
def text (shows : Char → Bool) : Event → String
  | .settingsLoaded model timeout => s!"configuration loaded model={model} timeout={timeout}"
  | .loaded path size => s!"Loaded {path} ({size} bytes)"
  | .rejected diagnosis => s!"document rejected line={diagnosis.line} {diagnosis.message}"
  | .noticed notice => s!"status changed status={statusName notice.status} {notice.text}"
  | .assigned job model => s!"Sending {job.name} request to {model}"
  | .posted url => s!"POST {url}"
  | .answered url status => s!"Response status from {url}: {codeWithPhrase status}"
  | .refused url status text => s!"Request to {url} failed: {codeWithPhrase status} - {text}"
  | .unreadable url reason => s!"Failed to decode response from {url}: {reason}"
  | .used usage =>
    let count := optional fun n : Nat => toString n
    s!"Gemini API usage - Prompt: {count usage.prompt} tokens, " ++
      s!"Response: {count usage.candidates} tokens, Total: {count usage.total} tokens"
  | .stopped reason => s!"Gemini candidate finished with reason {reason}"
  | .failed job cause => s!"AI {jobName job} failed: {cause}"
  | .saved path mediaType => s!"Saved {path} ({mediaType})"
  | .finished command status =>
    s!"{commandText shows command} finished with status {statusName status}"
  | .foreign record => record.text

/-- The record of an event. -/
def record (shows : Char → Bool) (e : Event) : Record := ⟨e.origin, e.text shows⟩

end Event
end MarkupDesk.Log
