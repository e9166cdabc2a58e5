import MarkupDesk.Diagnosis
import MarkupDesk.Log.Basic
import MarkupDesk.Text.Utf8

/-!
# Parser reports

The checker in use is an XML parser that works on memory.  It is known here only
by its behaviour on a document, an `Engine.Report`: the error events that it
raised, the error that it remembers afterwards, and whether it built a tree.

`read` turns a report into an `Outcome`.  A tree means acceptance, whatever was
reported on the way.  Otherwise the outcome lists the complaints of the events,
or that of the remembered error if there was no event.  Two kinds of document
never reach the parser: an empty one, and one whose size does not fit its size
type.

`check` is the checker that results: the first complaint that is an error, or
else the first complaint, is the reason given.  `log` is what it logs meanwhile.
-/
namespace MarkupDesk.Engine

open Text

/-- An error as the parser describes it.  The message is a byte string that a zero
byte ends, and may be missing. -/
structure Event where
  level : Int
  line : Int
  column : Int
  message : Option (List UInt8)
  deriving DecidableEq, Repr

/-- The parser's behaviour on one document.  An event may be void; the remembered
error comes with its code. -/
structure Report where
  builtTree : Bool
  events : List (Option Event)
  remembered : Option (Int × Event)
  deriving DecidableEq, Repr

/-- The report about a document that is accepted in silence. -/
def Report.acceptance : Report := ⟨true, [], none⟩

/-- The report about a document that is given up at one place, which is written as the
line, the column and the message with colons between them. -/
def Report.ofPlace? (text : String) : Option Report :=
  match text.splitOn ":" with
  | line :: column :: first :: others => do
    let line ← line.toInt?
    let column ← column.toInt?
    let message := Utf8.encode (":".intercalate (first :: others))
    some ⟨false, [some ⟨3, line, column, some message.toList⟩], none⟩
  | _ => none

/-- A complaint about a document, with its text decoded and trimmed. -/
structure Complaint where
  level : Int
  line : Int
  column : Int
  message : String
  deriving DecidableEq, Repr

/-- What a report says about the document. -/
inductive Outcome where
  | wellFormed
  | malformed (complaints : List Complaint)
  deriving DecidableEq, Repr

/-- A document of this many bytes is too large for the parser. -/
structure TooLarge where
  size : Nat
  deriving DecidableEq, Repr

/-- The wording of the refusal. -/
def TooLarge.message (e : TooLarge) : String :=
  s!"Input of {e.size} bytes exceeds the parser limit"

/-- The level from which on a complaint is an error and not a warning. -/
def errorLevel : Int := 2

/-- The largest document size that the parser takes: the largest signed number of 32 bits. -/
def sizeLimit : Nat := 2147483647

/-- The complaint of an event. -/
def Event.complaint (e : Event) : Complaint :=
  { level := e.level
    line := e.line
    column := e.column
    message :=
      match e.message with
      | none => ""
      | some bytes => trimmed (Utf8.decodeLossy (bytes.takeWhile (· != 0))) }

/-- The complaint of the remembered error, which counts only with a code. -/
def Report.rememberedComplaint (r : Report) : Option Complaint :=
  match r.remembered with
  | some (code, e) => if code = 0 then none else some e.complaint
  | none => none

/-- What a report says about a document that reached the parser. -/
def Report.outcome (r : Report) : Outcome :=
  if r.builtTree then .wellFormed
  else
    match r.events.filterMap (·.map Event.complaint) with
    | [] => .malformed r.rememberedComplaint.toList
    | complaints => .malformed complaints

/-- The complaint about an empty document. -/
def emptyDocument : Complaint := ⟨errorLevel + 1, 1, 1, "Document is empty"⟩

/-- Reads a document with a parser that behaves as `parser` says. -/
def read (parser : String → Report) (document : String) : Except TooLarge Outcome :=
  let size := document.utf8ByteSize
  if sizeLimit < size then .error ⟨size⟩
  else if size = 0 then .ok (.malformed [emptyDocument])
  else .ok (parser document).outcome

/-- The complaint that a rejection is put down to: the first error, or else the first
complaint of any level. -/
def Outcome.reason : Outcome → Option Complaint
  | .wellFormed => none
  | .malformed complaints =>
    (complaints.find? (fun c => decide (errorLevel ≤ c.level))).or complaints.head?

/-- The text of a complaint, with its place. -/
def Complaint.text (c : Complaint) : String :=
  s!"error on line {c.line} at column {c.column}: {c.message}"

/-- The checker that a parser of this behaviour makes. -/
def check (parser : String → Report) : Checker := fun document =>
  match read parser document with
  | .ok .wellFormed => none
  | .ok outcome => some ((outcome.reason.map Complaint.text).getD Diagnosis.unknownReason)
  | .error e => some e.message

/-- Where the records of the checker come from. -/
def origin (severity : Log.Severity) (fields : List String) : Log.Origin :=
  ⟨severity, "xml_studio::libxml2", fields⟩

/-- What the checker logs about a document: that the parser has rejected it, or that it
could not be checked. -/
def log (parser : String → Report) (document : String) : List Log.Record :=
  match read parser document with
  | .ok .wellFormed => []
  | .ok (.malformed complaints) =>
    if document = "" then []
    else
      [⟨origin .debug ["message", "count"],
        s!"libxml2 rejected document count={complaints.length}"⟩]
  | .error e => [⟨origin .warn ["message"], s!"libxml2 could not check document: {e.message}"⟩]

end MarkupDesk.Engine
