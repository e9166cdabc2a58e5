import MarkupDesk.Assistant.Error
import MarkupDesk.Data.Json

/-!
# Replies

The service answers with candidates, each of which has some content in parts, and
counts the tokens it used.  Only the first candidate matters, and of it the texts of
its parts, joined in order.
-/
namespace MarkupDesk.Assistant

open Datum

/-- One candidate of a reply: the parts of its content, if it has any content, each with
its text, if it has one. -/
structure Candidate where
  content : Option (List (Option String))
  finishReason : Option String
  deriving DecidableEq, Repr

/-- The number of tokens that were used, as far as the service says. -/
structure Usage where
  prompt : Option Nat
  candidates : Option Nat
  total : Option Nat
  deriving DecidableEq, Repr

/-- A reply of the service. -/
structure Reply where
  candidates : List Candidate
  usage : Option Usage
  deriving DecidableEq, Repr

/-- Reads a part. -/
def partOf? (d : Datum) : Option (Option String) := do
  match ← d.fields .refused ["text"] with
  | [found] => orElse none (optional? text?) found
  | _ => none

/-- Reads the content of a candidate. -/
def contentOf? (d : Datum) : Option (List (Option String)) := do
  match ← d.fields .refused ["parts"] with
  | [parts] => orElse [] (list? partOf?) parts
  | _ => none

/-- Reads a candidate. -/
def Candidate.ofDatum? (d : Datum) : Option Candidate := do
  match ← d.fields .refused ["content", "finishReason"] with
  | [content, reason] =>
    some ⟨← orElse none (optional? contentOf?) content, ← orElse none (optional? text?) reason⟩
  | _ => none

/-- Reads the numbers of tokens. -/
def Usage.ofDatum? (d : Datum) : Option Usage := do
  let count := orElse none (optional? (below? UInt32.size))
  match ← d.fields .refused ["promptTokenCount", "candidatesTokenCount", "totalTokenCount"] with
  | [prompt, candidates, total] => some ⟨← count prompt, ← count candidates, ← count total⟩
  | _ => none

/-- Reads a reply. -/
def Reply.ofDatum? (d : Datum) : Option Reply := do
  match ← d.fields .refused ["candidates", "usageMetadata"] with
  | [candidates, usage] =>
    some
      { candidates := ← orElse [] (list? Candidate.ofDatum?) candidates
        usage := ← orElse none (optional? Usage.ofDatum?) usage }
  | _ => none

/-- Reads a reply from its JSON text. -/
def Reply.ofText? (text : String) : Option Reply := (Json.read text).bind Reply.ofDatum?

/-- The joined texts of the first candidate. -/
def Reply.text (r : Reply) : Except Error String :=
  match r.candidates with
  | [] => .error (.empty "No candidates in response")
  | first :: _ =>
    match first.content with
    | none => .error (.empty "No content in candidate")
    | some parts => .ok (String.join (parts.filterMap id))

end MarkupDesk.Assistant
