import MarkupDesk.Assistant.Client
import MarkupDesk.Log.Event

/-!
# What the client logs

The client logs the job and the address before it sends anything, then the reply and what is
remarkable about it, and last why it has failed, if it has.  It never logs the request
itself.

What the libraries behind it log and say of their own is a parameter (`Libraries`).
-/
namespace MarkupDesk.Assistant

open Log (Event)
open Web

/-- What the libraries behind the client log, and what they say. -/
structure Libraries where
  /-- What is logged when a client is set up. -/
  setup : AssistantSettings → List Log.Record
  /-- What is logged while a request is under way. -/
  underWay : Request → List Log.Record
  /-- What is said if no request can be made. -/
  unsent : AssistantSettings → String
  /-- What is said if no whole reply comes back. -/
  unanswered : Request → String
  /-- What is said about a text that is no reply. -/
  unread : String → String

/-- Libraries that log and say nothing. -/
def Libraries.silent : Libraries :=
  ⟨fun _ => [], fun _ => [], fun _ => "", fun _ => "", fun _ => ""⟩

/-- What a library has said about an error goes with its wording. -/
def Error.wording (e : Error) (said : String) : String :=
  match e with
  | .transport | .malformed => s!"{e.message}: {said}"
  | _ => e.message

/-- What is remarkable about a reply: what it has used, and a candidate that did not end of
its own accord. -/
def Reply.log (r : Reply) : List Event :=
  (r.usage.map Event.used).toList ++
    ((r.candidates.head?.bind (·.finishReason)).filter (· != "STOP")).toList.map Event.stopped

variable (libraries : Libraries) (server : Server) (s : AssistantSettings)

/-- What is logged about what comes back. -/
def deliveryLog : Delivery → List Event
  | .broken => []
  | .reply status body =>
    let text := bodyText body
    .answered (endpoint s) status ::
      if !isSuccess status then [.refused (endpoint s) status text]
      else
        match Reply.ofText? text with
        | none => [.unreadable (endpoint s) (libraries.unread text)]
        | some reply => reply.log

/-- What the libraries say if a job fails for a reason of theirs. -/
def reason (job : Job) (document : String) : String :=
  match request s job document with
  | .error _ => libraries.unsent s
  | .ok r =>
    match server r with
    | .broken => libraries.unanswered r
    | .reply _ body => libraries.unread (bodyText body)

/-- What is logged while a job is done. -/
def exchangeLog (job : Job) (document : String) : List Event :=
  match usableKey s with
  | none => []
  | some _ =>
    [.assigned job s.model, .posted (endpoint s)] ++
      match request s job document with
      | .error _ => []
      | .ok r => (libraries.underWay r).map .foreign ++ deliveryLog libraries s (server r)

/-- What is logged about a job. -/
def log (job : Job) (document : String) : List Event :=
  exchangeLog libraries server s job document ++
    match (ask server s job document).2 with
    | .ok _ => []
    | .error e => [.failed job (e.wording (reason libraries server s job document))]

end MarkupDesk.Assistant
