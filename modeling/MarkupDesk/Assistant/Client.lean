import MarkupDesk.Assistant.Job
import MarkupDesk.Assistant.Reply
import MarkupDesk.Fence
import MarkupDesk.Settings.Basic
import MarkupDesk.Web.Exchange

/-!
# The client

The client gives a job to the service: one request with the prompt, and the fenced
text of the reply.  Without an API key nothing is sent.

`request` says what is sent, `answer` what is made of the delivery, and `ask` puts a
server in between.  The key is used in `request` only, and there only for its header.
-/
namespace MarkupDesk.Assistant

open Text Web

/-- The header that carries the key. -/
def keyHeader : String := "x-goog-api-key"

/-- The name under which the client introduces itself. -/
def userAgent : String := "xml-studio/0.1.0"

/-- The key that is sent: trimmed, and not blank. -/
def usableKey (s : AssistantSettings) : Option String :=
  (s.apiKey.map trimmed).filter (· != "")

/-- The text without the slashes at its end. -/
def withoutTrailingSlashes (s : String) : String :=
  String.ofList (s.toList.reverse.dropWhile (· == '/')).reverse

/-- The address to which jobs are posted. -/
def endpoint (s : AssistantSettings) : String :=
  withoutTrailingSlashes s.baseUrl ++ "/" ++ s.model ++ ":generateContent"

/-- The number as it stands in a body; only finite numbers can be written. -/
def numberText (t : Number.Binary) : String := (Number.single.compact? t).getD "null"

/-- The body of a request. -/
def requestBody (s : AssistantSettings) (prompt : String) : String :=
  let contents := "\x7b\"contents\":[\x7b\"parts\":[\x7b\"text\":" ++ Json.quote prompt ++ "\x7d]\x7d]"
  let config :=
    match s.temperature with
    | none => ""
    | some t => ",\"generationConfig\":\x7b\"temperature\":" ++ numberText t ++ "\x7d"
  contents ++ config ++ "\x7d"

/-- The request for a job on a document. -/
def request (s : AssistantSettings) (job : Job) (document : String) : Except Error Request :=
  match usableKey s with
  | none => .error .missingKey
  | some key =>
    match Url.ofText? (endpoint s) with
    | none => .error .transport
    | some url =>
      if fitsHeader key then
        .ok ⟨url, key, "application/json", userAgent, requestBody s (job.prompt document)⟩
      else .error .transport

/-- What a delivery says about a job. -/
def answer (job : Job) : Delivery → Except Error String
  | .broken => .error .transport
  | .reply status body =>
    let text := bodyText body
    if !isSuccess status then .error (.status status s!"{reasonPhrase status}: {text}")
    else
      match Reply.ofText? text with
      | none => .error .malformed
      | some reply => reply.text.map (unfence job.language)

/-- Gives a job to a server: the request, if one was sent, and the result. -/
def ask (server : Server) (s : AssistantSettings) (job : Job) (document : String) :
    Option Request × Except Error String :=
  match request s job document with
  | .error e => (none, .error e)
  | .ok r => (some r, answer job (server r))

end MarkupDesk.Assistant
