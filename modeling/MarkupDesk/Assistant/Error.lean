/-!
# Errors of the assistant

Why the assistant did not do a job, or could not be reached at all, and the wording of each
cause.
-/
namespace MarkupDesk.Assistant

/-- Why the assistant did not do a job. -/
inductive Error where
  | missingKey
  /-- No request could be sent, or no whole reply came back. -/
  | transport
  /-- The service refused, with this status. -/
  | status (code : Nat) (message : String)
  | timeout (seconds : Nat)
  /-- The reply is not of the expected form. -/
  | malformed
  /-- The reply has no text. -/
  | empty (reason : String)
  deriving DecidableEq, Repr

/-- The wording of an error. -/
def Error.message : Error → String
  | .missingKey => "API Key is missing"
  | .transport => "HTTP error"
  | .status code message => s!"HTTP status error: {code} - {message}"
  | .timeout seconds => s!"Request timeout after {seconds} seconds"
  | .malformed => "Malformed response body"
  | .empty reason => s!"Empty response: {reason}"

/-- Why no client could be set up, in the words of the system: what is wrong, and the causes
behind it. -/
structure SetupFault where
  wording : String
  causes : List String
  deriving DecidableEq, Repr

/-- The wording of the error and of the causes behind it. -/
def SetupFault.chain (f : SetupFault) : List String :=
  (Error.transport.message ++ ": " ++ f.wording) :: f.wording :: f.causes

end MarkupDesk.Assistant
