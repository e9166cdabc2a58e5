import MarkupDesk.Settings.Basic
import MarkupDesk.Workspace.Basic

/-!
# What is shown on the terminal

Results go to standard output as they are.  Everything else is a line for standard
error, and the verbosity decides whether it is shown: a quiet console shows errors
only, and a verbose one shows places and times too.
-/
namespace MarkupDesk

/-- How lines are shown. -/
structure Console where
  verbosity : Verbosity
  colors : Bool
  deriving DecidableEq, Repr

namespace Console

/-- A text in a color, given by its number on terminals. -/
def colored (c : Console) (color text : String) : String :=
  if c.colors then "\x1b[" ++ color ++ "m" ++ text ++ "\x1b[0m" else text

/-- The badge of a status. -/
def badge (c : Console) : Status → String
  | .success => c.colored "32" "✓"
  | .error => c.colored "31" "✗"
  | .loading => c.colored "36" "…"
  | .idle => c.colored "2" "-"

/-- The line that reports a status. -/
def statusLine? (c : Console) (status : Status) (message : String) : Option String :=
  if message = "" ∨ (c.verbosity = .quiet ∧ status ≠ .error) then none
  else some (c.badge status ++ " " ++ message)

/-- The details of a rejected document. -/
def details (c : Console) (d : Diagnosis) : String :=
  if c.verbosity = .verbose && d.hasLine then
    "  " ++ c.colored "33" "line" ++ " " ++ toString d.line ++ "\n  " ++ d.message
  else "  " ++ d.message

/-- The line that reports where a download was saved. -/
def savedLine? (c : Console) (path : String) (view : View) : Option String :=
  if c.verbosity = .quiet then none
  else some ("Saved " ++ view.title ++ " as " ++ c.colored "1" path)

/-- Whether the time is reported. -/
def showsTime (c : Console) : Bool := c.verbosity == .verbose

/-- The line that reports the time, which is given as it is to be written. -/
def timeLine (time : String) : String := "Completed in " ++ time

end Console
end MarkupDesk
