import MarkupDesk.Log.Basic
import MarkupDesk.Number.Shortest
import MarkupDesk.Text.Blank

/-!
# Settings

What can be set: how the assistant is reached, and how much is shown.

`Settings.flaw?` says why settings cannot be used; of several flaws it names the
first in its order.
-/
namespace MarkupDesk

open Number

/-- How much is shown. -/
inductive Verbosity where
  | quiet
  | normal
  | verbose
  deriving DecidableEq, Repr

namespace Verbosity

/-- The verbosity of two flags; quiet wins. -/
def ofFlags (verbose quiet : Bool) : Verbosity :=
  if quiet then .quiet else if verbose then .verbose else .normal

/-- The least severity that is logged. -/
def logLevel : Verbosity → Log.Severity
  | .quiet => .error
  | .normal => .warn
  | .verbose => .debug

end Verbosity

/-- The model in use unless another one is set. -/
def defaultModel : String := "gemini-2.5-flash"

/-- The address under which the models are found unless another one is set. -/
def defaultBaseUrl : String := "https://generativelanguage.googleapis.com/v1beta/models"

/-- The time that a request may take unless another one is set, in seconds. -/
def defaultTimeout : Nat := 60

/-- How the assistant is reached.  The temperature is a single-precision number. -/
structure AssistantSettings where
  apiKey : Option String := none
  model : String := defaultModel
  baseUrl : String := defaultBaseUrl
  timeout : Nat := defaultTimeout
  temperature : Option Binary := none
  deriving DecidableEq, Repr

/-- How much is shown to the user, and whether in color. -/
structure DisplaySettings where
  verbose : Bool := false
  quiet : Bool := false
  color : Bool
  deriving DecidableEq, Repr

/-- The verbosity of the flags. -/
def DisplaySettings.verbosity (d : DisplaySettings) : Verbosity := .ofFlags d.verbose d.quiet

/-- All settings. -/
structure Settings where
  assistant : AssistantSettings := {}
  display : DisplaySettings
  deriving DecidableEq, Repr

/-- The settings unless others are made: colors are for a terminal. -/
def Settings.usual (terminal : Bool) : Settings where
  display := { color := terminal }

/-- Why settings cannot be used. -/
inductive Settings.Flaw where
  | zeroTimeout
  | blankModel
  | badScheme (url : String)
  | badTemperature (temperature : Binary)
  | verboseAndQuiet
  deriving DecidableEq, Repr

/-- The wording of a flaw. -/
def Settings.Flaw.message : Settings.Flaw → String
  | .zeroTimeout => "Timeout must be greater than 0"
  | .blankModel => "Model name cannot be empty"
  | .badScheme url => s!"Base URL must use http or https: {url}"
  | .badTemperature t => "Temperature must be between 0 and 2, got " ++ single.plain t
  | .verboseAndQuiet => "Cannot enable both verbose and quiet modes"

/-- Whether an address has one of the two schemes that can be used. -/
def hasWebScheme (url : String) : Bool :=
  "http://".toList.isPrefixOf url.toList || "https://".toList.isPrefixOf url.toList

/-- The temperature that is out of bounds, if there is one. -/
def AssistantSettings.hotness (a : AssistantSettings) : Option Binary :=
  a.temperature.filter fun t => !t.inZeroTo 2

/-- The first flaw of the settings. -/
def Settings.flaw? (s : Settings) : Option Settings.Flaw :=
  if s.assistant.timeout = 0 then some .zeroTimeout
  else if Text.isBlankText s.assistant.model then some .blankModel
  else if !hasWebScheme s.assistant.baseUrl then some (.badScheme s.assistant.baseUrl)
  else
    match s.assistant.hotness with
    | some t => some (.badTemperature t)
    | none =>
      if s.display.verbose && s.display.quiet then some .verboseAndQuiet else none

end MarkupDesk
