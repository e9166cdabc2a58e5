import MarkupDesk.CommandLine.Invocation
import MarkupDesk.Data.Json
import MarkupDesk.Data.Toml
import MarkupDesk.Settings.Decode
import MarkupDesk.Settings.Error

/-!
# Where settings come from

Settings are built up in layers, each of which overrides the ones before it: the
usual values, one settings file, the environment, and the command line.

* The file is the one that the command line names, or else the first that exists of
  four names in the working directory, or else the user's own.  A file that is
  there but cannot be read is an error and never skipped.
* In the environment, the more specific of two names for the API key wins.
* `Settings.load` puts the layers together and checks the result.

All but the command line is gathered in `Settings.Sources`.  The readers of the two formats
are known by what they accept; what they say about a text that they do not accept is up to
them.
-/
namespace MarkupDesk

open CommandLine

/-- The environment: the value of a variable that is set. -/
abbrev Environment := String → Option String

namespace Settings

/-- What the readers of settings files say about a text that holds no settings. -/
structure Readers where
  toml : String → String
  json : String → String

/-- What settings are made from, the command line apart. -/
structure Sources where
  disk : Disk
  /-- The directory for the settings of the user. -/
  userDirectory : Option String
  environment : Environment
  /-- Whether standard error is a terminal. -/
  terminal : Bool
  readers : Readers

/-- The names of settings files in the working directory, first choice first. -/
def fileNames : List String :=
  ["xml-studio.toml", "xml-studio.json", ".xml-studio.toml", ".xml-studio.json"]

/-- The path of the user's settings file below the directory for such files. -/
def userFile : String := "xml-studio/config.toml"

/-! ## Files -/

variable (sources : Sources)

/-- Reads settings from a TOML document. -/
def ofToml (text : String) : Except SettingsError Settings :=
  match (Toml.read text).bind (Settings.ofDatum? sources.terminal .ignored) with
  | some s => .ok s
  | none => .error (.toml (sources.readers.toml text))

/-- Reads settings from a JSON text. -/
def ofJson (text : String) : Except SettingsError Settings :=
  match (Json.read text).bind (Settings.ofDatum? sources.terminal .refused) with
  | some s => .ok s
  | none => .error (.json (sources.readers.json text))

/-- Reads settings in the format that the extension of their file says; without an
extension both formats are tried. -/
def ofText (extension : Option String) (text : String) : Except SettingsError Settings :=
  match extension with
  | some "toml" => ofToml sources text
  | some "json" => ofJson sources text
  | some other => .error (.unknownFormat other)
  | none =>
    match ofToml sources text with
    | .ok s => .ok s
    | .error _ => ofJson sources text

/-- Reads a settings file. -/
def ofFile (path : String) : Except SettingsError Settings :=
  match sources.disk.readText path with
  | .ok text => ofText sources (Path.extension? path) text
  | .error fault => .error (.io fault)

/-- The first settings file that exists in a directory. -/
def fileIn? (disk : Disk) (directory : String) : Option String :=
  (fileNames.map (Path.join directory)).find? disk.has

/-- The settings file that is used: the one named, or else the first in the working
directory, or else the user's. -/
def file? (disk : Disk) (userDirectory named : Option String) : Option String :=
  match named with
  | some path => some path
  | none => (fileIn? disk ".").or ((userDirectory.map (Path.join · userFile)).filter disk.has)

/-! ## Merging -/

/-- Settings over other settings: an API key and a temperature only if they are given,
everything else in any case. -/
def overlay (upper lower : Settings) : Settings :=
  { assistant :=
      { upper.assistant with
        apiKey := upper.assistant.apiKey.or lower.assistant.apiKey
        temperature := upper.assistant.temperature.or lower.assistant.temperature }
    display := upper.display }

/-- The settings with what the environment sets. -/
def withEnvironment (env : Environment) (s : Settings) :
    Except SettingsError Settings := do
  let timeout ←
    match env "XML_STUDIO_TIMEOUT" with
    | none => pure s.assistant.timeout
    | some value =>
      match Text.readCount value with
      | some n => pure n
      | none => throw (.environment s!"Invalid XML_STUDIO_TIMEOUT value: {value}")
  return { s with
    assistant :=
      { s.assistant with
        apiKey := ((env "GEMINI_API_KEY").or (env "API_KEY")).or s.assistant.apiKey
        model := (env "XML_STUDIO_MODEL").getD s.assistant.model
        baseUrl := (env "XML_STUDIO_BASE_URL").getD s.assistant.baseUrl
        timeout := timeout } }

/-- The settings with what the command line sets.  Of the flags for more and less output
the latter has the last word, and either takes the other back. -/
def withInvocation (i : Invocation) (s : Settings) : Settings :=
  { assistant :=
      { s.assistant with
        apiKey := i.apiKey.or s.assistant.apiKey
        model := i.model.getD s.assistant.model
        timeout := i.timeout.getD s.assistant.timeout }
    display :=
      { verbose := if i.quiet then false else i.verbose || s.display.verbose
        quiet := i.quiet || (!i.verbose && s.display.quiet)
        color := !i.noColor && s.display.color } }

/-- Checks settings. -/
def checked (s : Settings) : Except SettingsError Settings :=
  match s.flaw? with
  | some flaw => .error (.invalid flaw.message)
  | none => .ok s

/-- The settings of an invocation. -/
def load (i : Invocation) : Except SettingsError Settings := do
  let usual := Settings.usual sources.terminal
  let fromFile ←
    match file? sources.disk sources.userDirectory i.config with
    | some path => (ofFile sources path).map (overlay · usual)
    | none => pure usual
  let s ← withEnvironment sources.environment fromFile
  checked (s.withInvocation i)

end Settings
end MarkupDesk
