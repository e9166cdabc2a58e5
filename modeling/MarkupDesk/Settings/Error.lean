import MarkupDesk.Disk.Basic

/-!
# Errors about settings

Why settings could not be had, with the wording of each cause and the chain of
causes behind it.  What exactly is wrong with a file that is no TOML or no JSON is
kept in the words of its reader, which may quote the file.
-/
namespace MarkupDesk

/-- Why settings could not be had. -/
inductive SettingsError where
  /-- A file could not be read. -/
  | io (fault : Fault)
  /-- A file is no TOML document with settings. -/
  | toml (reason : String)
  /-- A file is no JSON text with settings. -/
  | json (reason : String)
  /-- The settings cannot be used. -/
  | invalid (reason : String)
  /-- A variable of the environment has a value that cannot be used. -/
  | environment (reason : String)
  /-- The extension of a file stands for no known format. -/
  | unknownFormat (extension : String)
  deriving DecidableEq, Repr

namespace SettingsError

/-- The wording of an error. -/
def message : SettingsError → String
  | .io fault => s!"IO error: {fault.message}"
  | .toml reason => s!"TOML parsing error: {reason}"
  | .json reason => s!"JSON parsing error: {reason}"
  | .invalid reason => s!"Configuration validation error: {reason}"
  | .environment reason => s!"Environment variable error: {reason}"
  | .unknownFormat extension => s!"Unsupported configuration file format: {extension}"

/-- The wording of an error and of the causes behind it. -/
def chain (e : SettingsError) : List String :=
  match e with
  | .io fault => [e.message, fault.message]
  | .toml reason | .json reason => [e.message, reason]
  | _ => [e.message]

end SettingsError
end MarkupDesk
