import MarkupDesk.CommandLine.Options

/-!
# Ending before the work begins

What a command line that is not carried out ends with: the exit code, and a line that
says why.
-/
namespace MarkupDesk.CommandLine

/-- The name and the version of the program. -/
def versionLine : String := "xml-studio 0.1.0"

/-- The line of the command with what can be given. -/
def usageLine : String :=
  "Usage: xml-studio [OPTIONS] <validate|format|minify|repair|convert|generate> [INPUT]"

namespace UsageError

/-- The exit code: asking for help or for the version is no failure. -/
def exitCode : UsageError → Nat
  | .help | .version => 0
  | _ => 2

/-- The line that says why. -/
def message : UsageError → String
  | .help | .nothingGiven => usageLine
  | .version => versionLine
  | .missingSubcommand => "error: a subcommand is required"
  | .invalidSubcommand => "error: there is no such subcommand"
  | .unknownArgument => "error: unexpected argument"
  | .conflict => "error: arguments exclude each other"
  | .invalidValue => "error: a value is required"
  | .malformedValue => "error: malformed value"
  | .needlessValue => "error: unexpected value"

end UsageError
end MarkupDesk.CommandLine
