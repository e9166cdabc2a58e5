import MarkupDesk.Text.Digit

/-!
# Options of the command line

The words that the command line knows: its subcommands, and the options that may
stand before and after them.  All options but one may stand on either side; the
output directory belongs to the subcommands that transform a document.

A `UsageError` is what ends the reading of a command line early, requests for
help included.
-/
namespace MarkupDesk.CommandLine

/-- The subcommands that turn one document into another. -/
inductive Transform where
  | format
  | minify
  | repair
  | convert
  deriving DecidableEq, Repr

/-- The subcommands. -/
inductive Subcommand where
  | validate
  | transform (kind : Transform)
  | generate
  deriving DecidableEq, Repr

/-- The word for a subcommand. -/
def Subcommand.name : Subcommand → String
  | .validate => "validate"
  | .transform .format => "format"
  | .transform .minify => "minify"
  | .transform .repair => "repair"
  | .transform .convert => "convert"
  | .generate => "generate"

/-- All subcommands. -/
def Subcommand.all : List Subcommand :=
  [.validate, .transform .format, .transform .minify, .transform .repair, .transform .convert,
    .generate]

/-- The subcommand that a word names. -/
def Subcommand.ofName? (word : String) : Option Subcommand :=
  Subcommand.all.find? fun s => s.name == word

/-- Where a command line is being read: before the subcommand, or after it. -/
inductive Level where
  | root
  | sub (command : Subcommand)
  deriving DecidableEq, Repr

/-- What can be given on a command line, at most once on each level. -/
inductive Slot where
  | config
  | verbose
  | quiet
  | noColor
  | apiKey
  | model
  | timeout
  | output
  | input
  deriving DecidableEq, Repr

/-- What is given for a slot: nothing but its name, a path (never empty), any text, or a
number. -/
inductive SlotKind where
  | flag
  | path
  | text
  | count
  deriving DecidableEq, Repr

/-- The kind of a slot. -/
def Slot.kind : Slot → SlotKind
  | .verbose | .quiet | .noColor => .flag
  | .config | .output | .input => .path
  | .apiKey | .model => .text
  | .timeout => .count

/-- What the name of an option asks for. -/
inductive Wish where
  | slot (s : Slot)
  | help
  | version
  deriving DecidableEq, Repr

/-- Whether a level has the output directory. -/
def Level.hasOutput : Level → Bool
  | .sub (.transform _) => true
  | _ => false

/-- Whether a level takes an input path. -/
def Level.hasInput : Level → Bool
  | .sub .validate | .sub (.transform _) => true
  | _ => false

/-- The option with this long name. -/
def Level.long? (level : Level) : String → Option Wish
  | "config" => some (.slot .config)
  | "verbose" => some (.slot .verbose)
  | "quiet" => some (.slot .quiet)
  | "no-color" => some (.slot .noColor)
  | "api-key" => some (.slot .apiKey)
  | "model" => some (.slot .model)
  | "timeout" => some (.slot .timeout)
  | "output" => if level.hasOutput then some (.slot .output) else none
  | "help" => some .help
  | "version" => if level = .root then some .version else none
  | _ => none

/-- The option with this one-letter name. -/
def Level.short? (level : Level) : Char → Option Wish
  | 'v' => some (.slot .verbose)
  | 'q' => some (.slot .quiet)
  | 'o' => if level.hasOutput then some (.slot .output) else none
  | 'h' => some .help
  | 'V' => if level = .root then some .version else none
  | _ => none

/-- Why a command line is not carried out. -/
inductive UsageError where
  /-- Help was asked for. -/
  | help
  /-- The version was asked for. -/
  | version
  /-- Nothing was given at all. -/
  | nothingGiven
  | missingSubcommand
  | invalidSubcommand
  | unknownArgument
  /-- An option was given twice, or together with one that excludes it. -/
  | conflict
  /-- A value is missing, or empty where it may not be. -/
  | invalidValue
  /-- A value is not of the kind that is wanted. -/
  | malformedValue
  /-- A value was given to an option that takes none. -/
  | needlessValue
  deriving DecidableEq, Repr

end MarkupDesk.CommandLine
