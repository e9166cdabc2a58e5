import MarkupDesk.CommandLine.Scan
import MarkupDesk.Disk.Basic
import MarkupDesk.Settings.Basic

/-!
# Invocations

A command line that has been read (`Invocation.ofArguments`): the command with its
paths, and the options.  An option that is given on both sides of the subcommand
has the value that stands after it.
-/
namespace MarkupDesk.CommandLine

/-- A command and the paths it was given. -/
inductive Command where
  | validate (input : Option String)
  | transform (kind : Transform) (input outputDirectory : Option String)
  | generate
  deriving DecidableEq, Repr

/-- A command line that has been read. -/
structure Invocation where
  command : Command
  config : Option String := none
  verbose : Bool := false
  quiet : Bool := false
  noColor : Bool := false
  apiKey : Option String := none
  model : Option String := none
  timeout : Option Nat := none
  deriving DecidableEq, Repr

/-- The subcommand of a command. -/
def Command.subcommand : Command → Subcommand
  | .validate _ => .validate
  | .transform kind _ _ => .transform kind
  | .generate => .generate

/-- The input as it was given. -/
def Command.input : Command → Option String
  | .validate input => input
  | .transform _ input _ => input
  | .generate => none

/-- The directory into which the result is saved. -/
def Command.outputDirectory : Command → Option String
  | .transform _ _ directory => directory
  | _ => none

/-- Whether a command works on a document that it is given. -/
def Command.takesInput : Command → Bool
  | .generate => false
  | _ => true

/-- Whether a command needs the assistant. -/
def Command.needsAssistant : Command → Bool
  | .transform .repair _ _ | .transform .convert _ _ | .generate => true
  | _ => false

/-- The path that an input names; the input `-` stands for standard input. -/
def inputPath? (input : Option String) : Option String :=
  input.filter fun path => !Path.isJust ['-'] path

namespace Invocation

/-- The path from which the document is read. -/
def path? (i : Invocation) : Option String := inputPath? i.command.input

/-- The verbosity that the flags ask for. -/
def verbosity (i : Invocation) : Verbosity := .ofFlags i.verbose i.quiet

/-- The command of a subcommand with what was given after it. -/
def commandOf (subcommand : Subcommand) (inner : Scan) : Command :=
  match subcommand with
  | .validate => .validate (inner.value? .input)
  | .transform kind => .transform kind (inner.value? .input) (inner.value? .output)
  | .generate => .generate

/-- The invocation that two levels make. -/
def ofScans (subcommand : Subcommand) (root inner : Scan) : Invocation :=
  let value? := fun slot => (inner.value? slot).or (root.value? slot)
  { command := commandOf subcommand inner
    config := value? .config
    verbose := (value? .verbose).isSome
    quiet := (value? .quiet).isSome
    noColor := (value? .noColor).isSome
    apiKey := value? .apiKey
    model := value? .model
    timeout := (value? .timeout).bind Text.readCount }

/-- Reads the arguments of a command line.  The level after the subcommand is ended
before the one in front of it. -/
def ofArguments (args : List String) : Except UsageError Invocation := do
  let (root, next) ← Scan.run .root {} args
  match next with
  | none =>
    let root ← root.settle
    throw (if root.given.isEmpty then .nothingGiven else .missingSubcommand)
  | some (subcommand, rest) =>
    let (inner, _) ← Scan.run (.sub subcommand) {} rest
    let inner ← inner.finish
    let root ← root.finish
    return ofScans subcommand root inner

/-- Why an invocation cannot be carried out. -/
inductive Objection where
  | zeroTimeout
  | noDirectory (path : String)
  deriving DecidableEq, Repr

/-- The wording of an objection. -/
def Objection.message : Objection → String
  | .zeroTimeout => "Timeout must be greater than 0"
  | .noDirectory path => s!"Output directory does not exist: {path}"

/-- The first objection against an invocation. -/
def objection? (disk : Disk) (i : Invocation) : Option Objection :=
  if i.timeout = some 0 then some .zeroTimeout
  else
    match i.command.outputDirectory with
    | some directory => if disk.hasDirectory directory then none else some (.noDirectory directory)
    | none => none

end Invocation
end MarkupDesk.CommandLine
