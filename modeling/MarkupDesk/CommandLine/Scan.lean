import MarkupDesk.CommandLine.Options

/-!
# Reading one level of a command line

The arguments are read from left to right.  A value is settled, that is, checked
and recorded, only when the next option or value begins or the arguments end; so
of two faults the one that is met first in this sense is reported.

* `--name`, `--name=value`, `-abc`, `-ovalue` and `-o=value` are options; an option
  that wants a value takes the next argument, unless that one is an option itself.
* `--` ends the options.
* Before the subcommand, an argument that names a subcommand ends the level.
* After it, an argument that is no option is the input path.
-/
namespace MarkupDesk.CommandLine

/-- What has been read of a level: the slots that were given, with their values, and
one that still has to be settled, or even still wants its value. -/
structure Scan where
  given : List (Slot × String) := []
  pending : Option (Slot × Option String) := none
  /-- Whether the options have ended. -/
  trailing : Bool := false
  /-- Whether the input path has been given. -/
  hasPath : Bool := false

namespace Scan

/-- Checks a value. -/
def checkValue (slot : Slot) (value : String) : Except UsageError Unit :=
  match slot.kind with
  | .path => if value = "" then .error .invalidValue else .ok ()
  | .count => if (Text.readCount value).isNone then .error .malformedValue else .ok ()
  | .flag | .text => .ok ()

/-- Records a value for a slot, which must not have one yet. -/
def give (s : Scan) (slot : Slot) (value : String) : Except UsageError Scan := do
  if (s.given.lookup slot).isSome then throw .conflict
  checkValue slot value
  return { s with given := s.given ++ [(slot, value)], pending := none }

/-- Records what is pending. -/
def settle (s : Scan) : Except UsageError Scan :=
  match s.pending with
  | none => .ok s
  | some (_, none) => .error .invalidValue
  | some (slot, some value) => s.give slot value

/-- Whether the last option still wants its value. -/
def isWaiting (s : Scan) : Bool :=
  match s.pending with
  | some (_, none) => true
  | _ => false

/-- Carries out an option that comes with or without a value of its own. -/
def apply (s : Scan) (wish : Wish) (value : Option String) : Except UsageError Scan := do
  match wish with
  | .slot slot =>
    let s ← s.settle
    if slot.kind = .flag then s.give slot ""
    else
      match value with
      | some v => s.give slot v
      | none => return { s with pending := some (slot, none) }
  | .help => let _ ← s.settle; throw .help
  | .version => let _ ← s.settle; throw .version

/-- Whether an option takes a value. -/
def takesValue : Wish → Bool
  | .slot slot => slot.kind != .flag
  | _ => false

/-- Carries out an option by its long name; what follows an equals sign is its value. -/
def long (s : Scan) (level : Level) (text : List Char) : Except UsageError Scan :=
  let name := String.ofList (text.takeWhile (· != '='))
  let value :=
    match text.dropWhile (· != '=') with
    | _ :: v => some (String.ofList v)
    | [] => none
  match level.long? name with
  | none => .error .unknownArgument
  | some wish =>
    if value.isSome && !takesValue wish then .error .needlessValue else s.apply wish value

/-- Carries out options by their one-letter names.  The first that takes a value has
what is left as its value, without an equals sign in front. -/
def short (s : Scan) (level : Level) : List Char → Except UsageError Scan
  | [] => .ok s
  | c :: rest =>
    match level.short? c with
    | none => .error .unknownArgument
    | some wish =>
      if takesValue wish then
        match rest with
        | [] => s.apply wish none
        | '=' :: v => s.apply wish (some (String.ofList v))
        | v => s.apply wish (some (String.ofList v))
      else do
        let s ← s.apply wish none
        s.short level rest

/-- Takes an argument that is no option: the value that is waited for, or the input. -/
def word (s : Scan) (level : Level) (arg : String) : Except UsageError Scan := do
  match s.trailing, s.pending with
  | false, some (slot, none) => return { s with pending := some (slot, some arg) }
  | _, _ =>
    if level.hasInput && !s.hasPath then
      let s ← s.settle
      return { s with pending := some (.input, some arg), hasPath := true }
    else
      match level with
      | .sub _ => throw .unknownArgument
      | .root =>
        if s.trailing && ((Subcommand.ofName? arg).isSome || arg == "help") then
          throw .unknownArgument
        else throw .invalidSubcommand

/-- Takes an argument. -/
def step (s : Scan) (level : Level) (arg : String) : Except UsageError Scan :=
  if s.trailing then s.word level arg
  else
    match arg.toList with
    | ['-', '-'] => .ok { s with trailing := true }
    | '-' :: '-' :: text => s.long level text
    | '-' :: c :: text => s.short level (c :: text)
    | _ => s.word level arg

/-- Whether `help` was followed by the names of subcommands, of which none has
subcommands itself. -/
def helpTopic : List String → UsageError
  | [] => .help
  | [word] => if (Subcommand.ofName? word).isSome || word == "help" then .help
    else .invalidSubcommand
  | _ => .invalidSubcommand

/-- Reads a level: what was given on it, and the subcommand that ended it with the
arguments after it. -/
def run (level : Level) (s : Scan) :
    List String → Except UsageError (Scan × Option (Subcommand × List String))
  | [] => .ok (s, none)
  | arg :: rest => do
    if level = .root && !s.trailing && !s.isWaiting then
      if arg = "help" then throw (helpTopic rest)
      match Subcommand.ofName? arg with
      | some command => return (s, some (command, rest))
      | none => pure ()
    let s ← s.step level arg
    run level s rest

/-- The value that was given for a slot. -/
def value? (s : Scan) (slot : Slot) : Option String := s.given.lookup slot

/-- Whether a slot was given. -/
def has (s : Scan) (slot : Slot) : Bool := (s.value? slot).isSome

/-- Ends a level: settles what is pending, and refuses flags that exclude each other. -/
def finish (s : Scan) : Except UsageError Scan := do
  let s ← s.settle
  if s.has .verbose && s.has .quiet then throw .conflict
  return s

end Scan
end MarkupDesk.CommandLine
