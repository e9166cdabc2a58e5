import MarkupDesk.Console.Duration
import MarkupDesk.Run

/-!
# The command

The outer layer of the program: it looks up what a run can ask for, runs the command,
and carries out what the ending says.

The XML parser is not part of the program.  What it says about the document comes in
the variable `XML_STUDIO_PARSER`, as a line, a column and a message with colons between
them; a document about which nothing is said is well-formed.  Nor is there a connection
to a server here, so every request breaks off.  Which records are wanted in the log can be
said by the word for a severity.
-/
namespace MarkupDesk.Main

open CommandLine

/-- What the system says about a failure. -/
def faultOf : IO.Error → Fault
  | .noFileOrDirectory .. => .notFound
  | .inappropriateType _ 21 _ => .isDirectory
  | .inappropriateType _ 20 _ => .notDirectory
  | .invalidArgument _ 36 _ => .nameTooLong
  | .permissionDenied _ 13 _ => .other "Permission denied (os error 13)"
  | e => .other (toString e)

/-- Whether there is something at a path. -/
def isThere (path : String) : IO Bool := do
  try
    discard (IO.FS.realPath path)
    return true
  catch _ => return false

/-- Looks up what a path leads to. -/
def look (path : String) : IO Found := do
  try
    let content ← IO.FS.readBinFile path
    return .file content
  catch e =>
    match faultOf e with
    | .isDirectory => return .directory
    | fault => return if ← isThere path then .unreadable fault else .nothing fault

/-- The paths that a run can ask about. -/
def pathsOf (i : Invocation) (userDirectory : Option String) : List String :=
  i.config.toList ++ Settings.fileNames.map (Path.join ".") ++
    (userDirectory.map (Path.join · Settings.userFile)).toList ++ i.path?.toList ++
    i.command.outputDirectory.toList

/-- The part of the disk that a run can ask about. -/
def snapshot (paths : List String) : IO Disk := do
  let found ← paths.mapM fun path => return (path, ← look path)
  return {
    find := fun path => (List.lookup path found).getD (.nothing .notFound)
    refusal := fun _ => none }

/-- The variables that a run can ask about. -/
def environment : IO Environment := do
  let names := ["XML_STUDIO_TIMEOUT", "XML_STUDIO_MODEL", "XML_STUDIO_BASE_URL", "GEMINI_API_KEY",
    "API_KEY", Host.filterVariable]
  let values ← names.mapM fun name => return (name, ← IO.getEnv name)
  return fun name => (List.lookup name values).join

/-- The directory for the settings of the user. -/
def userDirectory : IO (Option String) := do
  match ← IO.getEnv "XDG_CONFIG_HOME" with
  | some directory => if directory.startsWith "/" then return some directory
  | none => pure ()
  return (← IO.getEnv "HOME").map (Path.join · ".config")

/-- What is said about a settings file that holds no settings. -/
def readers : Settings.Readers where
  toml := fun _ => "no settings in this format"
  json := fun _ => "no settings in this format"

/-- Reads the word for a severity, from which on records are wanted. -/
def filterOf? (word : String) : Option Log.Filter :=
  let severities : List Log.Severity := [.trace, .debug, .info, .warn, .error]
  (severities.find? (·.name == word)).map Log.Filter.atLeast

/-- What the parser says. -/
def parser : IO (String → Engine.Report) := do
  let report := (← IO.getEnv "XML_STUDIO_PARSER").bind Engine.Report.ofPlace?
  return fun _ => report.getD .acceptance

/-- Reads a stream to its end. -/
partial def readAll (stream : IO.FS.Stream) (before : ByteArray) : IO ByteArray := do
  let bytes ← stream.read 65536
  if bytes.isEmpty then return before else readAll stream (before ++ bytes)

/-- What the run finds. -/
def host (i : Invocation) : IO Host := do
  let directory ← userDirectory
  let parser ← parser
  let readsInput := i.command.takesInput && i.path?.isNone
  return {
    disk := ← snapshot (pathsOf i directory)
    userDirectory := directory
    environment := ← environment
    terminal := ← (← IO.getStderr).isTty
    readers := readers
    standardInput := ← if readsInput then readAll (← IO.getStdin) .empty else pure .empty
    checker := Engine.check parser
    checkerLog := Engine.log parser
    server := fun _ => .broken
    libraries := { Assistant.Libraries.silent with
      unsent := fun _ => "no request can be made"
      unanswered := fun _ => "no connection" }
    filterOf? := filterOf? }

/-- The line for a record of the log. -/
def recordLine (r : Log.Record) : String := r.origin.severity.name ++ ": " ++ r.text

/-- Saves what the ending says is saved.  If that fails, the run is the one that it would
have been on a disk that refuses the file. -/
def save (h : Host) (i : Invocation) (e : Ending) : IO Ending := do
  match e.saved with
  | none => return e
  | some (path, content) =>
    try
      IO.FS.writeFile path content
      return e
    catch error =>
      let fault := faultOf error
      return { h with disk := { h.disk with refusal := fun _ => some fault } }.run i

/-- Runs the command with these arguments. -/
def command (args : List String) : IO UInt32 := do
  match Invocation.ofArguments args with
  | .error e =>
    if e.exitCode = 0 then IO.println e.message else IO.eprintln e.message
    return e.exitCode.toUInt32
  | .ok i =>
    let h ← host i
    let start ← IO.monoNanosNow
    let e ← save h i (h.run i)
    IO.print e.output
    let time : Duration := ⟨(← IO.monoNanosNow) - start⟩
    IO.eprint (e.errorText (fun _ => true) recordLine time.text)
    return e.exitCode.toUInt32

end MarkupDesk.Main

/-- Runs the command. -/
def main (args : List String) : IO UInt32 := MarkupDesk.Main.command args
