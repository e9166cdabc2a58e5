import MarkupDesk.Assistant.Log
import MarkupDesk.CommandLine.Usage
import MarkupDesk.Ending
import MarkupDesk.Settings.Layers
import MarkupDesk.Workspace.Session

/-!
# Runs of the command

A run is a function from what the command finds (`Host`) to what it leaves behind
(`Ending`).  It goes through six stages, each of which can end it: the objections
against the command line, the settings, the input, the client if the assistant is needed,
the operation, and the export.

An export to a directory is part of the ending, and not done here: the host says
beforehand whether a file can be written.

`Host.course` is the run with everything that it logs, and `Host.run` keeps the records that
the user wants to have: those that a variable of the environment asks for, or else those
from the severity on that goes with the verbosity.
-/
namespace MarkupDesk

open CommandLine

/-- What a run of the command finds. -/
structure Host extends Settings.Sources where
  standardInput : ByteArray
  checker : Checker
  /-- What the checker logs about a document. -/
  checkerLog : String → List Log.Record
  server : Web.Server
  /-- Why no client can be set up with these settings, none if one can. -/
  setupFault : AssistantSettings → Option Assistant.SetupFault := fun _ => none
  /-- What the libraries behind the client log, and what they say. -/
  libraries : Assistant.Libraries
  /-- Reads which records are wanted. -/
  filterOf? : String → Option Log.Filter

/-- Where the downloads of a command go: into a directory. -/
def Disk.target (disk : Disk) (directory : String) (d : Download) : Except Fault Unit :=
  match disk.refusal (d.pathIn directory) with
  | some fault => .error fault
  | none => .ok ()

/-- The advisers of a command: the checker, and the client, which waits for its answer. -/
def Host.advisers (host : Host) (s : AssistantSettings) : Advisers where
  checker := host.checker
  assistant := fun job document => some (Assistant.ask host.server s job document).2

/-- The operation of a command. -/
def CommandLine.Command.step (command : Command) (w : Workspace) : Step :=
  match command with
  | .validate _ => w.validate
  | .transform .format _ _ => w.format
  | .transform .minify _ _ => w.minify
  | .transform .repair _ _ => w.assist .repair
  | .transform .convert _ _ => w.assist .convert
  | .generate => w.assist .generate

namespace Host

/-- The workspace with the document of a command, or why it could not be had. -/
def opened (host : Host) (a : Advisers) (i : Invocation) : Except (List String) Workspace :=
  match i.path? with
  | some path =>
    match Workspace.load {} host.disk path with
    | .error failure => .error (s!"Failed to load {path}" :: failure.chain)
    | .ok step => .ok (step.take a).workspace
  | none =>
    match Text.Utf8.decode? host.standardInput with
    | some text => .ok (Workspace.setInput {} text)
    | none =>
      let fault :=
        match Text.Utf8.firstFault host.standardInput.toList with
        | some f => Fault.notUtf8 f
        | none => Fault.notText
      .error ["Failed to read standard input", fault.message]

/-- The workspace in which a command begins.  A blank document is none. -/
def beginning (host : Host) (a : Advisers) (i : Invocation) : Except (List String) Workspace :=
  if i.command.takesInput then
    match host.opened a i with
    | .error causes => .error causes
    | .ok w => if w.isBlank then .error [Failure.noInput.message] else .ok w
  else .ok {}

/-- Why a command has no client, if it needs one. -/
def clientFault? (host : Host) (s : Settings) (command : Command) : Option Assistant.SetupFault :=
  if command.needsAssistant then host.setupFault s.assistant else none

/-! ## What is logged -/

/-- What is logged when a document is checked. -/
def checkLog (host : Host) (document : String) : List Log.Event :=
  (host.checkerLog document).map .foreign ++
    (host.checker.diagnose document).toList.map .rejected

/-- What is logged when a document is loaded from a file.  It is checked at once. -/
def loadLog (host : Host) (path text : String) : List Log.Event :=
  .loaded path text.utf8ByteSize :: host.checkLog text

/-- What is logged while the document of a command is read. -/
def inputLog (host : Host) (i : Invocation) : List Log.Event :=
  match i.path? with
  | some path =>
    match Workspace.load {} host.disk path with
    | .ok (.check text _) => host.loadLog path text
    | _ => []
  | none => []

/-- What is logged while a client is set up for a command. -/
def clientLog (host : Host) (s : Settings) (command : Command) : List Log.Event :=
  if command.needsAssistant then (host.libraries.setup s.assistant).map .foreign else []

/-- What is logged while an operation takes this turn. -/
def turnLog (host : Host) (s : AssistantSettings) (turn : Turn) : List Log.Event :=
  let settled := Log.Event.noticed turn.workspace.notice
  (turn.checked.flatMap fun document => host.checkLog document ++ [settled]) ++
    turn.asked.flatMap fun (job, document) =>
      .noticed (.waiting job) :: Assistant.log host.libraries host.server s job document ++
        [settled]

/-! ## The stages -/

/-- The export of what an operation has left: to standard output, or to a directory. -/
def exported (host : Host) (c : Console) (command : Command) (w : Workspace) (e : Ending) :
    Ending :=
  match command with
  | .validate _ => e.withTime c.showsTime
  | .generate => { e with output := w.input ++ "\n" }.withTime c.showsTime
  | .transform _ _ none => { e with output := w.output ++ "\n" }.withTime c.showsTime
  | .transform _ _ (some directory) =>
    match w.save (host.disk.target directory) with
    | .error failure => e.failed (s!"Failed to save into {directory}" :: failure.chain)
    | .ok d =>
      let path := d.pathIn directory
      let e := { e with
        lines := e.lines ++ [Ending.Line.logged (.saved path d.mediaType)]
        saved := some (path, d.content) }
      (e.withNotes (c.savedLine? path w.view).toList).withTime c.showsTime

/-- Performs the operation of a command, and ends with its result. -/
def carriedOut (host : Host) (s : Settings) (command : Command) (w : Workspace) : Ending :=
  let c : Console := ⟨s.display.verbosity, s.display.color⟩
  let turn := (command.step w).take (host.advisers s.assistant)
  let w := turn.workspace
  let requests := turn.asked.filterMap fun (job, document) =>
    (Assistant.ask host.server s.assistant job document).1
  let shown : Ending :=
    { lines := (c.statusLine? w.status w.notice.text).toList.map .note, requests := requests }
  Ending.afterEvents (host.turnLog s.assistant turn ++ [.finished command w.status]) <|
    if w.status = .error then
      { shown.withNotes (w.diagnosis.map c.details).toList with exitCode := 1 }
    else host.exported c command w shown

/-- Runs the command, and keeps all that is logged. -/
def course (host : Host) (i : Invocation) : Ending :=
  match i.objection? host.disk with
  | some objection => Ending.failed [objection.message] {}
  | none =>
    match Settings.load host.toSources i with
    | .error error => Ending.failed error.chain {}
    | .ok s =>
      let a := host.advisers s.assistant
      let loaded := Log.Event.settingsLoaded s.assistant.model s.assistant.timeout
      Ending.afterEvents (loaded :: host.inputLog i) <|
        match host.beginning a i with
        | .error causes => Ending.failed causes {}
        | .ok w =>
          Ending.afterEvents (host.clientLog s i.command) <|
            match host.clientFault? s i.command with
            | some fault => Ending.failed fault.chain {}
            | none => host.carriedOut s i.command w

/-- The variable that says which records are wanted. -/
def filterVariable : String := "RUST_LOG"

/-- Which records are written. -/
def filter (host : Host) (i : Invocation) : Log.Filter :=
  ((host.environment filterVariable).bind host.filterOf?).getD (.atLeast i.verbosity.logLevel)

/-- Runs the command. -/
def run (host : Host) (i : Invocation) : Ending := (host.course i).filtered (host.filter i)

end Host
end MarkupDesk
