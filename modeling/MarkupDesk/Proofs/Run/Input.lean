import MarkupDesk.Run

/-!
# The input of a command

A command names its input.  Another input makes another command with the same options
(`Command.withInput`), which does the same on the same document (`step_withInput`).

The log tells of the command once, when it is over.  So a different input shows in one record
and nowhere else: `Ending.withInput` exchanges it there, `Ending.filtered_withInput` says
that a filter does not see it, and what is logged before does not have it
(`Host.map_withInput_turnLog`).
-/
namespace MarkupDesk

open Assistant (Job)
open CommandLine

/-! ## Commands -/

namespace CommandLine

/-- The command with another input. -/
def Command.withInput (input : Option String) : Command → Command
  | .validate _ => .validate input
  | .transform kind _ directory => .transform kind input directory
  | .generate => .generate

/-- The invocation with another input. -/
def Invocation.withInput (input : Option String) (i : Invocation) : Invocation :=
  { i with command := i.command.withInput input }

variable (input : Option String)

@[simp] theorem Command.takesInput_withInput (command : Command) :
    (command.withInput input).takesInput = command.takesInput := by
  cases command <;> rfl

@[simp] theorem Command.needsAssistant_withInput (command : Command) :
    (command.withInput input).needsAssistant = command.needsAssistant := by
  rcases command with _ | ⟨_ | _ | _ | _, _, _⟩ | _ <;> rfl

@[simp] theorem Command.outputDirectory_withInput (command : Command) :
    (command.withInput input).outputDirectory = command.outputDirectory := by
  cases command <;> rfl

@[simp] theorem Command.step_withInput (command : Command) (w : Workspace) :
    (command.withInput input).step w = command.step w := by
  rcases command with _ | ⟨_ | _ | _ | _, _, _⟩ | _ <;> rfl

theorem Command.input_withInput {command : Command} (h : command.takesInput = true) :
    (command.withInput input).input = input := by
  cases command with
  | generate => cases h
  | validate _ | transform _ _ _ => rfl

theorem Invocation.path?_withInput {i : Invocation} (h : i.command.takesInput = true) :
    (i.withInput input).path? = inputPath? input :=
  congrArg inputPath? (Command.input_withInput input h)

/-- A command that has a path takes an input. -/
theorem Invocation.takesInput_of_path? {i : Invocation} {path : String}
    (h : i.path? = some path) : i.command.takesInput = true := by
  unfold path? at h
  cases hcommand : i.command with
  | generate =>
    rw [hcommand] at h
    cases h
  | validate _ | transform _ _ _ => rfl

@[simp] theorem Invocation.objection?_withInput (i : Invocation) (disk : Disk) :
    (i.withInput input).objection? disk = i.objection? disk := by
  simp [objection?, withInput]

@[simp] theorem Invocation.load_withInput (i : Invocation) (sources : Settings.Sources) :
    Settings.load sources (i.withInput input) = Settings.load sources i := rfl

end CommandLine

/-! ## The command in the log -/

/-- The event with another input in the command that it tells of. -/
def Log.Event.withInput (input : Option String) : Log.Event → Log.Event
  | .finished command status => .finished (command.withInput input) status
  | event => event

/-- The line with another input in the command that it tells of. -/
def Ending.Line.withInput (input : Option String) : Ending.Line → Ending.Line
  | .logged event => .logged (event.withInput input)
  | line => line

/-- The ending with another input in the command that it tells of. -/
def Ending.withInput (input : Option String) (e : Ending) : Ending :=
  { e with lines := e.lines.map (Line.withInput input) }

section
variable (input : Option String)

@[simp] theorem Log.Event.origin_withInput (event : Log.Event) :
    (event.withInput input).origin = event.origin := by
  cases event <;> rfl

@[simp] theorem Log.Event.map_withInput_foreign (records : List Log.Record) :
    (records.map Log.Event.foreign).map (Log.Event.withInput input) =
      records.map Log.Event.foreign := by
  simp [Log.Event.withInput]

@[simp] theorem Ending.Line.map_withInput_note (notes : List String) :
    (notes.map Ending.Line.note).map (Ending.Line.withInput input) =
      notes.map Ending.Line.note := by
  rw [List.map_map]
  rfl

theorem Ending.Line.passes_withInput (filter : Log.Filter) (line : Ending.Line) :
    (line.withInput input).passes filter = line.passes filter := by
  cases line with
  | logged event => exact congrArg filter (event.origin_withInput input)
  | note text | time => rfl

/-- A filter goes by origins, and does not see the input. -/
theorem Ending.filtered_withInput (filter : Log.Filter) (e : Ending) :
    (e.withInput input).filtered filter = (e.filtered filter).withInput input := by
  have hpasses : Ending.Line.passes filter ∘ Ending.Line.withInput input =
      Ending.Line.passes filter := funext (Ending.Line.passes_withInput input filter)
  simp [filtered, withInput, List.filter_map, hpasses]

/-- Where the end of an operation is not logged, the input does not show. -/
theorem Ending.withInput_filtered_of_hidden {filter : Log.Filter}
    (hhidden : ∀ command status, filter (Log.Event.finished command status).origin = false)
    (e : Ending) : (e.filtered filter).withInput input = e.filtered filter := by
  have hsame : ∀ line ∈ e.lines.filter (Ending.Line.passes filter),
      line.withInput input = line := by
    intro line hmem
    have hpasses := (List.mem_filter.mp hmem).2
    cases line with
    | note text | time => rfl
    | logged event =>
      cases event with
      | finished command status =>
        rw [Line.passes, hhidden] at hpasses
        cases hpasses
      | _ => rfl
  rw [withInput, filtered, List.map_congr_left hsame, List.map_id']

@[simp] theorem Ending.withoutLog_withInput (e : Ending) :
    (e.withInput input).withoutLog = e.withoutLog := by
  rw [withoutLog, filtered_withInput, withInput_filtered_of_hidden input fun _ _ => rfl]
  rfl

theorem Ending.withInput_afterEvents (events : List Log.Event) (e : Ending) :
    (e.afterEvents events).withInput input =
      (e.withInput input).afterEvents (events.map (Log.Event.withInput input)) := by
  simp [afterEvents, withInput, Ending.Line.withInput]

theorem Ending.withInput_withNotes (notes : List String) (e : Ending) :
    (e.withNotes notes).withInput input = (e.withInput input).withNotes notes := by
  simp [withNotes, withInput, Ending.Line.withInput]

theorem Ending.withInput_withTime (shown : Bool) (e : Ending) :
    (e.withTime shown).withInput input = (e.withInput input).withTime shown := by
  rw [withTime, withInput, List.map_append]
  cases shown <;> rfl

theorem Ending.withInput_failed (causes : List String) (e : Ending) :
    (e.failed causes).withInput input = (e.withInput input).failed causes := by
  simp [failed, withNotes, withInput, Ending.Line.withInput]

/-! What is logged before the end of an operation tells of no command. -/

theorem Assistant.Reply.map_withInput_log (r : Assistant.Reply) :
    r.log.map (Log.Event.withInput input) = r.log := by
  unfold log
  generalize (r.candidates.head?.bind (·.finishReason)).filter (· != "STOP") = stopped
  cases r.usage <;> cases stopped <;> rfl

theorem Assistant.map_withInput_deliveryLog (libraries : Libraries) (s : AssistantSettings)
    (d : Web.Delivery) :
    (deliveryLog libraries s d).map (Log.Event.withInput input) = deliveryLog libraries s d := by
  cases d with
  | broken => rfl
  | reply status body =>
    unfold deliveryLog
    rw [List.map_cons]
    congr 1
    split
    · rfl
    · split
      · rfl
      · exact Reply.map_withInput_log input _

theorem Assistant.map_withInput_log (libraries : Libraries) (server : Web.Server)
    (s : AssistantSettings) (job : Job) (document : String) :
    (log libraries server s job document).map (Log.Event.withInput input) =
      log libraries server s job document := by
  unfold log exchangeLog
  rw [List.map_append]
  congr 1
  · cases usableKey s with
    | none => rfl
    | some key =>
      cases request s job document with
      | error e => rfl
      | ok r => simp [map_withInput_deliveryLog, Log.Event.withInput]
  · cases (ask server s job document).2 <;> rfl

theorem Host.map_withInput_checkLog (host : Host) (document : String) :
    (host.checkLog document).map (Log.Event.withInput input) = host.checkLog document := by
  rw [checkLog, List.map_append, Log.Event.map_withInput_foreign]
  cases host.checker.diagnose document <;> rfl

theorem Host.map_withInput_turnLog (host : Host) (s : AssistantSettings) (turn : Turn) :
    (host.turnLog s turn).map (Log.Event.withInput input) = host.turnLog s turn := by
  unfold turnLog
  simp only [List.map_append, List.map_flatMap, List.map_cons, List.map_nil,
    host.map_withInput_checkLog, Assistant.map_withInput_log]
  rfl

theorem Host.map_withInput_clientLog (host : Host) (s : Settings) (command : Command) :
    (host.clientLog s command).map (Log.Event.withInput input) = host.clientLog s command := by
  unfold clientLog
  split
  · exact Log.Event.map_withInput_foreign input _
  · rfl

end

end MarkupDesk
