import MarkupDesk.Proofs.Run.Input
import MarkupDesk.Proofs.Workspace.Turn

/-!
# Where the document of a run comes from

A document can be given to a command as a file or on standard input.  A file is loaded, and
so checked and laid out before the command begins; from standard input the document is only
put into the workspace.  So a command may begin with an output or without one
(`exists_beginning_of_given?`).

This makes no difference to what it does.  No operation reads the output: it either writes it
anew or leaves it alone, and it leaves it alone only if it fails or if it is no transformation
(`take_step_put`).  In these cases the run does not show it (`carriedOut_put`).  Hence the
course of a run is determined by the document and by what is logged while it is read
(`course_eq_courseOn`).

It does make a difference to the log.  The loading of a file is logged, with a check of its own,
and the record of the finished command names the file.  `run_withInput` says that the two
endings differ in nothing else, and so not at all if the filter of the log keeps these records
back.
-/
namespace MarkupDesk

open Assistant (Job)
open CommandLine

/-! ## The output that is there when a command begins -/

/-- The workspace with another output. -/
def Workspace.put (w : Workspace) (output : String) : Workspace := { w with output := output }

/-- The turn with another output. -/
def Turn.put (t : Turn) (output : String) : Turn :=
  { t with workspace := t.workspace.put output }

namespace Workspace

/-- A loaded document differs from one that is put in by the output alone. -/
theorem exists_withUpload_eq_put (w : Workspace) (text : String) (verdict : Option Diagnosis) :
    ∃ output, w.withUpload text verdict = (w.setInput text).put output := by
  cases verdict with
  | none => exact ⟨Markup.format text, rfl⟩
  | some d => exact ⟨w.output, rfl⟩

variable {w : Workspace} {a : Advisers}

/-- Checking alone leaves the output. -/
theorem take_validate_put (hblank : ¬ w.isBlank = true) (output : String) :
    (w.put output).validate.take a = (w.validate.take a).put output := by
  have hput : ¬ (w.put output).isBlank = true := hblank
  have hinput : (w.put output).input = w.input := rfl
  rw [validate, validate, take_checked, take_checked, if_neg hblank, if_neg hput, hinput]
  cases a.checker.diagnose w.input <;> rfl

/-- An operation that writes the output anew if the document is accepted, and fails
otherwise. -/
theorem take_checked_put {resume resume' : Option Diagnosis → Workspace}
    (hblank : ¬ w.isBlank = true) {output : String} (haccepted : resume' none = resume none)
    (hrejected : ∀ d, resume' (some d) = (resume (some d)).put output ∧
      (resume (some d)).status = .error) :
    ((w.put output).checked resume').take a = (w.checked resume).take a ∨
      ((w.put output).checked resume').take a = ((w.checked resume).take a).put output ∧
        ((w.checked resume).take a).workspace.status = .error := by
  have hput : ¬ (w.put output).isBlank = true := hblank
  have hinput : (w.put output).input = w.input := rfl
  rw [take_checked, take_checked, if_neg hblank, if_neg hput, hinput]
  cases a.checker.diagnose w.input with
  | none =>
    left
    rw [haccepted]
  | some d =>
    right
    obtain ⟨hkept, herror⟩ := hrejected d
    refine ⟨?_, herror⟩
    rw [hkept]
    rfl

/-- A job with a result writes the output anew, and fails otherwise. -/
theorem take_assist_put {job : Job} (hjob : job ≠ .generate) (hblank : ¬ w.isBlank = true)
    (hanswers : a.assistant job w.input ≠ none) (output : String) :
    ((w.put output).assist job).take a = (w.assist job).take a ∨
      ((w.put output).assist job).take a = ((w.assist job).take a).put output ∧
        ((w.assist job).take a).workspace.status = .error := by
  have hdeclines : ¬ w.Declines job := fun h => hblank h.2
  have hput : ¬ (w.put output).Declines job := fun h => hblank h.2
  have hinput : (w.put output).input = w.input := rfl
  rw [take_assist, take_assist, if_neg hdeclines, if_neg hput, document_of_ne_generate w hjob,
    document_of_ne_generate _ hjob, hinput]
  rcases h : a.assistant job w.input with _ | error | result
  · exact absurd h hanswers
  · exact .inr ⟨rfl, rfl⟩
  · left
    cases job with
    | generate => exact absurd rfl hjob
    | repair | convert => rfl

/-- **An output that is there before is written anew, or not shown.**  A command that works on
a document writes the output, unless it only checks the document, or fails. -/
theorem take_step_put {command : Command} (htakes : command.takesInput = true)
    (hblank : ¬ w.isBlank = true) (hanswers : ∀ job document, a.assistant job document ≠ none)
    (output : String) :
    (command.step (w.put output)).take a = (command.step w).take a ∨
      (command.step (w.put output)).take a = ((command.step w).take a).put output ∧
        (((command.step w).take a).workspace.status = .error ∨
          ∃ input, command = .validate input) := by
  cases command with
  | generate => cases htakes
  | validate input => exact .inr ⟨take_validate_put hblank output, .inr ⟨input, rfl⟩⟩
  | transform kind input directory =>
    refine Or.imp id (And.imp id Or.inl) ?_
    cases kind with
    | format => exact take_checked_put hblank rfl fun d => ⟨rfl, rfl⟩
    | minify => exact take_checked_put hblank rfl fun d => ⟨rfl, rfl⟩
    | repair => exact take_assist_put (by decide) hblank (hanswers _ _) output
    | convert => exact take_assist_put (by decide) hblank (hanswers _ _) output

end Workspace

namespace Host

variable {host : Host} {i : Invocation}

/-! ## The run on a document -/

/-- **A run does not show an output that was there before its operation.** -/
theorem carriedOut_put {command : Command} (htakes : command.takesInput = true) {w : Workspace}
    (hblank : ¬ w.isBlank = true) (s : Settings) (output : String) :
    host.carriedOut s command (w.put output) = host.carriedOut s command w := by
  have hanswers : ∀ job document, (host.advisers s.assistant).assistant job document ≠ none :=
    fun _ _ => Option.some_ne_none _
  rcases Workspace.take_step_put htakes hblank hanswers output with hsame | ⟨hput, hhidden⟩
  · rw [carriedOut, hsame]
    rfl
  · rw [carriedOut, hput, carriedOut]
    generalize (command.step w).take (host.advisers s.assistant) = turn at hhidden ⊢
    have hstatus : (turn.put output).workspace.status = turn.workspace.status := rfl
    by_cases herror : turn.workspace.status = .error
    · simp only [hstatus, herror, if_true]
      rfl
    · obtain ⟨input, rfl⟩ := hhidden.resolve_left herror
      simp only [hstatus, if_neg herror]
      rfl

/-- The text that a command is given: by the file that its input names, or else on standard
input. -/
def given? (host : Host) (i : Invocation) : Option String :=
  match i.path? with
  | some path => Workspace.loaded? host.disk path
  | none => Text.Utf8.decode? host.standardInput

/-- A text that can be had is put into the workspace, and perhaps laid out. -/
theorem exists_opened_of_given? (a : Advisers) {text : String} (h : host.given? i = some text) :
    ∃ output, host.opened a i = .ok ((Workspace.setInput {} text).put output) := by
  unfold given? at h
  unfold opened
  cases hpath : i.path? with
  | none =>
    rw [hpath] at h
    simp only [h]
    exact ⟨"", rfl⟩
  | some path =>
    rw [hpath] at h
    obtain ⟨output, hput⟩ := Workspace.exists_withUpload_eq_put {} text (a.checker.diagnose text)
    refine ⟨output, ?_⟩
    rw [← hput]
    simp only [Workspace.load_of_loaded? h {}]
    rfl

/-- A command begins with its text, unless that is blank. -/
theorem exists_beginning_of_given? (a : Advisers) (htakes : i.command.takesInput = true)
    {text : String} (h : host.given? i = some text) :
    ∃ output, host.beginning a i =
      if Text.isBlankText text then .error [Failure.noInput.message]
      else .ok ((Workspace.setInput {} text).put output) := by
  obtain ⟨output, hopened⟩ := exists_opened_of_given? a h
  refine ⟨output, ?_⟩
  rw [beginning, if_pos htakes, hopened]
  rfl

/-- What is logged while a text is read that can be had: its loading, if it is from a file. -/
theorem inputLog_of_given? {text : String} (h : host.given? i = some text) :
    host.inputLog i = (i.path?.map fun path => host.loadLog path text).getD [] := by
  unfold given? at h
  unfold inputLog
  cases hpath : i.path? with
  | none => rfl
  | some path =>
    rw [hpath] at h
    simp only [Workspace.load_of_loaded? h {}]
    rfl

/-- What a command does with its text, once its settings are there. -/
def courseWith (host : Host) (i : Invocation) (s : Settings) (text : String) : Ending :=
  if Text.isBlankText text then Ending.failed [Failure.noInput.message] {}
  else
    Ending.afterEvents (host.clientLog s i.command) <|
      match host.clientFault? s i.command with
      | some fault => Ending.failed fault.chain {}
      | none => host.carriedOut s i.command (Workspace.setInput {} text)

/-- The course of a command on a text, with what is logged while the text is read. -/
def courseOn (host : Host) (i : Invocation) (reading : List Log.Event) (text : String) : Ending :=
  match i.objection? host.disk with
  | some objection => Ending.failed [objection.message] {}
  | none =>
    match Settings.load host.toSources i with
    | .error error => Ending.failed error.chain {}
    | .ok s =>
      Ending.afterEvents (.settingsLoaded s.assistant.model s.assistant.timeout :: reading)
        (host.courseWith i s text)

/-- **The course of a run is determined by its text** and what is logged while it is read,
wherever the text was found. -/
theorem course_eq_courseOn (htakes : i.command.takesInput = true) {text : String}
    (h : host.given? i = some text) :
    host.course i = host.courseOn i (host.inputLog i) text := by
  unfold course courseOn
  cases i.objection? host.disk with
  | some objection => rfl
  | none =>
    cases Settings.load host.toSources i with
    | error error => rfl
    | ok s =>
      obtain ⟨output, hbeginning⟩ :=
        exists_beginning_of_given? (host.advisers s.assistant) htakes h
      unfold courseWith
      simp only [hbeginning]
      by_cases hblank : Text.isBlankText text = true
      · rw [if_pos hblank, if_pos hblank]
      · rw [if_neg hblank, if_neg hblank]
        have hput : host.carriedOut s i.command ((Workspace.setInput {} text).put output) =
            host.carriedOut s i.command (Workspace.setInput {} text) :=
          carriedOut_put htakes (show ¬ (Workspace.setInput {} text).isBlank = true from hblank) s
            output
        cases host.clientFault? s i.command with
        | some fault => rfl
        | none => exact congrArg (fun e => Ending.afterEvents _ (Ending.afterEvents _ e)) hput

/-! ## The input shows in one record -/

/-- An export does not look at where the text came from. -/
theorem exported_withInput (host : Host) (c : Console) (command : Command)
    (input : Option String) (w : Workspace) (e : Ending) :
    host.exported c (command.withInput input) w (e.withInput input) =
      (host.exported c command w e).withInput input := by
  cases command with
  | validate _ => exact (e.withInput_withTime input _).symm
  | generate => exact (Ending.withInput_withTime input _ { e with output := _ }).symm
  | transform kind _ directory =>
    cases directory with
    | none => exact (Ending.withInput_withTime input _ { e with output := _ }).symm
    | some directory =>
      show host.exported c (.transform kind input (some directory)) w (e.withInput input) = _
      cases hsave : w.save (host.disk.target directory) with
      | error failure =>
        simp only [exported, hsave]
        exact (e.withInput_failed input _).symm
      | ok d =>
        simp only [exported, hsave, Ending.withInput_withTime, Ending.withInput_withNotes]
        congr 2
        rw [Ending.withInput, Ending.withInput, List.map_append]
        rfl

/-- An operation and its export do not look at where the text came from. -/
theorem carriedOut_withInput (host : Host) (s : Settings) (command : Command)
    (input : Option String) (w : Workspace) :
    host.carriedOut s (command.withInput input) w =
      (host.carriedOut s command w).withInput input := by
  unfold carriedOut
  simp only [Command.step_withInput, Ending.withInput_afterEvents, List.map_append,
    map_withInput_turnLog, List.map_cons, List.map_nil, Log.Event.withInput]
  congr 1
  generalize (command.step w).take (host.advisers s.assistant) = turn
  split
  · simp only [Ending.withNotes, Ending.withInput, List.map_append,
      Ending.Line.map_withInput_note]
  · rw [← exported_withInput]
    simp only [Ending.withInput, Ending.Line.map_withInput_note]

/-- What a command does with its text does not depend on where the text came from: neither on
the input of the command nor on standard input. -/
theorem courseWith_withInput (host : Host) (i : Invocation) (s : Settings) (text : String)
    (input : Option String) (content : ByteArray) :
    { host with standardInput := content }.courseWith (i.withInput input) s text =
      (host.courseWith i s text).withInput input := by
  have hfault : { host with standardInput := content }.clientFault? s
      (i.withInput input).command = host.clientFault? s i.command := by
    show clientFault? _ s (i.command.withInput input) = _
    rw [clientFault?, Command.needsAssistant_withInput]
    rfl
  have hlog : { host with standardInput := content }.clientLog s (i.withInput input).command =
      host.clientLog s i.command := by
    show clientLog _ s (i.command.withInput input) = _
    rw [clientLog, Command.needsAssistant_withInput]
    rfl
  unfold courseWith
  rw [hfault, hlog]
  split
  · rfl
  · rw [Ending.withInput_afterEvents, map_withInput_clientLog]
    cases host.clientFault? s i.command with
    | some fault => rfl
    | none => exact congrArg _ (host.carriedOut_withInput s i.command input _)

/-! ## The two channels -/

/-- Whether a run gets as far as its document. -/
def Reads (host : Host) (i : Invocation) : Prop :=
  i.objection? host.disk = none ∧ ∃ s, Settings.load host.toSources i = .ok s

/-- Settings that can be loaded are found by loading them. -/
theorem exists_load_of_isSome {sources : Settings.Sources}
    (h : (Settings.load sources i).toOption.isSome = true) :
    ∃ s, Settings.load sources i = .ok s := by
  cases hload : Settings.load sources i with
  | ok s => exact ⟨s, rfl⟩
  | error e =>
    rw [hload] at h
    cases h

/-- The events whose records are written. -/
def shown (host : Host) (i : Invocation) (events : List Log.Event) : List Log.Event :=
  events.filter fun e => host.filter i e.origin

/-- On standard input the course is that with the file, without the records of its loading and
with the other input in the record of the command. -/
theorem course_withInput {path text : String} {content : ByteArray} {input : Option String}
    (hpath : i.path? = some path) (hloadable : isLoadable path = true)
    (hfile : host.disk.find path = .file content)
    (htext : Text.Utf8.decode? content = some text) (hinput : inputPath? input = none) :
    (host.Reads i ∧ ∃ model timeout e,
        host.course i =
          Ending.afterEvents (.settingsLoaded model timeout :: host.loadLog path text) e ∧
        { host with standardInput := content }.course (i.withInput input) =
          (e.withInput input).afterEvents [.settingsLoaded model timeout]) ∨
      ¬ host.Reads i ∧
        { host with standardInput := content }.course (i.withInput input) = host.course i := by
  have htakes := Invocation.takesInput_of_path? hpath
  have hread : host.disk.readText path = .ok text := by
    simp only [Disk.readText, hfile, htext]
  have hgiven : host.given? i = some text := by
    unfold given?
    rw [hpath]
    show Workspace.loaded? host.disk path = some text
    rw [Workspace.loaded?, if_pos hloadable, hread]
    rfl
  have hpath' : (i.withInput input).path? = none := by
    rw [Invocation.path?_withInput input htakes, hinput]
  have hgiven' : { host with standardInput := content }.given? (i.withInput input) =
      some text := by
    unfold given?
    rw [hpath']
    exact htext
  have htakes' : (i.withInput input).command.takesInput = true :=
    (Command.takesInput_withInput input i.command).trans htakes
  rw [course_eq_courseOn htakes hgiven, course_eq_courseOn htakes' hgiven',
    inputLog_of_given? hgiven, inputLog_of_given? hgiven', hpath, hpath']
  unfold courseOn
  rw [Invocation.objection?_withInput, Invocation.load_withInput]
  cases hobjection : i.objection? host.disk with
  | some objection =>
    refine .inr ⟨fun h => ?_, rfl⟩
    rw [h.1] at hobjection
    cases hobjection
  | none =>
    cases hsettings : Settings.load host.toSources i with
    | error error =>
      refine .inr ⟨fun h => ?_, rfl⟩
      obtain ⟨_, s, hs⟩ := h
      rw [hs] at hsettings
      cases hsettings
    | ok s =>
      refine .inl ⟨⟨hobjection, s, hsettings⟩, s.assistant.model, s.assistant.timeout,
        host.courseWith i s text, rfl, ?_⟩
      exact congrArg (Ending.afterEvents [_]) (host.courseWith_withInput i s text input content)

/-- Without `--verbose`, and unless the environment asks for more, only warnings and errors are
logged. -/
theorem shown_eq_nil_of_usual (hunset : (host.environment filterVariable).bind host.filterOf? = none)
    (hverbose : i.verbose = false) {events : List Log.Event}
    (h : ∀ event ∈ events, event.origin.severity.rank < Log.Severity.warn.rank) :
    host.shown i events = [] := by
  have hleast : Log.Severity.warn.rank ≤ i.verbosity.logLevel.rank := by
    rw [Invocation.verbosity, hverbose]
    cases i.quiet <;> decide
  refine List.filter_eq_nil_iff.mpr fun event hmem => ?_
  have hlow := h event hmem
  rw [filter, hunset]
  exact fun hpasses => absurd (of_decide_eq_true hpasses) (by omega)

/-- The loading of a document is no reason for a warning, unless the checker has one. -/
theorem rank_lt_warn_of_mem_loadLog {path text : String}
    (hchecker : ∀ r ∈ host.checkerLog text, r.origin.severity.rank < Log.Severity.warn.rank)
    {event : Log.Event} (h : event ∈ host.loadLog path text) :
    event.origin.severity.rank < Log.Severity.warn.rank := by
  simp only [loadLog, checkLog, List.mem_cons, List.mem_append, List.mem_map] at h
  rcases h with rfl | ⟨r, hr, rfl⟩ | ⟨d, _, rfl⟩
  · exact show Log.Severity.info.rank < Log.Severity.warn.rank by decide
  · exact hchecker r hr
  · exact show Log.Severity.debug.rank < Log.Severity.warn.rank by decide

/-- On standard input a run ends as with the file, without the records of the loading, and with
another input in the record of the command, if that is shown. -/
theorem run_withInput_cases {path text : String} {content : ByteArray} {input : Option String}
    (hpath : i.path? = some path) (hloadable : isLoadable path = true)
    (hfile : host.disk.find path = .file content)
    (htext : Text.Utf8.decode? content = some text) (hinput : inputPath? input = none) :
    (host.Reads i ∧ ∃ (before : List Log.Event) (e : Ending),
        host.run i = (e.afterEvents (host.shown i (host.loadLog path text))).afterEvents before ∧
        { host with standardInput := content }.run (i.withInput input) =
          (e.withInput input).afterEvents before ∧
        ((∀ status, host.shown i [.finished i.command status] = []) → e.withInput input = e)) ∨
      ¬ host.Reads i ∧
        { host with standardInput := content }.run (i.withInput input) = host.run i := by
  have hfilter : { host with standardInput := content }.filter (i.withInput input) =
      host.filter i := rfl
  rw [run, run, hfilter]
  rcases course_withInput hpath hloadable hfile htext hinput with
    ⟨hreads, model, timeout, e, hcourse, hcourse'⟩ | ⟨hreads, hsame⟩
  · refine .inl ⟨hreads, host.shown i [.settingsLoaded model timeout],
      e.filtered (host.filter i), ?_, ?_, fun hend => ?_⟩
    · rw [hcourse, Ending.filtered_afterEvents, Ending.afterEvents_afterEvents]
      exact congrArg (Ending.afterEvents · _) (List.filter_append [_] _)
    · rw [hcourse', Ending.filtered_afterEvents, Ending.filtered_withInput]
      rfl
    · refine Ending.withInput_filtered_of_hidden input (fun command status => ?_) e
      exact Bool.eq_false_iff.mpr
        (List.filter_eq_nil_iff.mp (hend status) (.finished i.command status)
          List.mem_cons_self)
  · exact .inr ⟨hreads, congrArg _ hsame⟩

/-- **The channel of the input shows in the log only.**  A command that is given a text in a
file ends as if it had been given the bytes of that file on standard input: without the log, the
two endings are the same.

If the document is read at all, the log of the run with the file has the records of its loading
in addition, and the record of the command has its own input.  So the two endings are the same
if the log keeps back these records, as it usually does. -/
theorem run_withInput {path text : String} {content : ByteArray} {input : Option String}
    (hpath : i.path? = some path) (hloadable : isLoadable path = true)
    (hfile : host.disk.find path = .file content)
    (htext : Text.Utf8.decode? content = some text) (hinput : inputPath? input = none) :
    let typed := { host with standardInput := content }.run (i.withInput input)
    let read := host.run i
    typed.withoutLog = read.withoutLog ∧
      (host.Reads i → ∃ before after,
        read.lines = before ++ (host.shown i (host.loadLog path text)).map .logged ++ after ∧
          typed.lines = before ++ after.map (Ending.Line.withInput input)) ∧
      (¬ host.Reads i → typed = read) ∧
      (host.shown i (host.loadLog path text) = [] →
        (∀ status, host.shown i [.finished i.command status] = []) → typed = read) ∧
      ((host.environment filterVariable).bind host.filterOf? = none → i.verbose = false →
        (∀ r ∈ host.checkerLog text, r.origin.severity.rank < Log.Severity.warn.rank) →
          typed = read) := by
  intro typed read
  rcases run_withInput_cases hpath hloadable hfile htext hinput with
    ⟨hreads, before, e, hread, htyped, hunseen⟩ | ⟨hreads, hequal⟩
  · change read = _ at hread
    change typed = _ at htyped
    have hidden (hload : host.shown i (host.loadLog path text) = [])
        (hend : ∀ status, host.shown i [.finished i.command status] = []) : typed = read := by
      rw [htyped, hread, hload, hunseen hend]
      rfl
    refine ⟨?_, fun _ => ⟨before.map .logged, e.lines, ?_, ?_⟩, fun h => absurd hreads h, hidden,
      fun hunset hverbose hchecker => hidden ?_ fun status => ?_⟩
    · simp only [htyped, hread, Ending.withoutLog_afterEvents, Ending.withoutLog_withInput]
    · rw [hread, List.append_assoc]
      rfl
    · rw [htyped]
      rfl
    · exact shown_eq_nil_of_usual hunset hverbose fun event =>
        rank_lt_warn_of_mem_loadLog hchecker
    · refine shown_eq_nil_of_usual hunset hverbose fun event hmem => ?_
      rw [List.mem_singleton.mp hmem]
      exact show Log.Severity.info.rank < Log.Severity.warn.rank by decide
  · exact ⟨congrArg _ hequal, fun h => absurd h hreads, fun _ => hequal, fun _ _ => hequal,
      fun _ _ _ => hequal⟩

/-- A host with one file, where every document passes the check, and with a service that
cannot be reached. -/
def holding (path : String) (content : ByteArray) : Host where
  disk := ⟨fun p => if p = path then .file content else .nothing .notFound, fun _ => none⟩
  userDirectory := none
  environment := fun _ => none
  terminal := false
  readers := ⟨fun _ => "", fun _ => ""⟩
  standardInput := .empty
  checker := fun _ => none
  checkerLog := fun _ => []
  server := fun _ => .broken
  libraries := .silent
  filterOf? := fun _ => none

theorem find_holding (path : String) (content : ByteArray) :
    (holding path content).disk.find path = .file content := if_pos rfl

theorem run_withInput_minify :
    let host := holding "a.xml" "<a> </a>".toUTF8
    let brief : Invocation := { command := .transform .minify (some "a.xml") none }
    let verbose : Invocation := { brief with verbose := true }
    let typed (i : Invocation) :=
      { host with standardInput := "<a> </a>".toUTF8 }.run (i.withInput (some "-"))
    (typed brief = host.run brief ∧ (host.run brief).output = "<a></a>\n") ∧
      (typed verbose).withoutLog = (host.run verbose).withoutLog ∧
      ∃ before after,
        (host.run verbose).lines = before ++ [.logged (.loaded "a.xml" 8)] ++ after ∧
          (typed verbose).lines = before ++ after.map (Ending.Line.withInput (some "-")) := by
  intro host brief verbose typed
  have hfile : host.disk.find "a.xml" = .file "<a> </a>".toUTF8 := find_holding _ _
  have htext : Text.Utf8.decode? "<a> </a>".toUTF8 = some "<a> </a>" := by decide +kernel
  have hloadable : isLoadable "a.xml" = true := by decide +kernel
  have hinput : inputPath? (some "-") = none := by decide
  obtain ⟨_, _, _, _, hbrief⟩ := run_withInput (i := brief) rfl hloadable hfile htext hinput
  obtain ⟨hquiet, hlines, _⟩ := run_withInput (i := verbose) rfl hloadable hfile htext hinput
  have hreads : host.Reads verbose :=
    ⟨by decide +kernel, exists_load_of_isSome (by decide +kernel)⟩
  have hloading : host.shown verbose (host.loadLog "a.xml" "<a> </a>") =
      [.loaded "a.xml" 8] := by decide +kernel
  refine ⟨⟨hbrief rfl rfl nofun, by decide +kernel⟩, hquiet, ?_⟩
  obtain ⟨before, after, hread, htyped⟩ := hlines hreads
  rw [hloading] at hread
  exact ⟨before, after, hread, htyped⟩

/-- The texts on standard error are not the same with `--verbose`. -/
theorem not_forall_run_withInput :
    ¬ ∀ (host : Host) (i : Invocation) (path text : String) (content : ByteArray)
      (input : Option String), i.path? = some path → isLoadable path = true →
      host.disk.find path = .file content → Text.Utf8.decode? content = some text →
      inputPath? input = none →
      ({ host with standardInput := content }.run (i.withInput input)).errorText
          (fun _ => true) (·.text) "0s" =
        (host.run i).errorText (fun _ => true) (·.text) "0s" := by
  intro h
  have hsame := h (holding "a.xml" "<a/>".toUTF8)
    { command := .validate (some "a.xml"), verbose := true } "a.xml" "<a/>" "<a/>".toUTF8 none
    rfl (by decide +kernel) (find_holding _ _) (by decide +kernel) rfl
  revert hsame
  decide +kernel

end Host
end MarkupDesk
