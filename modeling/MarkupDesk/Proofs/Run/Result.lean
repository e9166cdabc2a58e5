import MarkupDesk.Disk.Tree
import MarkupDesk.Proofs.Run.Channel

/-!
# Exit codes and results

A run ends with the exit code 1 or with the result of its operation, and never with a part
of both.

Each stage of a run can fail in its own way (`Fails`).  A run in which one of them fails ends
with the exit code 1, and leaves nothing on standard output and no file.  In any other run the
operation has left a workspace that is no failure (`left?`), and what is printed or saved is
the result in this workspace, whole and alone (`Delivers`).

The log is no part of this, so runs are looked at without it.  `run_cases` divides them into
those that end before the operation and those that come to it (`Begins`); the lemmas on
`carriedOut` do the same for the operation and the export.
-/
namespace MarkupDesk

open Assistant (Job)
open CommandLine

/-- Nothing was printed to standard output, and no file was saved. -/
def Ending.Bare (e : Ending) : Prop := e.output = "" ∧ e.saved = none

theorem Ending.bare_withoutLog {e : Ending} : e.withoutLog.Bare ↔ e.Bare := Iff.rfl

namespace Workspace

/-- A file that was saved is the output, under the name that goes with the view. -/
theorem eq_of_save {w : Workspace} {target : Download → Except Fault Unit} {d : Download}
    (h : w.save target = .ok d) : d = ⟨w.view.fileName, w.view.mediaType, w.output⟩ := by
  unfold save download? at h
  split at h
  · cases h
  · rename_i hdownload
    split at hdownload
    · cases hdownload
    · cases hdownload
      split at h
      · cases h
        rfl
      · cases h

/-- A check leaves the view as XML, if that is how it goes on with any verdict. -/
theorem view_take_checked {w : Workspace} {a : Advisers} {resume : Option Diagnosis → Workspace}
    (hview : w.view = .xml) (hresume : ∀ verdict, (resume verdict).view = .xml) :
    ((w.checked resume).take a).workspace.view = .xml := by
  rw [take_checked]
  split
  · exact hview
  · exact hresume _

end Workspace

namespace Host

variable {host : Host} {i : Invocation} {s : Settings}

/-! ## Failures and results -/

/-- The workspace after the operation of a command. -/
def worked (host : Host) (s : Settings) (command : Command) (w : Workspace) : Workspace :=
  ((command.step w).take (host.advisers s.assistant)).workspace

/-- The workspace that a command leaves, if it can begin. -/
def left? (host : Host) (s : Settings) (i : Invocation) : Option Workspace :=
  (host.beginning (host.advisers s.assistant) i).toOption.map (host.worked s i.command)

/-- The result is to be saved, and cannot be. -/
def Unsaved (host : Host) (command : Command) (w : Workspace) : Prop :=
  ∃ directory failure, command.outputDirectory = some directory ∧
    w.save (host.disk.target directory) = .error failure

/-- The ways in which a run fails, one for each stage. -/
inductive Fails (host : Host) (i : Invocation) : Prop where
  | objection {o : Invocation.Objection} : i.objection? host.disk = some o → Fails host i
  | settings {error : SettingsError} :
      Settings.load host.toSources i = .error error → Fails host i
  /-- There is no text, or a blank one. -/
  | input :
      i.command.takesInput = true →
        (∀ text, host.given? i = some text → Text.isBlankText text = true) → Fails host i
  | client {s : Settings} {fault : Assistant.SetupFault} :
      Settings.load host.toSources i = .ok s →
        i.command.needsAssistant = true → host.setupFault s.assistant = some fault → Fails host i
  | operation {s : Settings} {w : Workspace} :
      Settings.load host.toSources i = .ok s →
        host.left? s i = some w → w.status = .error → Fails host i
  | saving {s : Settings} {w : Workspace} :
      Settings.load host.toSources i = .ok s →
        host.left? s i = some w → host.Unsaved i.command w → Fails host i

/-- What an ending holds when a command has left this workspace: nothing of a check, the
sample that the assistant has made up, and of a transformation the output, which is printed
or saved. -/
def Delivers (host : Host) (s : Settings) (w : Workspace) (e : Ending) : Command → Prop
  | .validate _ => e.Bare
  | .generate =>
    ∃ sample, (Assistant.ask host.server s.assistant .generate "").2 = .ok sample ∧
      e.output = sample ++ "\n" ∧ e.saved = none
  | .transform _ _ none => e.output = w.output ++ "\n" ∧ e.saved = none
  | .transform kind _ (some directory) =>
    e.output = "" ∧
      e.saved = some
        (Path.join directory (if kind = .convert then "formatted.json" else "formatted.xml"),
          w.output)

/-- What is delivered does not depend on the log. -/
theorem delivers_withoutLog {w : Workspace} {e : Ending} {command : Command} :
    host.Delivers s w e.withoutLog command ↔ host.Delivers s w e command := Iff.rfl

/-! ## The stages before the operation -/

/-- Without a text a command does not begin. -/
theorem exists_opened_failed (a : Advisers) (h : host.given? i = none) :
    ∃ causes, host.opened a i = .error causes := by
  unfold given? at h
  unfold opened
  cases hpath : i.path? with
  | none =>
    rw [hpath] at h
    simp only [h]
    exact ⟨_, rfl⟩
  | some path =>
    rw [hpath] at h
    obtain ⟨failure, hload⟩ := Workspace.exists_load_failed h {}
    simp only [hload]
    exact ⟨_, rfl⟩

/-- A command that takes a text begins with it, or there is none but a blank one. -/
theorem beginning_cases (a : Advisers) (htakes : i.command.takesInput = true) :
    ((∃ causes, host.beginning a i = .error causes) ∧
      ∀ text, host.given? i = some text → Text.isBlankText text = true) ∨
    ∃ text output, host.given? i = some text ∧ ¬ Text.isBlankText text = true ∧
      host.beginning a i = .ok ((Workspace.setInput {} text).put output) := by
  cases hgiven : host.given? i with
  | none =>
    obtain ⟨causes, hopened⟩ := exists_opened_failed a hgiven
    refine .inl ⟨⟨causes, ?_⟩, fun text h => nomatch h⟩
    rw [beginning, if_pos htakes, hopened]
  | some text =>
    obtain ⟨output, hbeginning⟩ := exists_beginning_of_given? a htakes hgiven
    by_cases hblank : Text.isBlankText text = true
    · refine .inl ⟨⟨_, hbeginning.trans (if_pos hblank)⟩, ?_⟩
      rintro _ ⟨⟩
      exact hblank
    · exact .inr ⟨text, output, rfl, hblank, hbeginning.trans (if_neg hblank)⟩

/-- A run comes to its operation, with these settings and this workspace. -/
structure Begins (host : Host) (i : Invocation) (s : Settings) (w : Workspace) : Prop where
  objection : i.objection? host.disk = none
  settings : Settings.load host.toSources i = .ok s
  beginning : host.beginning (host.advisers s.assistant) i = .ok w
  client : host.clientFault? s i.command = none

/-- **A run ends before its operation only if a stage fails.** -/
theorem run_cases (host : Host) (i : Invocation) :
    (host.Fails i ∧ ∃ causes, (host.run i).withoutLog = (Ending.failed causes {}).withoutLog) ∨
      ∃ s w, host.Begins i s w ∧
        (host.run i).withoutLog = (host.carriedOut s i.command w).withoutLog := by
  rw [run, Ending.withoutLog_filtered]
  unfold course
  cases hobjection : i.objection? host.disk with
  | some objection => exact .inl ⟨.objection hobjection, _, rfl⟩
  | none =>
    cases hload : Settings.load host.toSources i with
    | error error => exact .inl ⟨.settings hload, _, rfl⟩
    | ok s =>
      simp only [Ending.withoutLog_afterEvents]
      cases hbeginning : host.beginning (host.advisers s.assistant) i with
      | error causes =>
        refine .inl ⟨?_, causes, rfl⟩
        by_cases htakes : i.command.takesInput = true
        · rcases beginning_cases (host.advisers s.assistant) htakes with h | ⟨_, _, _, _, h⟩
          · exact .input htakes h.2
          · rw [hbeginning] at h
            cases h
        · rw [beginning, if_neg htakes] at hbeginning
          cases hbeginning
      | ok w =>
        cases hclient : host.clientFault? s i.command with
        | some fault =>
          refine .inl ⟨?_, fault.chain, Ending.withoutLog_afterEvents _ _⟩
          unfold clientFault? at hclient
          split at hclient
          · exact .client hload ‹_› hclient
          · cases hclient
        | none =>
          exact .inr ⟨s, w, ⟨hobjection, hload, hbeginning, hclient⟩,
            Ending.withoutLog_afterEvents _ _⟩

theorem Begins.left? {w : Workspace} (h : host.Begins i s w) :
    host.left? s i = some (host.worked s i.command w) := by
  rw [Host.left?, h.beginning]
  rfl

/-! ## The operation and the export -/

/-- The assistant of a command always answers. -/
theorem workspace_take_assist_advisers {w : Workspace} {job : Job} (h : ¬ w.Declines job) :
    ((w.assist job).take (host.advisers s.assistant)).workspace =
      w.answered job (some (Assistant.ask host.server s.assistant job (w.document job)).2) := by
  rw [Workspace.workspace_take_assist, if_neg h]
  rfl

/-- The sample of the assistant becomes the input. -/
theorem exists_sample (w : Workspace) (h : (host.worked s .generate w).status ≠ .error) :
    ∃ sample, (Assistant.ask host.server s.assistant .generate "").2 = .ok sample ∧
      (host.worked s .generate w).input = sample := by
  have hdeclines : ¬ w.Declines .generate := fun hd => hd.1 rfl
  have hworked : host.worked s .generate w =
      w.answered .generate (some (Assistant.ask host.server s.assistant .generate "").2) :=
    workspace_take_assist_advisers hdeclines
  rw [hworked] at h ⊢
  cases hanswer : (Assistant.ask host.server s.assistant .generate "").2 with
  | error error =>
    rw [hanswer] at h
    exact absurd rfl h
  | ok sample => exact ⟨sample, rfl, rfl⟩

/-- A transformation that does not fail is shown as what it makes: a conversion as JSON, and
all others as XML. -/
theorem view_worked {kind : Transform} {input directory : Option String} {w : Workspace}
    (hblank : ¬ w.isBlank = true) (hview : w.view = .xml)
    (h : (host.worked s (.transform kind input directory) w).status ≠ .error) :
    (host.worked s (.transform kind input directory) w).view =
      if kind = .convert then .json else .xml := by
  cases kind with
  | format =>
    refine Workspace.view_take_checked hview fun verdict => ?_
    cases verdict with
    | none => rfl
    | some d => exact hview
  | minify =>
    refine Workspace.view_take_checked hview fun verdict => ?_
    cases verdict with
    | none => rfl
    | some d => exact hview
  | repair =>
    have hworked : host.worked s (.transform .repair input directory) w =
        w.answered .repair (some (Assistant.ask host.server s.assistant .repair w.input).2) :=
      workspace_take_assist_advisers fun hd => hblank hd.2
    rw [hworked]
    cases (Assistant.ask host.server s.assistant .repair w.input).2 <;> exact hview
  | convert =>
    have hworked : host.worked s (.transform .convert input directory) w =
        w.answered .convert (some (Assistant.ask host.server s.assistant .convert w.input).2) :=
      workspace_take_assist_advisers fun hd => hblank hd.2
    rw [hworked] at h ⊢
    cases hanswer : (Assistant.ask host.server s.assistant .convert w.input).2 with
    | error error =>
      rw [hanswer] at h
      exact absurd rfl h
    | ok result => rfl

variable {command : Command} {w : Workspace}

/-- An operation that fails leaves nothing behind. -/
theorem carriedOut_of_error (h : (host.worked s command w).status = .error) :
    (host.carriedOut s command w).exitCode = 1 ∧ (host.carriedOut s command w).Bare := by
  have hcarried : host.carriedOut s command w = Ending.afterEvents _ _ :=
    congrArg (Ending.afterEvents _) (if_pos h)
  rw [hcarried]
  exact ⟨rfl, rfl, rfl⟩

/-- An operation that does not fail is exported, with nothing left behind before. -/
theorem exists_carriedOut_eq_exported (h : (host.worked s command w).status ≠ .error) :
    ∃ (c : Console) (e : Ending), e.exitCode = 0 ∧ e.Bare ∧
      (host.carriedOut s command w).withoutLog =
        (host.exported c command (host.worked s command w) e).withoutLog :=
  ⟨_, _, rfl, ⟨rfl, rfl⟩,
    (Ending.withoutLog_afterEvents _ _).trans (congrArg Ending.withoutLog (if_neg h))⟩

/-- A result that cannot be saved leaves nothing behind. -/
theorem carriedOut_of_unsaved (h : (host.worked s command w).status ≠ .error)
    (hunsaved : host.Unsaved command (host.worked s command w)) :
    (host.carriedOut s command w).exitCode = 1 ∧ (host.carriedOut s command w).Bare := by
  obtain ⟨c, e, _, hbare, hcarried⟩ := exists_carriedOut_eq_exported h
  obtain ⟨directory, failure, hdirectory, hsave⟩ := hunsaved
  cases command with
  | validate _ | generate => cases hdirectory
  | transform kind input directory =>
    cases hdirectory
    rw [← Ending.exitCode_withoutLog, ← Ending.bare_withoutLog, hcarried]
    simp only [exported, hsave]
    exact ⟨rfl, hbare⟩

/-- An operation that does not fail delivers its result, unless that cannot be saved. -/
theorem carriedOut_of_saved (hview : w.view = .xml)
    (hblank : command.takesInput = true → ¬ w.isBlank = true)
    (h : (host.worked s command w).status ≠ .error)
    (hsaved : ¬ host.Unsaved command (host.worked s command w)) :
    (host.carriedOut s command w).exitCode = 0 ∧
      host.Delivers s (host.worked s command w) (host.carriedOut s command w) command := by
  obtain ⟨c, e, hcode, ⟨houtput, hnothing⟩, hcarried⟩ := exists_carriedOut_eq_exported h
  rw [← Ending.exitCode_withoutLog, ← delivers_withoutLog, hcarried, delivers_withoutLog]
  cases command with
  | validate input => exact ⟨hcode, houtput, hnothing⟩
  | generate =>
    obtain ⟨sample, hanswer, hinput⟩ := exists_sample w h
    exact ⟨hcode, sample, hanswer, congrArg (· ++ "\n") hinput, hnothing⟩
  | transform kind input directory =>
    cases directory with
    | none => exact ⟨hcode, rfl, hnothing⟩
    | some directory =>
      cases hsave : (host.worked s (.transform kind input (some directory)) w).save
          (host.disk.target directory) with
      | error failure => exact absurd ⟨directory, failure, rfl, hsave⟩ hsaved
      | ok d =>
        have hd := Workspace.eq_of_save hsave
        have hkind := view_worked (hblank rfl) hview h
        simp only [exported, hsave]
        refine ⟨hcode, houtput, ?_⟩
        rw [hd, hkind]
        cases kind <;> rfl

/-! ## The run -/

/-- A run that comes to its operation begins with the view of a new workspace, and with a
document if it takes one. -/
theorem Begins.fresh (h : host.Begins i s w) :
    w.view = .xml ∧ (i.command.takesInput = true → ¬ w.isBlank = true) := by
  by_cases htakes : i.command.takesInput = true
  · rcases beginning_cases (host.advisers s.assistant) htakes with
      ⟨⟨causes, herror⟩, _⟩ | ⟨text, output, _, hblank, hbeginning⟩
    · rw [h.beginning] at herror
      cases herror
    · rw [h.beginning] at hbeginning
      cases hbeginning
      exact ⟨rfl, fun _ => hblank⟩
  · have hbeginning := h.beginning
    rw [Host.beginning, if_neg htakes] at hbeginning
    cases hbeginning
    exact ⟨rfl, fun htakes' => absurd htakes' htakes⟩

/-- A run that comes to its operation fails only there, or in the export. -/
theorem Begins.fails_iff (h : host.Begins i s w) :
    host.Fails i ↔ (host.worked s i.command w).status = .error ∨
      host.Unsaved i.command (host.worked s i.command w) := by
  constructor
  · intro hfails
    cases hfails with
    | objection hobjection =>
      rw [h.objection] at hobjection
      cases hobjection
    | settings hload =>
      rw [h.settings] at hload
      cases hload
    | input htakes hblank =>
      rcases beginning_cases (host.advisers s.assistant) htakes with
        ⟨⟨causes, herror⟩, _⟩ | ⟨text, _, hgiven, htext, _⟩
      · rw [h.beginning] at herror
        cases herror
      · exact absurd (hblank text hgiven) htext
    | client hload hneeds hfault =>
      rw [h.settings] at hload
      cases hload
      have hclient := h.client
      rw [clientFault?, if_pos hneeds, hfault] at hclient
      cases hclient
    | operation hload hleft herror =>
      rw [h.settings] at hload
      cases hload
      rw [h.left?] at hleft
      cases hleft
      exact .inl herror
    | saving hload hleft hunsaved =>
      rw [h.settings] at hload
      cases hload
      rw [h.left?] at hleft
      cases hleft
      exact .inr hunsaved
  · rintro (herror | hunsaved)
    · exact .operation h.settings h.left? herror
    · exact .saving h.settings h.left? hunsaved

/-- A run in which a stage fails ends with the exit code 1 and nothing else, and any other
run ends with the exit code 0 and its result. -/
theorem run_result (host : Host) (i : Invocation) :
    (host.Fails i ∧ (host.run i).exitCode = 1 ∧ (host.run i).Bare) ∨
      (¬ host.Fails i ∧ (host.run i).exitCode = 0 ∧
        ∃ s w, Settings.load host.toSources i = .ok s ∧
          host.left? s i = some w ∧ host.Delivers s w (host.run i) i.command) := by
  rcases run_cases host i with ⟨hfails, causes, hrun⟩ | ⟨s, w, hbegins, hrun⟩
  · left
    exact ⟨hfails, congrArg Ending.exitCode hrun, congrArg Ending.output hrun,
      congrArg Ending.saved hrun⟩
  · rw [← Ending.exitCode_withoutLog, ← Ending.bare_withoutLog]
    simp only [← delivers_withoutLog (e := host.run i), hrun, hbegins.fails_iff]
    by_cases herror : (host.worked s i.command w).status = .error
    · exact .inl ⟨.inl herror, carriedOut_of_error herror⟩
    · by_cases hunsaved : host.Unsaved i.command (host.worked s i.command w)
      · exact .inl ⟨.inr hunsaved, carriedOut_of_unsaved herror hunsaved⟩
      · obtain ⟨hcode, hdelivers⟩ :=
          carriedOut_of_saved hbegins.fresh.1 hbegins.fresh.2 herror hunsaved
        exact .inr ⟨not_or.mpr ⟨herror, hunsaved⟩, hcode, s, _, hbegins.settings, hbegins.left?,
          hdelivers⟩

/-- **The exit code tells what a run leaves behind.**  It is 1 exactly if a stage of the run
fails, and 0 otherwise.  With 1, nothing is printed to standard output and nothing is saved;
with 0, exactly the result of the operation is printed or saved. -/
theorem exitCode_tells_result (host : Host) (i : Invocation) :
    ((host.run i).exitCode = 1 ↔ host.Fails i) ∧
    ((host.run i).exitCode = 0 ↔ ¬ host.Fails i) ∧
    ((host.run i).exitCode = 1 → (host.run i).output = "" ∧ (host.run i).saved = none) ∧
    ((host.run i).exitCode = 0 →
      ∃ s w, Settings.load host.toSources i = .ok s ∧
        host.left? s i = some w ∧ host.Delivers s w (host.run i) i.command) := by
  rcases run_result host i with ⟨hfails, hcode, hbare⟩ | ⟨hfails, hcode, hresult⟩
  · rw [hcode]
    exact ⟨by simp [hfails], by simp [hfails], fun _ => hbare, fun h => absurd h (by decide)⟩
  · rw [hcode]
    exact ⟨by simp [hfails], by simp [hfails], fun h => absurd h (by decide), fun _ => hresult⟩

/-- A minified document is saved as XML; the same command without a document fails. -/
theorem exitCode_tells_result_minify :
    let tree := (Tree.empty.write "a.xml" "<a> </a>".toUTF8).addDirectory "out"
    let host : Host := { holding "a.xml" .empty with disk := tree.disk }
    let i : Invocation := { command := .transform .minify (some "a.xml") (some "out") }
    (∃ s w, host.left? s i = some w ∧ (host.run i).output = "" ∧
      (host.run i).saved = some ("out/formatted.xml", w.output)) ∧
    (host.run (i.withInput none)).exitCode = 1 ∧ (host.run (i.withInput none)).output = "" := by
  intro tree host i
  have hcode : (host.run i).exitCode = 0 := by decide +kernel
  have hpath : Path.join "out" "formatted.xml" = "out/formatted.xml" := by decide
  obtain ⟨s, w, _, hleft, houtput, hsaved⟩ := (exitCode_tells_result host i).2.2.2 hcode
  have hfails : host.Fails (i.withInput none) := by
    refine .input rfl fun text htext => ?_
    obtain rfl : "" = text := Option.some.inj htext
    rfl
  have hcode' := (exitCode_tells_result host (i.withInput none)).1.mpr hfails
  have hbare := (exitCode_tells_result host (i.withInput none)).2.2.1 hcode'
  exact ⟨⟨s, w, hleft, houtput, hpath ▸ hsaved⟩, hcode', hbare.1⟩

end Host
end MarkupDesk
