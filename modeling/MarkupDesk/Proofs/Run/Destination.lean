import MarkupDesk.Proofs.Run.Result
import MarkupDesk.Proofs.Workspace.Exportable

/-!
# Where the result of a transformation goes

A command that transforms a document prints the result, or saves it into a directory.  The
directory is looked at twice, before anything is done and when the file is written, and
nowhere in between; so the operation is the same for both destinations.

For the transformations that are done without the assistant there is always a result.  A
document is accepted (`Host.Accepts`) if nothing is objected to, the settings can be loaded,
the document is there and not blank, and the checker accepts it.  Then the run prints what is
made of the document (`Accepts.printed`), and into a directory it saves exactly that, or fails
with the fault of the disk and no other (`Accepts.filed`).  Conversely a file is saved for an
accepted document only (`exists_accepts_of_saved`), and so it holds what would have been printed
(`printed_of_saved`).

`LocalTransform.exports_rendition` puts this together with what a single operation has to
export, and with the emptiness of what is made of a document.
-/
namespace MarkupDesk

open CommandLine

/-- The transformation as it is named on a command line. -/
def LocalTransform.kind : LocalTransform → Transform
  | .format => .format
  | .minify => .minify

/-- The invocation with the same options that transforms this input, and saves the result into
a directory or else prints it. -/
def CommandLine.Invocation.transforming (i : Invocation) (t : LocalTransform)
    (input directory : Option String) : Invocation :=
  { i with command := .transform t.kind input directory }

namespace Host

/-- A run transforms this document, and the checker accepts it. -/
structure Accepts (host : Host) (i : Invocation) (text : String) : Prop where
  timeout : i.timeout ≠ some 0
  settings : ∃ s, Settings.load host.toSources i = .ok s
  given : host.given? i = some text
  nonblank : Text.isBlankText text = false
  accepted : host.checker text = none

variable {host : Host} {i : Invocation} {t : LocalTransform} {input : Option String}
  {text : String}

/-- A document is accepted wherever the result goes. -/
theorem Accepts.transforming {directory : Option String}
    (h : host.Accepts (i.transforming t input directory) text) (directory' : Option String) :
    host.Accepts (i.transforming t input directory') text :=
  ⟨h.timeout, h.settings, h.given, h.nonblank, h.accepted⟩

/-- What the operation of a transformation meets outside.  It neither saves nor copies. -/
def surroundings (host : Host) (s : Settings) : Surroundings :=
  { host.advisers s.assistant with
    disk := host.disk
    target := fun _ => .ok ()
    clipboard := fun _ => .ok () }

theorem worked_transforming (s : Settings) (directory : Option String) (w : Workspace) :
    host.worked s (.transform t.kind input directory) w =
      (w.perform (host.surroundings s) t.operation).workspace := by
  cases t <;> rfl

/-- Nothing is objected to a transformation if it is given some time, and its directory exists. -/
theorem objection?_transforming_eq_none_iff {disk : Disk} {directory : Option String} :
    (i.transforming t input directory).objection? disk = none ↔
      i.timeout ≠ some 0 ∧ ∀ d, directory = some d → disk.hasDirectory d = true := by
  have htimeout : (i.transforming t input directory).timeout = i.timeout := rfl
  have hdirectory : (i.transforming t input directory).command.outputDirectory = directory := rfl
  rw [Invocation.objection?, htimeout, hdirectory]
  split
  · rename_i hzero
    exact iff_of_false (Option.some_ne_none _) fun h => h.1 hzero
  · rename_i hpositive
    cases directory with
    | none => exact iff_of_true rfl ⟨hpositive, fun d hd => absurd hd (Option.some_ne_none d).symm⟩
    | some d => simp [hpositive]

/-! ## The run on an accepted document -/

/-- An accepted document comes to the export, where nothing is left behind before. -/
theorem Accepts.exists_run_eq_exported {directory : Option String}
    (h : host.Accepts (i.transforming t input directory) text)
    (hdirectory : ∀ d, directory = some d → host.disk.hasDirectory d = true) :
    ∃ (c : Console) (e : Ending), e.exitCode = 0 ∧ e.Bare ∧
      (host.run (i.transforming t input directory)).withoutLog =
        (host.exported c (.transform t.kind input directory)
          ((Workspace.setInput {} text).accepted t.operation) e).withoutLog := by
  obtain ⟨s, hload⟩ := h.settings
  have hobjection : (i.transforming t input directory).objection? host.disk = none :=
    objection?_transforming_eq_none_iff.mpr ⟨h.timeout, hdirectory⟩
  have hclient : host.clientFault? s (i.transforming t input directory).command = none := by
    cases t <;> rfl
  have hrun : (host.run (i.transforming t input directory)).withoutLog =
      (host.carriedOut s (.transform t.kind input directory)
        (Workspace.setInput {} text)).withoutLog := by
    rw [run, Ending.withoutLog_filtered, course_eq_courseOn rfl h.given, courseOn, hobjection]
    simp only [hload, courseWith, h.nonblank, hclient, Ending.withoutLog_afterEvents]
    exact Ending.withoutLog_afterEvents _ _
  have hworked : host.worked s (.transform t.kind input directory) (Workspace.setInput {} text) =
      (Workspace.setInput {} text).accepted t.operation := by
    rw [worked_transforming]
    exact Workspace.perform_eq_accepted t.checks_operation (w := Workspace.setInput {} text)
      h.nonblank h.accepted
  have hstatus : (host.worked s (.transform t.kind input directory)
      (Workspace.setInput {} text)).status ≠ .error := by
    rw [hworked]
    intro herror
    cases t <;> cases herror
  obtain ⟨c, e, hcode, hbare, hcarried⟩ := exists_carriedOut_eq_exported hstatus
  exact ⟨c, e, hcode, hbare, by rw [hrun, hcarried, hworked]⟩

/-- **What is made of an accepted document is printed.** -/
theorem Accepts.printed (h : host.Accepts (i.transforming t input none) text) :
    (host.run (i.transforming t input none)).exitCode = 0 ∧
      (host.run (i.transforming t input none)).output = t.rendition text ++ "\n" ∧
      (host.run (i.transforming t input none)).saved = none := by
  obtain ⟨c, e, hcode, hbare, hrun⟩ := h.exists_run_eq_exported nofun
  rw [← Ending.exitCode_withoutLog, ← Ending.output_withoutLog, ← Ending.saved_withoutLog, hrun]
  refine ⟨hcode, ?_, hbare.2⟩
  show ((Workspace.setInput {} text).accepted t.operation).output ++ "\n" = _
  rw [Workspace.output_accepted]
  rfl

/-- **What is made of an accepted document is saved**, as whole as it is printed, unless the
disk refuses the file; and then it is the fault of the disk that is reported. -/
theorem Accepts.filed {directory : String}
    (h : host.Accepts (i.transforming t input (some directory)) text)
    (hdirectory : host.disk.hasDirectory directory = true) :
    let path := Path.join directory "formatted.xml"
    let filed := host.run (i.transforming t input (some directory))
    (host.disk.refusal path = none →
      filed.exitCode = 0 ∧ filed.output = "" ∧ filed.saved = some (path, t.rendition text)) ∧
    (∀ fault, host.disk.refusal path = some fault →
      filed.exitCode = 1 ∧ filed.Bare ∧ filed.notes.getLast? = some ("Error: " ++ ": ".intercalate
        (s!"Failed to save into {directory}" :: (Failure.io fault).chain))) := by
  intro path filed
  obtain ⟨c, e, hcode, hbare, hrun⟩ := h.exists_run_eq_exported
    fun d hd => Option.some.inj hd ▸ hdirectory
  have hdownload := Workspace.download?_accepted t (w := Workspace.setInput {} text) h.nonblank
  have hsave := Workspace.save_of_download? hdownload (host.disk.target directory)
  have hpath : (t.download (Workspace.setInput {} text).input).pathIn directory = path := rfl
  constructor
  · intro hrefusal
    have htarget : host.disk.target directory (t.download (Workspace.setInput {} text).input) =
        .ok () := by
      simp only [Disk.target, hpath, hrefusal]
    rw [htarget] at hsave
    rw [← Ending.exitCode_withoutLog, ← Ending.output_withoutLog, ← Ending.saved_withoutLog, hrun]
    simp only [exported, hsave]
    exact ⟨hcode, hbare.1, rfl⟩
  · intro fault hrefusal
    have htarget : host.disk.target directory (t.download (Workspace.setInput {} text).input) =
        .error fault := by
      simp only [Disk.target, hpath, hrefusal]
    rw [htarget] at hsave
    rw [← Ending.exitCode_withoutLog, ← Ending.bare_withoutLog, ← Ending.notes_withoutLog, hrun]
    simp only [exported, hsave, Ending.notes_withoutLog, Ending.notes_failed]
    exact ⟨rfl, hbare, List.getLast?_concat⟩

/-! ## The document of a file that was saved -/

/-- A document that is rejected leaves no file. -/
theorem saved_carriedOut_of_rejected {w : Workspace} {message : String} (hblank : w.isBlank = false)
    (hrejected : host.checker w.input = some message) (s : Settings) (directory : Option String) :
    (host.carriedOut s (.transform t.kind input directory) w).saved = none := by
  obtain ⟨_, hstatus, _⟩ :=
    Workspace.perform_check_settles t.checks_operation hblank (host.surroundings s)
  have hchecker : (host.surroundings s).checker w.input = some message := hrejected
  rw [hchecker] at hstatus
  have herror : (host.worked s (.transform t.kind input directory) w).status = .error := by
    rw [worked_transforming, hstatus]
    rfl
  exact (carriedOut_of_error herror).2.2

/-- **A file is saved for an accepted document only**, and into a directory that exists. -/
theorem exists_accepts_of_saved {directory : String} {file : String × String}
    (h : (host.run (i.transforming t input (some directory))).saved = some file) :
    host.disk.hasDirectory directory = true ∧
      ∃ text, host.Accepts (i.transforming t input (some directory)) text := by
  rcases run_cases host (i.transforming t input (some directory)) with
    ⟨_, causes, hrun⟩ | ⟨s, w, hbegins, hrun⟩
  · rw [← Ending.saved_withoutLog, hrun] at h
    cases h
  · obtain ⟨htimeout, hdirectory⟩ := objection?_transforming_eq_none_iff.mp hbegins.objection
    rcases beginning_cases (host.advisers s.assistant)
        (i := i.transforming t input (some directory)) rfl with
      ⟨⟨causes, herror⟩, _⟩ | ⟨text, output, hgiven, hblank, hbeginning⟩
    · rw [hbegins.beginning] at herror
      cases herror
    · rw [hbegins.beginning] at hbeginning
      cases hbeginning
      have hnonblank : ((Workspace.setInput {} text).put output).isBlank = false :=
        Bool.eq_false_iff.mpr hblank
      refine ⟨hdirectory directory rfl, text, htimeout, ⟨s, hbegins.settings⟩, hgiven, hnonblank,
        ?_⟩
      cases haccepted : host.checker text with
      | none => rfl
      | some message =>
        have hnothing : (host.carriedOut s (i.transforming t input (some directory)).command
            ((Workspace.setInput {} text).put output)).saved = none :=
          saved_carriedOut_of_rejected hnonblank haccepted s (some directory)
        rw [← Ending.saved_withoutLog, hrun, Ending.saved_withoutLog, hnothing] at h
        cases h

/-- **What is saved is what would be printed**, but for the line end. -/
theorem printed_of_saved {directory file content : String}
    (h : (host.run (i.transforming t input (some directory))).saved = some (file, content)) :
    file = Path.join directory "formatted.xml" ∧
      (host.run (i.transforming t input none)).exitCode = 0 ∧
      (host.run (i.transforming t input none)).output = content ++ "\n" := by
  obtain ⟨hdirectory, text, haccepts⟩ := exists_accepts_of_saved h
  obtain ⟨hcode, houtput, _⟩ := (haccepts.transforming none).printed
  obtain ⟨hsaved, hrefused⟩ := haccepts.filed hdirectory
  cases hrefusal : host.disk.refusal (Path.join directory "formatted.xml") with
  | none =>
    have hfile := h.symm.trans (hsaved hrefusal).2.2
    cases hfile
    exact ⟨rfl, hcode, houtput⟩
  | some fault =>
    have hnothing := h.symm.trans (hrefused fault hrefusal).2.1.2
    cases hnothing

end Host

/-- **What is transformed without the assistant can be exported.**  What is left of a document,
laid out or minified, is empty exactly if the document is blank.  So whatever state the workspace
is in, a transformation that settles success leaves an output that is offered as a file, and
saving it fails only where the target does, with its fault; a blank document is not transformed,
and nothing is settled.  And a run on an accepted document prints what it makes of it, with a line
end; into a directory that exists it saves exactly this, or fails with the fault of the disk.
Whenever a run saves a file, the same run without a directory prints the content of that file. -/
theorem LocalTransform.exports_rendition :
    (∀ document : String,
      (Markup.format document = "" ↔ Markup.minify document = "") ∧
        (Markup.minify document = "" ↔ Text.isBlankText document = true)) ∧
    (∀ (t : LocalTransform) (w : Workspace) (s : Surroundings),
      (w.isBlank = true → w.perform s t.operation = { workspace := w }) ∧
      (w.Settles s t.operation →
        let after := (w.perform s t.operation).workspace
        ∃ d, after.download? = some d ∧ d.content = t.rendition w.input ∧
          ∀ target : Download → Except Fault Unit,
            after.save target =
              match target d with
              | .ok () => .ok d
              | .error fault => .error (.io fault))) ∧
    (∀ (t : LocalTransform) (host : Host) (i : Invocation) (input : Option String)
        (directory : String),
      let path := Path.join directory "formatted.xml"
      let printed := host.run (i.transforming t input none)
      let filed := host.run (i.transforming t input (some directory))
      (∀ text, host.Accepts (i.transforming t input none) text →
        printed.exitCode = 0 ∧ printed.output = t.rendition text ++ "\n" ∧
          (host.disk.hasDirectory directory = true →
            (host.disk.refusal path = none →
              filed.exitCode = 0 ∧ filed.saved = some (path, t.rendition text)) ∧
            ∀ fault, host.disk.refusal path = some fault →
              filed.exitCode = 1 ∧ filed.saved = none ∧
                filed.notes.getLast? = some ("Error: " ++ ": ".intercalate
                  (s!"Failed to save into {directory}" :: (Failure.io fault).chain)))) ∧
      ∀ file content, filed.saved = some (file, content) →
        file = path ∧ printed.exitCode = 0 ∧ printed.output = content ++ "\n") := by
  refine ⟨fun document => ⟨Markup.format_eq_empty_iff, Markup.minify_eq_empty_iff⟩, ?_, ?_⟩
  · intro t w s
    constructor
    · intro hblank
      rw [Workspace.perform_check t.checks_operation, if_pos hblank]
    · intro h after
      have hdownload := Workspace.download?_of_settles h
      exact ⟨t.download w.input, hdownload, rfl, Workspace.save_of_download? hdownload⟩
  · intro t host i input directory path printed filed
    constructor
    · intro text h
      obtain ⟨hcode, houtput, _⟩ := h.printed
      refine ⟨hcode, houtput, fun hdirectory => ?_⟩
      obtain ⟨hsaved, hrefused⟩ := (h.transforming (some directory)).filed hdirectory
      constructor
      · intro hrefusal
        obtain ⟨hfiled, _, hfile⟩ := hsaved hrefusal
        exact ⟨hfiled, hfile⟩
      · intro fault hrefusal
        obtain ⟨hfiled, hbare, hnote⟩ := hrefused fault hrefusal
        exact ⟨hfiled, hbare.2, hnote⟩
    · exact fun file content h => Host.printed_of_saved h

/-- The document `><` has two tags without a text.  Its layout keeps one bracket of each, and these
are offered, printed and saved. -/
theorem LocalTransform.exports_rendition_brackets :
    let s := Workspace.obliging ""
    let w := ({} : Workspace).setInput "><"
    let tree := (Tree.empty.write "a.xml" "><".toUTF8).addDirectory "out"
    let host : Host := { Host.holding "a.xml" .empty with disk := tree.disk }
    let i : Invocation := { command := .generate }
    (∃ d, (w.perform s .format).workspace.download? = some d ∧ d.content = ">\r\n<") ∧
      (host.run (i.transforming .format (some "a.xml") none)).output = ">\r\n<\n" ∧
      (host.run (i.transforming .format (some "a.xml") (some "out"))).saved =
        some ("out/formatted.xml", ">\r\n<") := by
  intro s w tree host i
  obtain ⟨_, hworkspace, hrun⟩ := LocalTransform.exports_rendition
  have hrendition : LocalTransform.format.rendition "><" = ">\r\n<" := by decide +kernel
  have hpath : Path.join "out" "formatted.xml" = "out/formatted.xml" := by decide
  have hsettles : w.Settles s .format := ⟨by decide +kernel, by decide +kernel⟩
  obtain ⟨d, hdownload, hcontent, _⟩ := (hworkspace .format w s).2 hsettles
  have hsettings : ∃ s, Settings.load host.toSources i = .ok s :=
    Host.exists_load_of_isSome (by decide +kernel)
  have haccepts : host.Accepts (i.transforming .format (some "a.xml") none) "><" :=
    ⟨nofun, hsettings, by decide +kernel, by decide, rfl⟩
  obtain ⟨_, houtput, hfiled⟩ := (hrun .format host i (some "a.xml") "out").1 "><" haccepts
  obtain ⟨_, hsaved⟩ := (hfiled (by decide +kernel)).1 (by decide +kernel)
  rw [hrendition] at houtput hsaved
  rw [hpath] at hsaved
  exact ⟨⟨d, hdownload, hcontent.trans hrendition⟩, houtput, hsaved⟩

end MarkupDesk
