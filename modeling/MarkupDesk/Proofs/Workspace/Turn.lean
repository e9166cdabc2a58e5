import MarkupDesk.Workspace.Session

/-!
# Turns

What each operation makes of a workspace, with the answer that it gets from outside:
one equation for the operations that ask the checker, one for the jobs of the
assistant, one for loading a file.  Saving and copying leave the workspace alone.
-/
namespace MarkupDesk

open Assistant (Job)

/-- Whether an operation puts the document in the workspace to the checker. -/
def Operation.checks : Operation → Bool
  | .validate | .format | .minify => true
  | _ => false

namespace Workspace

/-- An operation that asks the checker does so once, unless the document is blank. -/
theorem take_checked (w : Workspace) (a : Advisers) (resume : Option Diagnosis → Workspace) :
    (w.checked resume).take a =
      if w.isBlank = true then { workspace := w }
      else { workspace := resume (a.checker.diagnose w.input), checked := [w.input] } := by
  unfold checked
  split <;> rfl

/-- The workspace after an operation whose document was rejected. -/
def rejected (w : Workspace) (operation : Operation) (d : Diagnosis) : Workspace :=
  { w with
    diagnosis := some d
    notice := if operation = .minify then .notMinified else .rejected d.message }

/-- The workspace after an operation whose document was accepted. -/
def accepted (w : Workspace) : Operation → Workspace
  | .format => w.withOutput (Markup.format w.input) .formatted
  | .minify => w.withOutput (Markup.minify w.input) .minified
  | _ => { w with diagnosis := none, notice := .wellFormed }

/-- The workspace after an operation that has put its document to the checker. -/
def judged (w : Workspace) (operation : Operation) : Option Diagnosis → Workspace
  | some d => w.rejected operation d
  | none => w.accepted operation

/-- The operations that put the document in the workspace to the checker do the same but
for what an accepted document is made of, and how a rejection is reported. -/
theorem perform_check {operation : Operation} (hchecks : operation.checks = true) (w : Workspace)
    (s : Surroundings) :
    w.perform s operation =
      if w.isBlank = true then { workspace := w }
      else
        { workspace := w.judged operation (s.checker.diagnose w.input), checked := [w.input] } := by
  cases operation with
  | validate =>
    rw [perform, validate, take_checked]
    cases s.checker.diagnose w.input <;> rfl
  | format =>
    rw [perform, format, take_checked]
    cases s.checker.diagnose w.input <;> rfl
  | minify =>
    rw [perform, minify, take_checked]
    cases s.checker.diagnose w.input <;> rfl
  | _ => cases hchecks

theorem input_judged (w : Workspace) (operation : Operation) (verdict : Option Diagnosis) :
    (w.judged operation verdict).input = w.input := by
  cases verdict with
  | some d => rfl
  | none => cases operation <;> simp [judged, accepted, withOutput]

/-- The verdict is what the status tells, whichever operation has asked for it. -/
theorem status_judged_eq (w : Workspace) {operation : Operation}
    (hchecks : operation.checks = true) (verdict : Option Diagnosis) :
    (w.judged operation verdict).status = if verdict.isNone then .success else .error := by
  cases verdict with
  | none =>
    cases operation with
    | validate | format | minify => rfl
    | _ => cases hchecks
  | some d =>
    show (w.rejected operation d).status = .error
    rw [status, rejected]
    split <;> rfl

/-- Checking a document leaves it as it is. -/
theorem input_perform_check {operation : Operation} (hchecks : operation.checks = true)
    (w : Workspace) (s : Surroundings) : (w.perform s operation).workspace.input = w.input := by
  rw [perform_check hchecks]
  split
  · rfl
  · exact input_judged w operation _

/-- A job is not given to the assistant when it needs a document and there is none. -/
def Declines (w : Workspace) (job : Job) : Prop := job ≠ .generate ∧ w.isBlank = true

instance (w : Workspace) (job : Job) : Decidable (w.Declines job) :=
  inferInstanceAs (Decidable (job ≠ .generate ∧ w.isBlank = true))

theorem document_of_ne_generate (w : Workspace) {job : Job} (hjob : job ≠ .generate) :
    w.document job = w.input := by
  cases job with
  | generate => exact absurd rfl hjob
  | repair | convert => rfl

/-- What comes of a job, when the assistant has been asked and answers like this. -/
def answered (w : Workspace) (job : Job) : Option (Except Assistant.Error String) → Workspace
  | some (.ok result) => w.withResult job result
  | some (.error _) => w.note (.failed job)
  | none => w.note (.waiting job)

/-- The turn of a job: the assistant is asked once, unless the job is declined, and may
leave the operation waiting. -/
theorem take_assist (w : Workspace) (a : Advisers) (job : Job) :
    (w.assist job).take a =
      if w.Declines job then { workspace := w }
      else
        { workspace := w.answered job (a.assistant job (w.document job))
          outcome := if (a.assistant job (w.document job)).isSome then .finished else .dropped
          asked := [(job, w.document job)] } := by
  by_cases hdeclines : w.Declines job
  · have hstep : w.assist job = .done w := if_pos hdeclines
    rw [hstep, if_pos hdeclines]
    rfl
  · have hstep : w.assist job = _ := if_neg hdeclines
    rw [hstep, if_neg hdeclines]
    cases h : a.assistant job (w.document job) with
    | none => simp [Step.take, h, answered]
    | some result => cases result <;> simp [Step.take, h, answered]

theorem workspace_take_assist (w : Workspace) (a : Advisers) (job : Job) :
    ((w.assist job).take a).workspace =
      if w.Declines job then w else w.answered job (a.assistant job (w.document job)) := by
  rw [take_assist]
  split <;> rfl

/-- What a file says that is loaded from this path, if one can be. -/
def loaded? (disk : Disk) (path : String) : Option String :=
  if isLoadable path then (disk.readText path).toOption else none

/-- The workspace with a document from a file, and with its layout if it passed the
check. -/
def withUpload (w : Workspace) (text : String) : Option Diagnosis → Workspace
  | none => { w with input := text, output := Markup.format text }
  | some _ => { w with input := text }

/-- A text that can be loaded is put to the checker, and taken over with its verdict. -/
theorem load_of_loaded? {disk : Disk} {path text : String} (h : loaded? disk path = some text)
    (w : Workspace) : w.load disk path = .ok (.check text (w.withUpload text)) := by
  rw [loaded?] at h
  split at h
  · rename_i hpath
    cases htext : disk.readText path with
    | error fault => simp [htext, Except.toOption] at h
    | ok content =>
      obtain rfl : content = text := by simpa [htext, Except.toOption] using h
      rw [load, hpath, htext]
      show Except.ok (Step.check content _) = _
      congr 2
      funext verdict
      cases verdict <;> rfl
  · cases h

/-- The checker is asked about a document that could be loaded. -/
theorem perform_load_of_loaded? {w : Workspace} {s : Surroundings} {path text : String}
    (h : loaded? s.disk path = some text) :
    w.perform s (.load path) =
      { workspace := w.withUpload text (s.checker.diagnose text), checked := [text] } := by
  simp only [perform, load_of_loaded? h w]
  rfl

theorem exists_load_failed {disk : Disk} {path : String} (h : loaded? disk path = none)
    (w : Workspace) : ∃ failure, w.load disk path = .error failure := by
  cases hpath : isLoadable path with
  | false => exact ⟨.unsupportedFile path, by simp [load, hpath]⟩
  | true =>
    cases htext : disk.readText path with
    | ok text => simp [loaded?, hpath, htext, Except.toOption] at h
    | error fault => exact ⟨.io fault, by simp [load, hpath, htext]⟩

/-- A file that cannot be loaded leaves the workspace alone, and nobody is asked. -/
theorem exists_perform_load_failed {w : Workspace} {s : Surroundings} {path : String}
    (h : loaded? s.disk path = none) :
    ∃ failure, w.perform s (.load path) = w.unchanged (.failed failure) := by
  obtain ⟨failure, hload⟩ := exists_load_failed h w
  exact ⟨failure, by simp only [perform, hload]⟩

/-- A loaded document takes the place of the old one, and is laid out if it passes the
check; a file that cannot be loaded changes nothing. -/
theorem workspace_perform_load (w : Workspace) (s : Surroundings) (path : String) :
    (w.perform s (.load path)).workspace =
      match loaded? s.disk path with
      | none => w
      | some text =>
        match s.checker.diagnose text with
        | none => { w with input := text, output := Markup.format text }
        | some _ => { w with input := text } := by
  cases h : loaded? s.disk path with
  | none =>
    obtain ⟨failure, hfailed⟩ := exists_perform_load_failed (w := w) h
    rw [hfailed, unchanged]
  | some text =>
    rw [perform_load_of_loaded? h]
    cases hcheck : s.checker.diagnose text <;> simp [hcheck, withUpload]

@[simp] theorem workspace_perform_save (w : Workspace) (s : Surroundings) :
    (w.perform s .save).workspace = w := by
  unfold perform
  cases w.save s.target <;> rfl

@[simp] theorem workspace_copy (w : Workspace) (s : Surroundings) (text : String) :
    (w.copy s text).workspace = w := by
  unfold copy
  cases s.clipboard text <;> rfl

end Workspace
end MarkupDesk
