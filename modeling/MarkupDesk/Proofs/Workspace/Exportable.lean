import MarkupDesk.Proofs.Markup.Lines
import MarkupDesk.Proofs.Workspace.Checking

/-!
# What can be exported

Three tests ask whether there is anything to work with: an operation declines a document that
is blank, a transformation writes what is left of the document, and an output is offered as a
file unless it is empty.  They agree.  What is left of a document, laid out or minified, is
empty exactly if the document is blank (`LocalTransform.rendition_eq_empty_iff`).

So a transformation that is done without the assistant, once it has got past the first test,
gets past the last one: if it succeeds its output is offered (`download?_accepted`), and saving
this output fails only where the target does (`save_of_download?`).
-/
namespace MarkupDesk

/-- The transformations that are done without the assistant. -/
inductive LocalTransform where
  | format
  | minify
  deriving DecidableEq, Repr

namespace LocalTransform

/-- The operation that does a transformation. -/
def operation : LocalTransform → Operation
  | .format => .format
  | .minify => .minify

/-- What a transformation makes of a document. -/
def rendition : LocalTransform → String → String
  | .format => Markup.format
  | .minify => Markup.minify

theorem checks_operation (t : LocalTransform) : t.operation.checks = true := by cases t <;> rfl

/-- **Something is left of every document that is not blank.** -/
theorem rendition_eq_empty_iff (t : LocalTransform) {document : String} :
    t.rendition document = "" ↔ Text.isBlankText document = true := by
  cases t with
  | format => exact Markup.format_eq_empty_iff.trans Markup.minify_eq_empty_iff
  | minify => exact Markup.minify_eq_empty_iff

/-- The file as which a transformation offers what it makes of a document. -/
def download (t : LocalTransform) (document : String) : Download :=
  ⟨"formatted.xml", "application/xml", t.rendition document⟩

end LocalTransform

namespace Workspace

/-- An operation puts the document to the checker and settles success.  An operation that
declines a blank document asks nobody, and only repeats the status that was there before. -/
structure Settles (w : Workspace) (s : Surroundings) (operation : Operation) : Prop where
  checked : (w.perform s operation).checked ≠ []
  success : (w.perform s operation).workspace.status = .success

/-- **An operation that checks settles success exactly if the document is accepted.** -/
theorem settles_iff {operation : Operation} (hchecks : operation.checks = true) {w : Workspace}
    {s : Surroundings} :
    w.Settles s operation ↔ w.isBlank = false ∧ s.checker w.input = none := by
  constructor
  · intro ⟨hchecked, hsuccess⟩
    cases hblank : w.isBlank with
    | true =>
      rw [perform_check hchecks, if_pos hblank] at hchecked
      exact absurd rfl hchecked
    | false =>
      obtain ⟨_, hstatus, _⟩ := perform_check_settles hchecks hblank s
      rw [hsuccess] at hstatus
      cases haccepted : s.checker w.input with
      | none => exact ⟨rfl, rfl⟩
      | some message =>
        rw [haccepted] at hstatus
        cases hstatus
  · rintro ⟨hblank, haccepted⟩
    obtain ⟨hchecked, hstatus, _⟩ := perform_check_settles hchecks hblank s
    rw [haccepted] at hstatus
    exact ⟨hchecked ▸ List.cons_ne_nil _ _, hstatus⟩

theorem output_accepted (t : LocalTransform) (w : Workspace) :
    (w.accepted t.operation).output = t.rendition w.input := by
  cases t <;> rfl

/-- What a transformation makes of a document that is not blank is offered as a file. -/
theorem download?_accepted (t : LocalTransform) {w : Workspace} (hblank : w.isBlank = false) :
    (w.accepted t.operation).download? = some (t.download w.input) := by
  have hoffered : (w.accepted t.operation).output ≠ "" := by
    rw [output_accepted, ne_eq, t.rendition_eq_empty_iff]
    exact Bool.eq_false_iff.mp hblank
  have hname : View.xml.fileName = "formatted.xml" := by decide
  have hview : (w.accepted t.operation).view = .xml := by cases t <;> rfl
  rw [download?, if_neg hoffered, output_accepted, hview, hname]
  rfl

/-- An output that is offered as a file is saved, unless the target fails. -/
theorem save_of_download? {w : Workspace} {d : Download} (h : w.download? = some d)
    (target : Download → Except Fault Unit) :
    w.save target =
      match target d with
      | .ok () => .ok d
      | .error fault => .error (.io fault) := by
  cases htarget : target d <;> simp [save, h, htarget]

/-- **A transformation that settles success has something to export.**  It leaves the workspace
of an accepted document, whose output is offered as a file. -/
theorem download?_of_settles {t : LocalTransform} {w : Workspace} {s : Surroundings}
    (h : w.Settles s t.operation) :
    (w.perform s t.operation).workspace.download? = some (t.download w.input) := by
  obtain ⟨hblank, haccepted⟩ := (settles_iff t.checks_operation).mp h
  rw [perform_eq_accepted t.checks_operation hblank haccepted]
  exact download?_accepted t hblank

end Workspace
end MarkupDesk
