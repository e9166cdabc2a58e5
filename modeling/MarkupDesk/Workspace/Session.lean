import MarkupDesk.Workspace.Operation

/-!
# Sessions

A session is a sequence of operations on one workspace, each with what it meets
outside (`Surroundings`): the checker and the assistant, the files, and whether saving
and copying work.  The assistant may also never answer; then the operation is dropped,
and the workspace stays as it was while it waited.

A `Turn` says what came of one operation: the workspace after it, its outcome, and what
the checker and the assistant were asked, which is one question at most
(`Step.length_questions_take`).
-/
namespace MarkupDesk

open Assistant (Job)

/-- Who is asked during an operation. -/
structure Advisers where
  checker : Checker
  /-- The result of a job on a document, none if the operation is dropped meanwhile. -/
  assistant : Job → String → Option (Except Assistant.Error String)

/-- What an operation meets outside of the workspace. -/
structure Surroundings extends Advisers where
  disk : Disk
  /-- Where downloads are saved. -/
  target : Download → Except Fault Unit
  clipboard : String → Except Fault Unit

/-- Something that can be done on a workspace. -/
inductive Operation where
  | setInput (text : String)
  | validate
  | format
  | minify
  | assist (job : Job)
  | load (path : String)
  | save
  | copyInput
  | copyOutput
  deriving DecidableEq, Repr

/-- How an operation ended. -/
inductive Outcome where
  | finished
  /-- The assistant was asked, and the operation dropped before it answered. -/
  | dropped
  | saved (download : Download)
  | copied (text : String)
  | notCopied (fault : Fault)
  | failed (failure : Failure)
  deriving DecidableEq, Repr

/-- What came of an operation. -/
structure Turn where
  workspace : Workspace
  outcome : Outcome := .finished
  /-- The documents that the checker was asked about. -/
  checked : List String := []
  /-- The jobs that the assistant was given, with their documents. -/
  asked : List (Job × String) := []
  deriving DecidableEq, Repr

/-- Takes a step with the answers of the advisers. -/
def Step.take (a : Advisers) : Step → Turn
  | .done w => { workspace := w }
  | .check document resume =>
    { workspace := resume (a.checker.diagnose document), checked := [document] }
  | .assist job document waiting resume =>
    match a.assistant job document with
    | some result => { workspace := resume result, asked := [(job, document)] }
    | none => { workspace := waiting, outcome := .dropped, asked := [(job, document)] }

/-- A step asks one question at most. -/
theorem Step.length_questions_take (a : Advisers) (s : Step) :
    (s.take a).checked.length + (s.take a).asked.length ≤ 1 := by
  cases s with
  | done w => simp [take]
  | check document resume => simp [take]
  | assist job document waiting resume => cases h : a.assistant job document <;> simp [take, h]

namespace Workspace

/-- The turn of an operation that leaves the workspace alone. -/
def unchanged (w : Workspace) (outcome : Outcome) : Turn := { workspace := w, outcome := outcome }

/-- Copies a text. -/
def copy (w : Workspace) (s : Surroundings) (text : String) : Turn :=
  match s.clipboard text with
  | .ok () => w.unchanged (.copied text)
  | .error fault => w.unchanged (.notCopied fault)

/-- Performs an operation. -/
def perform (w : Workspace) (s : Surroundings) : Operation → Turn
  | .setInput text => { workspace := w.setInput text }
  | .validate => w.validate.take s.toAdvisers
  | .format => w.format.take s.toAdvisers
  | .minify => w.minify.take s.toAdvisers
  | .assist job => (w.assist job).take s.toAdvisers
  | .load path =>
    match w.load s.disk path with
    | .ok step => step.take s.toAdvisers
    | .error failure => w.unchanged (.failed failure)
  | .save =>
    match w.save s.target with
    | .ok download => w.unchanged (.saved download)
    | .error failure => w.unchanged (.failed failure)
  | .copyInput => w.copy s w.input
  | .copyOutput => w.copy s w.output

/-- Performs one operation after the other, and says what came of each. -/
def session (w : Workspace) : List (Surroundings × Operation) → List Turn
  | [] => []
  | (s, operation) :: rest =>
    let turn := w.perform s operation
    turn :: turn.workspace.session rest

/-- The workspace after a session. -/
def after (w : Workspace) (operations : List (Surroundings × Operation)) : Workspace :=
  operations.foldl (fun w (s, operation) => (w.perform s operation).workspace) w

@[simp] theorem length_session (w : Workspace) (operations : List (Surroundings × Operation)) :
    (w.session operations).length = operations.length := by
  induction operations generalizing w with
  | nil => rfl
  | cons head rest ih => simp [session, ih]

@[simp] theorem after_append (w : Workspace) (first second : List (Surroundings × Operation)) :
    w.after (first ++ second) = (w.after first).after second := by
  simp [after]

end Workspace
end MarkupDesk
