import MarkupDesk.Proofs.Markup.Lines
import MarkupDesk.Proofs.Workspace.Export

/-!
# Where the output comes from

Nothing that the checker rejects reaches the output.  `Releases` says what an operation
may put there: the layout or the minified form of a document that the checker accepted in
this very operation, or what the assistant gave for an answer.  Whatever an operation
writes, it releases (`releases_of_written?`), and since the output is the last text of its
history (`output_after`), the output of every session is empty or was released by one of
its operations.

The texts other than conversions say the same as the document: minified, they are the
minified document that the operation leaves in the workspace
(`minify_text_of_written?`).  So it stays until the document or the output is changed
again.  `output_vouched_for` states both.
-/
namespace MarkupDesk

open Assistant (Job)

/-- Whether a writer writes a form of the document, and neither a conversion of it nor
nothing at all. -/
def Writer.renders : Writer → Bool
  | .formatter | .minifier | .upload | .assistant .repair => true
  | .assistant _ => false

namespace Workspace

/-- The checker is asked about the document in this operation, and accepts it. -/
def Accepts (w : Workspace) (s : Surroundings) (operation : Operation) (document : String) : Prop :=
  document ∈ (w.perform s operation).checked ∧ s.checker document = none

/-- The assistant is given the job in this operation, and this is the result. -/
def Obtains (w : Workspace) (s : Surroundings) (operation : Operation) (job : Job)
    (result : String) : Prop :=
  ∃ document, (job, document) ∈ (w.perform s operation).asked ∧
    s.assistant job document = some (.ok result)

/-- What an operation may put into the output. -/
inductive Releases (w : Workspace) (s : Surroundings) : Operation → String → Prop where
  | formatted {document : String} :
      w.Accepts s .format document → Releases w s .format (Markup.format document)
  | minified {document : String} :
      w.Accepts s .minify document → Releases w s .minify (Markup.minify document)
  | uploaded {path document : String} :
      w.Accepts s (.load path) document → Releases w s (.load path) (Markup.format document)
  | repaired {result : String} :
      w.Obtains s (.assist .repair) .repair result →
        Releases w s (.assist .repair) (Markup.format result)
  | converted {result : String} :
      w.Obtains s (.assist .convert) .convert result → Releases w s (.assist .convert) result

theorem diagnose_eq_none_iff {check : Checker} {document : String} :
    check.diagnose document = none ↔ check document = none := by
  rw [Checker.diagnose, Option.map_eq_none_iff]

theorem passes_iff {w : Workspace} {a : Advisers} :
    w.passes a = true ↔ w.isBlank = false ∧ a.checker w.input = none := by
  rw [passes, Bool.and_eq_true, Bool.not_eq_true', Option.isNone_iff_eq_none,
    diagnose_eq_none_iff]

/-- A document that passes the check has been put to it. -/
theorem accepts_of_passes {w : Workspace} {s : Surroundings} {operation : Operation}
    (hchecks : operation.checks = true) (hpasses : w.passes s.toAdvisers = true) :
    w.Accepts s operation w.input := by
  obtain ⟨hblank, hcheck⟩ := passes_iff.mp hpasses
  refine ⟨?_, hcheck⟩
  rw [perform_check hchecks, if_neg (by simp [hblank])]
  exact List.mem_singleton_self _

/-- **What an operation writes to the output it releases**, except that a new sample
empties the output. -/
theorem releases_of_written? {w : Workspace} {s : Surroundings} {operation : Operation}
    {e : Write} (h : w.written? s operation = some e) :
    e.text = "" ∨ w.Releases s operation e.text := by
  cases writing_of_written? h with
  | formatted hpasses => exact .inr (.formatted (accepts_of_passes rfl hpasses))
  | minified hpasses => exact .inr (.minified (accepts_of_passes rfl hpasses))
  | @assisted job result hdeclines hresult =>
    have hobtains : w.Obtains s (.assist job) job result := by
      refine ⟨w.document job, ?_, hresult⟩
      rw [perform, take_assist, if_neg hdeclines]
      exact List.mem_singleton_self _
    cases job with
    | repair => exact .inr (.repaired hobtains)
    | convert => exact .inr (.converted hobtains)
    | generate => exact .inl rfl
  | uploaded hloaded hcheck =>
    refine .inr (.uploaded ⟨?_, diagnose_eq_none_iff.mp hcheck⟩)
    rw [perform_load_of_loaded? hloaded]
    exact List.mem_singleton_self _

/-- **A form of the document says the same as the document** that the operation leaves. -/
theorem minify_text_of_written? {w : Workspace} {s : Surroundings} {operation : Operation}
    {e : Write} (h : w.written? s operation = some e) (hrenders : e.writer.renders = true) :
    Markup.minify e.text = Markup.minify (w.perform s operation).workspace.input := by
  rw [← String.toList_inj, Markup.toList_minify, Markup.toList_minify]
  cases writing_of_written? h with
  | formatted | minified =>
    rw [input_perform_check rfl]
    simp
  | @assisted job result hdeclines hresult =>
    cases job with
    | repair =>
      rw [perform, workspace_take_assist, if_neg hdeclines, hresult]
      simp [answered, withResult, rendition]
    | convert | generate => cases hrenders
  | uploaded hloaded hcheck =>
    rw [perform_load_of_loaded? hloaded, hcheck]
    simp [withUpload]

/-- The output was last written as `e`, and the document is still the one that this
operation has left. -/
def Stands (w : Workspace) (operations : List (Surroundings × Operation)) (e : Write) : Prop :=
  ∃ before s operation later, operations = before ++ (s, operation) :: later ∧
    (w.after before).written? s operation = some e ∧
    ((w.after before).perform s operation).workspace.writes later = [] ∧
    (w.after operations).input = ((w.after before).perform s operation).workspace.input

/-- As long as a rendition of the document stands, it says the same as the document. -/
theorem Stands.minify_output {w : Workspace} {operations : List (Surroundings × Operation)}
    {e : Write} (h : w.Stands operations e) (hrenders : e.writer.renders = true) :
    Markup.minify (w.after operations).output = Markup.minify (w.after operations).input := by
  obtain ⟨before, s, operation, later, rfl, hwritten, hlater, hinput⟩ := h
  have hafter : w.after (before ++ (s, operation) :: later) =
      ((w.after before).perform s operation).workspace.after later := after_append w before _
  have houtput : (w.after (before ++ (s, operation) :: later)).output = e.text := by
    rw [hafter, output_after, hlater, (output_view_perform _ s operation).1, hwritten]
    rfl
  rw [houtput, hinput, minify_text_of_written? hwritten hrenders]

/-- **The output is vouched for.**  In every session on a new workspace it is empty, or
one of the operations has released it.  And as long as it stands as it was written by the
formatter, the minifier, an upload or a repair, it is the document but for its spacing. -/
theorem output_vouched_for (operations : List (Surroundings × Operation)) :
    ((({} : Workspace).after operations).output = "" ∨
      ∃ before s operation later, operations = before ++ (s, operation) :: later ∧
        (({} : Workspace).after before).Releases s operation
          (({} : Workspace).after operations).output) ∧
    ∀ e, ({} : Workspace).Stands operations e →
      (e.writer = .formatter ∨ e.writer = .minifier ∨ e.writer = .upload ∨
        e.writer = .assistant .repair) →
      Markup.minify (({} : Workspace).after operations).output =
        Markup.minify (({} : Workspace).after operations).input := by
  constructor
  · have houtput := output_after {} operations
    cases hlast : (({} : Workspace).writes operations).getLast? with
    | none =>
      rw [hlast] at houtput
      exact .inl houtput
    | some e =>
      rw [hlast] at houtput
      obtain ⟨before, s, operation, later, hsplit, hwritten, _⟩ := exists_of_getLast?_history hlast
      rw [houtput]
      refine (releases_of_written? hwritten).imp id fun hreleases => ?_
      exact ⟨before, s, operation, later, hsplit, hreleases⟩
  · intro e hstands hwriter
    refine hstands.minify_output ?_
    rcases hwriter with h | h | h | h <;> rw [h] <;> rfl

/-- A repaired document stands when the desk waits for a conversion that never comes. -/
theorem output_vouched_for_repaired :
    let operations := [(obliging "", .setInput "<a>"), (obliging "<a> </a>", .assist .repair),
      ({ obliging "" with assistant := fun _ _ => none }, .assist .convert)]
    let w := ({} : Workspace).after operations
    ({} : Workspace).Stands operations ⟨.assistant .repair, "<a>\r\n</a>"⟩ ∧
      Markup.minify w.output = Markup.minify w.input := by
  intro operations w
  have hstands : ({} : Workspace).Stands operations ⟨.assistant .repair, "<a>\r\n</a>"⟩ :=
    ⟨[(obliging "", .setInput "<a>")], obliging "<a> </a>", .assist .repair, _, rfl,
      by decide +kernel, by decide +kernel, by decide +kernel⟩
  exact ⟨hstands, (output_vouched_for operations).2 _ hstands (.inr (.inr (.inr rfl)))⟩

end Workspace
end MarkupDesk
