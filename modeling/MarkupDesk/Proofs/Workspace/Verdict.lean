import MarkupDesk.Proofs.Workspace.Failing
import MarkupDesk.Proofs.Workspace.History

/-!
# The diagnosis that is kept

What the checker says about a document is kept as the diagnosis of the workspace by the
operations that check the document in it, and taken back by a repair and by a new sample.
Loading a file asks the checker too, but keeps the diagnosis that is there.

`verdicts` is the history of the diagnosis, and the diagnosis is its last entry
(`diagnosis_after`).  So right after an operation that has put a document to the checker,
the diagnosis is the verdict on that document, unless the document comes from a file and
the last verdict before it was another one (`diagnosis_current_iff`).
-/
namespace MarkupDesk

namespace Workspace

/-- What an operation makes the diagnosis, if it sets it. -/
def verdict? (w : Workspace) (s : Surroundings) : Operation → Option (Option Diagnosis)
  | .assist job =>
    if job = .convert ∨ w.Declines job then none
    else
      match s.assistant job (w.document job) with
      | some (.ok _) => some none
      | _ => none
  | operation =>
    if operation.checks = true ∧ w.isBlank = false then some (s.checker.diagnose w.input) else none

/-- What a session makes the diagnosis, in order. -/
def verdicts (w : Workspace) (operations : List (Surroundings × Operation)) :
    List (Option Diagnosis) :=
  w.history verdict? operations

theorem verdict?_of_checks {operation : Operation} (hchecks : operation.checks = true)
    (w : Workspace) (s : Surroundings) :
    w.verdict? s operation =
      if w.isBlank = true then none else some (s.checker.diagnose w.input) := by
  cases operation with
  | validate | format | minify => cases h : w.isBlank <;> simp [verdict?, Operation.checks, h]
  | _ => cases hchecks

theorem diagnosis_judged {operation : Operation} (hchecks : operation.checks = true)
    (w : Workspace) (verdict : Option Diagnosis) :
    (w.judged operation verdict).diagnosis = verdict := by
  cases verdict with
  | some d => rfl
  | none =>
    cases operation with
    | validate | format | minify => rfl
    | _ => cases hchecks

theorem diagnosis_withUpload (w : Workspace) (text : String) (verdict : Option Diagnosis) :
    (w.withUpload text verdict).input = text ∧
      (w.withUpload text verdict).diagnosis = w.diagnosis := by
  cases verdict <;> exact ⟨rfl, rfl⟩

/-- **An operation leaves the diagnosis that it sets**, or the one that was there. -/
theorem diagnosis_perform (w : Workspace) (s : Surroundings) (operation : Operation) :
    (w.perform s operation).workspace.diagnosis = (w.verdict? s operation).getD w.diagnosis := by
  cases operation with
  | setInput text => rfl
  | validate | format | minify =>
    rw [perform_check rfl, verdict?_of_checks rfl]
    split
    · rfl
    · exact diagnosis_judged rfl w _
  | assist job =>
    rw [perform, workspace_take_assist, verdict?]
    by_cases hdeclines : w.Declines job
    · rw [if_pos hdeclines, if_pos (.inr hdeclines)]
      rfl
    · rw [if_neg hdeclines]
      rcases s.assistant job (w.document job) with _ | _ | result <;> cases job <;>
        simp [hdeclines, answered, withResult, note]
  | load path =>
    cases h : loaded? s.disk path with
    | none =>
      obtain ⟨failure, hfailed⟩ := exists_perform_load_failed (w := w) h
      rw [hfailed]
      rfl
    | some text =>
      rw [perform_load_of_loaded? h]
      exact (diagnosis_withUpload w text _).2
  | save | copyInput | copyOutput =>
    rw [workspace_perform_of_export (by simp)]
    rfl

/-- **The diagnosis is what it was made last.** -/
theorem diagnosis_after (w : Workspace) (operations : List (Surroundings × Operation)) :
    (w.after operations).diagnosis = (w.verdicts operations).getLast?.getD w.diagnosis :=
  component_after diagnosis_perform w operations

/-! ## The verdict on the document that was checked -/

/-- **A document is put to the checker where it is checked, or loaded from a file.** -/
theorem mem_checked_perform_iff {w : Workspace} {s : Surroundings} {operation : Operation}
    {document : String} :
    document ∈ (w.perform s operation).checked ↔
      (operation.checks = true ∧ w.isBlank = false ∧ document = w.input) ∨
        ∃ path, operation = .load path ∧ loaded? s.disk path = some document := by
  cases operation with
  | setInput text => simp [perform, Operation.checks]
  | validate | format | minify =>
    rw [perform_check rfl]
    cases h : w.isBlank <;> simp [Operation.checks]
  | assist job =>
    rw [perform, take_assist]
    split <;> simp [Operation.checks]
  | load path =>
    cases h : loaded? s.disk path with
    | none =>
      obtain ⟨failure, hfailed⟩ := exists_perform_load_failed (w := w) h
      simp [hfailed, unchanged, Operation.checks, h]
    | some text =>
      rw [perform_load_of_loaded? h]
      constructor
      · intro hmem
        obtain rfl := List.mem_singleton.mp hmem
        exact .inr ⟨path, rfl, h⟩
      · rintro (⟨hchecks, _⟩ | ⟨_, hpath, hloaded⟩)
        · cases hchecks
        · cases hpath
          obtain rfl := Option.some.inj (h.symm.trans hloaded)
          exact List.mem_singleton_self _
  | save =>
    rw [perform]
    cases w.save s.target <;> simp [unchanged, Operation.checks]
  | copyInput =>
    rw [perform, copy]
    cases s.clipboard w.input <;> simp [unchanged, Operation.checks]
  | copyOutput =>
    rw [perform, copy]
    cases s.clipboard w.output <;> simp [unchanged, Operation.checks]

/-- **A document that was checked is the input afterwards**, and its verdict is kept, but a
file that is loaded leaves the diagnosis as it was. -/
theorem input_diagnosis_of_mem_checked {w : Workspace} {s : Surroundings} {operation : Operation}
    {document : String} (h : document ∈ (w.perform s operation).checked) :
    (w.perform s operation).workspace.input = document ∧
      (w.perform s operation).workspace.diagnosis =
        if operation.checks = true then s.checker.diagnose document else w.diagnosis := by
  rcases mem_checked_perform_iff.mp h with ⟨hchecks, hblank, rfl⟩ | ⟨path, rfl, hloaded⟩
  · refine ⟨input_perform_check hchecks w s, ?_⟩
    rw [diagnosis_perform, verdict?_of_checks hchecks, if_pos hchecks,
      if_neg (Bool.eq_false_iff.mp hblank)]
    rfl
  · rw [perform_load_of_loaded? hloaded]
    exact diagnosis_withUpload w document _

/-- **The diagnosis is the verdict on the document that was checked last, except for one
case.**  In every session on a new workspace, right after an operation that has put a
document to the checker, the input is this document; and the diagnosis is its verdict,
unless it was loaded from a file and the last verdict that was kept before is another one.
So it is in this case only that a repair may be offered for a document that was accepted,
or not be offered for one that was rejected. -/
theorem diagnosis_current_iff (operations : List (Surroundings × Operation)) {s : Surroundings}
    {operation : Operation} {document : String}
    (h : document ∈ ((({} : Workspace).after operations).perform s operation).checked) :
    let kept := (({} : Workspace).verdicts operations).getLast?.join
    let w := ((({} : Workspace).after operations).perform s operation).workspace
    w.input = document ∧
      (w.diagnosis = s.checker.diagnose document ↔
        operation.checks = true ∨ kept = s.checker.diagnose document) ∧
      (document ≠ "" →
        ((w.offersRepair = true ↔ (s.checker document).isSome = true) ↔
          operation.checks = true ∨
            (kept.isSome = true ↔ (s.checker document).isSome = true))) := by
  intro kept w
  have hkept : (({} : Workspace).after operations).diagnosis = kept := by
    rw [diagnosis_after]
    cases hlast : (({} : Workspace).verdicts operations).getLast? <;> simp [kept, hlast]
  obtain ⟨hinput, hdiagnosis⟩ := input_diagnosis_of_mem_checked h
  rw [hkept] at hdiagnosis
  have hrejected : (s.checker.diagnose document).isSome = (s.checker document).isSome :=
    Option.isSome_map
  refine ⟨hinput, ?_, fun hne => ?_⟩
  · cases hchecks : operation.checks <;> simp [w, hdiagnosis, hchecks]
  · have hoffers : w.offersRepair = w.diagnosis.isSome := by
      simp [offersRepair, w, hinput, hne]
    cases hchecks : operation.checks <;> simp [w, hoffers, hdiagnosis, hchecks, hrejected]

/-- Obliging surroundings in which every path leads to a file with this text. -/
def holding (text : String) : Surroundings :=
  { obliging "<a/>" with disk := ⟨fun _ => .file text.toUTF8, fun _ => none⟩ }

/-- Surroundings in which every document is rejected with this message. -/
def rejecting (message : String) : Surroundings :=
  { obliging "" with checker := fun _ => some message }

/-- A repair takes the verdict on the broken document back, and the next file is loaded
without one. -/
theorem diagnosis_current_repaired :
    let operations := [(obliging "", .setInput "<a>"), (rejecting "line 1", .validate),
      (obliging "<a/>", .assist .repair)]
    let turn := (({} : Workspace).after operations).perform (holding "<b/>") (.load "b.xml")
    "<b/>" ∈ turn.checked ∧ (({} : Workspace).verdicts operations).getLast? = some none ∧
      turn.workspace.input = "<b/>" ∧ turn.workspace.diagnosis = none := by
  intro operations turn
  have hchecked : "<b/>" ∈ turn.checked := by decide +kernel
  have hkept : (({} : Workspace).verdicts operations).getLast? = some none := by decide +kernel
  obtain ⟨hinput, hdiagnosis, _⟩ := diagnosis_current_iff operations hchecked
  rw [hkept] at hdiagnosis
  exact ⟨hchecked, hkept, hinput, hdiagnosis.mpr (.inr rfl)⟩

/-- **The diagnosis is not always the verdict on the document that was checked last.**  A
file that is accepted, loaded after a document that was rejected, is offered for repair. -/
theorem not_forall_diagnosis_current :
    ¬ ∀ (operations : List (Surroundings × Operation)) (s : Surroundings)
        (operation : Operation) (document : String),
        let turn := (({} : Workspace).after operations).perform s operation
        document ∈ turn.checked →
          turn.workspace.diagnosis = s.checker.diagnose document ∧
            (document ≠ "" →
              (turn.workspace.offersRepair = true ↔ (s.checker document).isSome = true)) := by
  intro h
  let operations : List (Surroundings × Operation) :=
    [(obliging "", .setInput "<a>"), (rejecting "line 1", .validate)]
  obtain ⟨_, hoffers⟩ := h operations (holding "<b/>") (.load "b.xml") "<b/>" (by decide +kernel)
  exact absurd (hoffers (by decide)) (by decide +kernel)

end Workspace
end MarkupDesk
