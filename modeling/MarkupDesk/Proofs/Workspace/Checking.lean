import MarkupDesk.Proofs.Workspace.Provenance
import MarkupDesk.Proofs.Workspace.Verdict

/-!
# Checking forgets the past

Three operations put the document in the workspace to the checker: one only checks it, one lays
it out, and one minifies it.  What they settle is the verdict: the status (`status_judged_eq`)
and the diagnosis (`diagnosis_judged`) are the same after each of them, and they say nothing
about the workspace but what its document is.

A document that is accepted and laid out, or minified, leaves a workspace in which everything is
made of the document: the output, the view, the diagnosis and the status line are written, and
the document is what it was.  So whatever was done before, and whether or not a request was
dropped, nothing is left of it (`accepted_eq_of_input_eq`, `checking_forgets_past`).
-/
namespace MarkupDesk.Workspace

theorem perform_check_of_not_blank {operation : Operation} (hchecks : operation.checks = true)
    {w : Workspace} (hblank : w.isBlank = false) (s : Surroundings) :
    w.perform s operation =
      { workspace := w.judged operation (s.checker.diagnose w.input), checked := [w.input] } := by
  rw [perform_check hchecks, hblank, if_neg Bool.false_ne_true]

/-- **Every operation that checks settles the verdict of the checker**, which it asks once. -/
theorem perform_check_settles {operation : Operation} (hchecks : operation.checks = true)
    {w : Workspace} (hblank : w.isBlank = false) (s : Surroundings) :
    (w.perform s operation).checked = [w.input] ∧
      (w.perform s operation).workspace.status =
        (if (s.checker w.input).isNone then .success else .error) ∧
      (w.perform s operation).workspace.diagnosis = s.checker.diagnose w.input := by
  rw [perform_check_of_not_blank hchecks hblank, ← Option.isNone_map (f := Diagnosis.ofText)]
  exact ⟨rfl, status_judged_eq w hchecks _, diagnosis_judged hchecks w _⟩

/-- **An accepted document that is laid out or minified is all that the workspace is made of.** -/
theorem accepted_eq_of_input_eq {operation : Operation}
    (hwrites : operation = .format ∨ operation = .minify) {w w' : Workspace}
    (h : w.input = w'.input) : w.accepted operation = w'.accepted operation := by
  rcases hwrites with rfl | rfl
  · simp only [accepted, withOutput, h]
  · simp only [accepted, withOutput, h]

theorem perform_eq_accepted {operation : Operation} (hchecks : operation.checks = true)
    {w : Workspace} (hblank : w.isBlank = false) {s : Surroundings}
    (haccepted : s.checker w.input = none) :
    (w.perform s operation).workspace = w.accepted operation := by
  rw [perform_check_of_not_blank hchecks hblank, diagnose_eq_none_iff.mpr haccepted]
  rfl

/-- **Checking forgets the past.**  Take two sessions on a new workspace that have come to the
same document, and check this document in each of them, by whichever of the three operations and
with the same checker.  Each of them asks the checker once, about this document; both have
succeeded or both have failed, as the checker says; and both keep the same diagnosis.  If the
document was laid out in both, or minified in both, and accepted, the two workspaces are the
same.  A blank document is not checked, and nothing changes. -/
theorem checking_forgets_past (operations operations' : List (Surroundings × Operation))
    {s s' : Surroundings} (hchecker : s.checker = s'.checker) {check check' : Operation}
    (hchecks : check.checks = true) (hchecks' : check'.checks = true) :
    let w := ({} : Workspace).after operations
    let w' := ({} : Workspace).after operations'
    let turn := w.perform s check
    let turn' := w'.perform s' check'
    (w.input = w'.input → w.isBlank = false →
      turn.checked = [w.input] ∧ turn'.checked = [w.input] ∧
      turn.workspace.status = (if (s.checker w.input).isNone then .success else .error) ∧
      turn'.workspace.status = turn.workspace.status ∧
      turn.workspace.diagnosis = s.checker.diagnose w.input ∧
      turn'.workspace.diagnosis = turn.workspace.diagnosis ∧
      (check = check' → check = .format ∨ check = .minify → turn.workspace.status = .success →
        turn'.workspace = turn.workspace)) ∧
    (w.isBlank = true → turn = { workspace := w }) := by
  intro w w' turn turn'
  constructor
  · intro hinput hblank
    have hblank' : w'.isBlank = false := by rw [isBlank, ← hinput, ← isBlank, hblank]
    obtain ⟨hchecked, hstatus, hdiagnosis⟩ := perform_check_settles hchecks hblank s
    obtain ⟨hchecked', hstatus', hdiagnosis'⟩ := perform_check_settles hchecks' hblank' s'
    rw [← hinput, ← hchecker] at hstatus' hdiagnosis'
    rw [← hinput] at hchecked'
    refine ⟨hchecked, hchecked', hstatus, hstatus'.trans hstatus.symm, hdiagnosis,
      hdiagnosis'.trans hdiagnosis.symm, ?_⟩
    rintro rfl hwrites hsuccess
    have haccepted : s.checker w.input = none := by
      cases hverdict : s.checker w.input with
      | none => rfl
      | some message =>
        rw [hstatus, hverdict] at hsuccess
        cases hsuccess
    have haccepted' : s'.checker w'.input = none := by rw [← hinput, ← hchecker, haccepted]
    calc turn'.workspace = w'.accepted check := perform_eq_accepted hchecks' hblank' haccepted'
      _ = w.accepted check := accepted_eq_of_input_eq hwrites hinput.symm
      _ = turn.workspace := (perform_eq_accepted hchecks hblank haccepted).symm
  · intro hblank
    show w.perform s check = _
    rw [perform_check hchecks, if_pos hblank]

/-- A request that was dropped, and a document that was converted and another one that was
rejected, leave no trace once the document is minified. -/
theorem checking_forgets_past_dropped :
    let s := obliging "\x7b\x7d"
    let operations := [(s, .setInput "<b/>"),
      ({ s with assistant := fun _ _ => none }, .assist .convert)]
    let operations' := [(s, .setInput "<a>"), (s, .assist .convert),
      (rejecting "line 1", .validate), (s, .setInput "<b/>")]
    let w := ({} : Workspace).after operations
    let w' := ({} : Workspace).after operations'
    w.isBusy = true ∧ w'.view = .json ∧ w'.diagnosis.isSome = true ∧
      (w.perform s .minify).workspace.status = .success ∧
      (w'.perform s .minify).workspace = (w.perform s .minify).workspace := by
  intro s operations operations' w w'
  have hchecks : Operation.minify.checks = true := rfl
  have hinput : w.input = w'.input := by decide +kernel
  have hblank : w.isBlank = false := by decide +kernel
  have hsuccess : (w.perform s .minify).workspace.status = .success := by decide +kernel
  have hchecker : s.checker = s.checker := rfl
  obtain ⟨_, _, _, _, _, _, hsame⟩ :=
    (checking_forgets_past operations operations' hchecker hchecks hchecks).1 hinput hblank
  exact ⟨by decide +kernel, by decide +kernel, by decide +kernel, hsuccess,
    hsame rfl (.inr rfl) hsuccess⟩

end MarkupDesk.Workspace
