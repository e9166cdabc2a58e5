import MarkupDesk.Proofs.Workspace.Export

/-!
# Operations that fail

An operation fails when it reports an error in the status line, or ends with a failure of
its own (`Fails`).  Each kind of operation has its own way to fail:

* checking fails when the document is rejected (`fails_check_iff`), and keeps the
  diagnosis;
* a job fails when the assistant does, whatever its error is (`fails_assist_iff`), and
  keeps nothing but that it failed;
* loading fails when there is nothing to load (`fails_load_iff`), before anybody is asked;
* saving and copying leave the workspace alone in any case.

An operation that declines a blank document reports the status that was there before: it
fails again after a failure, and changes nothing.

`failure_is_atomic` puts these together: no failing operation touches the document, the
output or the view, and what else it may change is said for each kind.
-/
namespace MarkupDesk

open Assistant (Job)

/-- Whether an operation reports the status of the desk when it is over. -/
def Operation.reports : Operation → Bool
  | .validate | .format | .minify | .assist _ => true
  | _ => false

theorem Operation.reports_of_checks {operation : Operation} (h : operation.checks = true) :
    operation.reports = true := by
  cases operation with
  | validate | format | minify => rfl
  | _ => cases h

namespace Workspace

/-- An operation fails that reports an error, or that ends with a failure of its own. -/
def Fails (w : Workspace) (s : Surroundings) (operation : Operation) : Prop :=
  (operation.reports = true ∧ (w.perform s operation).outcome = .finished ∧
    (w.perform s operation).workspace.status = .error) ∨
  (∃ failure, (w.perform s operation).outcome = .failed failure) ∨
  ∃ fault, (w.perform s operation).outcome = .notCopied fault

/-- The workspaces hold the same document, output and view. -/
structure SameData (w v : Workspace) : Prop where
  input : w.input = v.input
  output : w.output = v.output
  view : w.view = v.view

theorem SameData.refl (w : Workspace) : w.SameData w := ⟨rfl, rfl, rfl⟩

theorem sameData_note (w : Workspace) (notice : Notice) : (w.note notice).SameData w :=
  ⟨rfl, rfl, rfl⟩

theorem sameData_rejected (w : Workspace) (operation : Operation) (d : Diagnosis) :
    (w.rejected operation d).SameData w :=
  ⟨rfl, rfl, rfl⟩

/-! ## Checking -/

theorem status_judged (w : Workspace) {operation : Operation} (hchecks : operation.checks = true)
    (verdict : Option Diagnosis) :
    (w.judged operation verdict).status = .error ↔ verdict.isSome = true := by
  rw [status_judged_eq w hchecks]
  cases verdict <;> simp

/-- **Checking fails exactly when the document is rejected**, or when it is blank and there
was an error before. -/
theorem fails_check_iff {w : Workspace} {s : Surroundings} {operation : Operation}
    (hchecks : operation.checks = true) :
    w.Fails s operation ↔
      if w.isBlank = true then w.status = .error
      else ∃ d, s.checker.diagnose w.input = some d := by
  rw [Fails, perform_check hchecks]
  split
  · simp [Operation.reports_of_checks hchecks]
  · simp [Operation.reports_of_checks hchecks, status_judged w hchecks, Option.isSome_iff_exists]

/-- A document that is rejected leaves its diagnosis and an error. -/
theorem exists_rejected_of_fails {w : Workspace} {s : Surroundings} {operation : Operation}
    (hchecks : operation.checks = true) (hblank : ¬ w.isBlank = true)
    (h : w.Fails s operation) :
    ∃ d, s.checker.diagnose w.input = some d ∧
      (w.perform s operation).workspace = w.rejected operation d := by
  rw [fails_check_iff hchecks, if_neg hblank] at h
  obtain ⟨d, hd⟩ := h
  refine ⟨d, hd, ?_⟩
  rw [perform_check hchecks, if_neg hblank, hd]
  rfl

/-! ## The assistant -/

/-- **A job fails exactly when the assistant does**, or when it is declined and there was
an error before. -/
theorem fails_assist_iff {w : Workspace} {s : Surroundings} {job : Job} :
    w.Fails s (.assist job) ↔
      if w.Declines job then w.status = .error
      else ∃ error, s.assistant job (w.document job) = some (.error error) := by
  rw [Fails, perform, take_assist]
  split
  · simp [Operation.reports]
  · rcases s.assistant job (w.document job) with _ | error | result
    · simp [Operation.reports]
    · simp [Operation.reports, answered, note, status, Notice.status]
    · cases job <;> simp [Operation.reports, answered, withResult, status, Notice.status]

/-- Of the error of the assistant nothing is kept. -/
theorem workspace_of_fails_assist {w : Workspace} {s : Surroundings} {job : Job}
    (h : w.Fails s (.assist job)) :
    (w.perform s (.assist job)).workspace =
      if w.Declines job then w else w.note (.failed job) := by
  rw [fails_assist_iff] at h
  rw [perform, workspace_take_assist]
  split
  · rfl
  · rename_i hdeclines
    rw [if_neg hdeclines] at h
    obtain ⟨error, herror⟩ := h
    rw [herror]
    rfl

/-! ## Files and the clipboard -/

/-- **Loading fails exactly when there is nothing to load.** -/
theorem fails_load_iff {w : Workspace} {s : Surroundings} {path : String} :
    w.Fails s (.load path) ↔ loaded? s.disk path = none := by
  cases h : loaded? s.disk path with
  | some text => simp [Fails, perform_load_of_loaded? h, Operation.reports]
  | none =>
    obtain ⟨failure, hfailed⟩ := exists_perform_load_failed (w := w) h
    simp [Fails, hfailed, unchanged]

/-- Saving and copying leave the workspace alone, whatever comes of them. -/
theorem workspace_perform_of_export {operation : Operation}
    (hexport : operation = .save ∨ operation = .copyInput ∨ operation = .copyOutput)
    (w : Workspace) (s : Surroundings) : (w.perform s operation).workspace = w := by
  rcases hexport with rfl | rfl | rfl
  · exact workspace_perform_save w s
  · exact workspace_copy w s w.input
  · exact workspace_copy w s w.output

/-! ## All operations -/

/-- **A failing operation keeps the document, the output and the view.** -/
theorem sameData_of_fails {w : Workspace} {s : Surroundings} {operation : Operation}
    (h : w.Fails s operation) : (w.perform s operation).workspace.SameData w := by
  cases operation with
  | setInput text => simp [Fails, perform, Operation.reports] at h
  | validate | format | minify =>
    by_cases hblank : w.isBlank = true
    · rw [perform_check rfl, if_pos hblank]
      exact .refl w
    · obtain ⟨d, _, hd⟩ := exists_rejected_of_fails rfl hblank h
      rw [hd]
      exact sameData_rejected w _ d
  | assist job =>
    rw [workspace_of_fails_assist h]
    split
    · exact .refl w
    · exact sameData_note w _
  | load path =>
    obtain ⟨failure, hfailed⟩ := exists_perform_load_failed (fails_load_iff.mp h)
    rw [hfailed]
    exact .refl w
  | save | copyInput | copyOutput =>
    rw [workspace_perform_of_export (by simp)]
    exact .refl w

/-- **Failing is atomic.**  Whatever happens outside, a failing operation keeps the
document, the output and the view.  A failing job moreover keeps the diagnosis, and the
status line does not tell its error; checking replaces the diagnosis beside the status
line; loading changes nothing, and asks nobody.  Saving and copying never change
anything. -/
theorem failure_is_atomic (w : Workspace) (s : Surroundings) :
    (∀ operation, w.Fails s operation → (w.perform s operation).workspace.SameData w) ∧
    (∀ job, w.Fails s (.assist job) →
      (w.perform s (.assist job)).workspace =
        if w.Declines job then w else w.note (.failed job)) ∧
    (∀ operation, operation.checks = true → w.Fails s operation →
      if w.isBlank = true then (w.perform s operation).workspace = w
      else
        ∃ d, s.checker.diagnose w.input = some d ∧
          (w.perform s operation).workspace = w.rejected operation d) ∧
    (∀ path, w.Fails s (.load path) →
      ∃ failure, w.perform s (.load path) = w.unchanged (.failed failure)) ∧
    (∀ operation, operation = .save ∨ operation = .copyInput ∨ operation = .copyOutput →
      (w.perform s operation).workspace = w) := by
  refine ⟨fun _ h => sameData_of_fails h, fun _ h => workspace_of_fails_assist h, ?_, ?_,
    fun _ hexport => workspace_perform_of_export hexport w s⟩
  · intro operation hchecks h
    split
    · rename_i hblank
      rw [perform_check hchecks, if_pos hblank]
    · rename_i hblank
      exact exists_rejected_of_fails hchecks hblank h
  · intro path h
    exact exists_perform_load_failed (fails_load_iff.mp h)

/-- A repair that the assistant fails, of a document that has been rejected. -/
theorem failure_is_atomic_repair :
    let s := { obliging "" with assistant := fun _ _ => some (.error (.timeout 60)) }
    let w : Workspace := Workspace.rejected { input := "<a>", output := "{}", view := .json }
      .format ⟨1, "not closed"⟩
    w.Fails s (.assist .repair) ∧
      (w.perform s (.assist .repair)).workspace = w.note (.failed .repair) := by
  intro s w
  have hfails : w.Fails s (.assist .repair) := .inl ⟨rfl, by decide +kernel, by decide +kernel⟩
  have hdeclines : ¬ w.Declines .repair := by decide +kernel
  have h := (failure_is_atomic w s).2.1 .repair hfails
  rw [if_neg hdeclines] at h
  exact ⟨hfails, h⟩

end Workspace
end MarkupDesk
