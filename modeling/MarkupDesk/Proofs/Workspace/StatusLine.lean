import MarkupDesk.Proofs.Workspace.Verdict

/-!
# The status line and the diagnosis

The status line and the diagnosis are two components of the workspace, and the operations
write both of them, or one, or none.  They agree nevertheless (`Notice.Suits`): a status
line that reports a rejection stands beside the diagnosis of this rejection, and one that
reports that a document was accepted, repaired or made up stands beside none.  What an
operation writes to both agrees (`suits_judged`, `suits_answered`), and no operation writes
to the diagnosis alone, so every operation keeps the two in agreement (`suits_perform`), and
so does every session (`suits_after`).

A reader of the status line has only its text.  That is enough: no two notices have the same
text (`Notice.text_injective`), so the text tells the status and what the diagnosis is like
(`text_tells_diagnosis`).
-/
namespace MarkupDesk

open Assistant (Job)

namespace Notice

/-! ## The text of a notice -/

/-- What is written in front of the message of a rejection. -/
def rejection : String := "Invalid XML: "

/-- The notices whose text is always the same: all but that of a rejection. -/
def fixed : List Notice :=
  [.none, .wellFormed, .formatted, .minified, .notMinified, .waiting .repair, .waiting .convert,
    .waiting .generate, .completed .repair, .completed .convert, .completed .generate,
    .failed .repair, .failed .convert, .failed .generate]

theorem eq_rejected_or_mem_fixed (n : Notice) : (∃ message, n = .rejected message) ∨ n ∈ fixed := by
  cases n with
  | rejected message => exact .inl ⟨message, rfl⟩
  | none | wellFormed | formatted | minified | notMinified => exact .inr (by simp [fixed])
  | waiting job | completed job | failed job => cases job <;> exact .inr (by simp [fixed])

theorem eq_of_text_eq_of_mem_fixed : ∀ n ∈ fixed, ∀ n' ∈ fixed, n.text = n'.text → n = n' := by
  decide +kernel

/-- No other notice reads like a rejection. -/
theorem text_ne_rejection {n : Notice} (hn : n ∈ fixed) (message : String) :
    n.text ≠ rejection ++ message := by
  have hfront : ∀ n ∈ fixed, ¬ rejection.toList <+: n.text.toList := by decide
  intro h
  refine hfront n hn ?_
  rw [h, String.toList_append]
  exact List.prefix_append _ _

/-- **No two notices have the same text.** -/
theorem text_injective : Function.Injective text := by
  intro n n' h
  obtain ⟨message, rfl⟩ | hn := eq_rejected_or_mem_fixed n
  · obtain ⟨message', rfl⟩ | hn' := eq_rejected_or_mem_fixed n'
    · exact congrArg rejected (String.append_right_inj rejection |>.mp h)
    · exact absurd h.symm (text_ne_rejection hn' message)
  · obtain ⟨message', rfl⟩ | hn' := eq_rejected_or_mem_fixed n'
    · exact absurd h (text_ne_rejection hn message')
    · exact eq_of_text_eq_of_mem_fixed n hn n' hn' h

/-! ## Agreement -/

/-- What the diagnosis is like beside a notice.  Notices of the assistant's work say nothing
about it, except that a repair and a new sample take it back. -/
def Suits : Notice → Option Diagnosis → Prop
  | .none, d | .wellFormed, d | .formatted, d | .minified, d => d = Option.none
  | .completed .repair, d | .completed .generate, d => d = Option.none
  | .rejected message, d => d.map Diagnosis.message = some message
  | .notMinified, d => d.isSome = true
  | .waiting _, _ | .completed .convert, _ | .failed _, _ => True

end Notice

namespace Workspace

theorem suits_judged (w : Workspace) {operation : Operation} (hchecks : operation.checks = true)
    (verdict : Option Diagnosis) :
    (w.judged operation verdict).notice.Suits (w.judged operation verdict).diagnosis := by
  cases verdict with
  | none =>
    cases operation with
    | validate | format | minify => exact rfl
    | _ => cases hchecks
  | some d =>
    cases operation with
    | validate | format | minify => exact rfl
    | _ => cases hchecks

theorem suits_answered (w : Workspace) (job : Job)
    (answer : Option (Except Assistant.Error String)) :
    (w.answered job answer).notice.Suits (w.answered job answer).diagnosis := by
  rcases answer with _ | error | result
  · exact trivial
  · exact trivial
  · cases job with
    | repair | generate => exact rfl
    | convert => exact trivial

/-- **An operation keeps the status line and the diagnosis in agreement.** -/
theorem suits_perform {w : Workspace} (h : w.notice.Suits w.diagnosis) (s : Surroundings)
    (operation : Operation) :
    (w.perform s operation).workspace.notice.Suits (w.perform s operation).workspace.diagnosis := by
  cases operation with
  | setInput text => exact h
  | validate | format | minify =>
    rw [perform_check rfl]
    split
    · exact h
    · exact suits_judged w rfl _
  | assist job =>
    rw [perform, workspace_take_assist]
    split
    · exact h
    · exact suits_answered w job _
  | load path =>
    -- Loading writes neither, whatever the checker says about the file.
    rw [workspace_perform_load]
    split
    · exact h
    · split <;> exact h
  | save | copyInput | copyOutput =>
    rw [workspace_perform_of_export (by simp)]
    exact h

/-- **So does a session.** -/
theorem suits_after {w : Workspace} (h : w.notice.Suits w.diagnosis)
    (operations : List (Surroundings × Operation)) :
    (w.after operations).notice.Suits (w.after operations).diagnosis := by
  induction operations generalizing w with
  | nil => exact h
  | cons head rest ih =>
    obtain ⟨s, operation⟩ := head
    exact ih (suits_perform h s operation)

/-- **The status line never contradicts the diagnosis.**  In every session on a new
workspace, the text of the status line tells the status.  If it reports a rejection, there
is an error, and the diagnosis has the message that it reports; if it says that nothing was
minified because of a rejection, there is a diagnosis; and if it says nothing yet, or that a
document was checked, laid out, minified, repaired or made up, there is none. -/
theorem text_tells_diagnosis (operations : List (Surroundings × Operation)) :
    let w := ({} : Workspace).after operations
    (∀ others : List (Surroundings × Operation),
      (({} : Workspace).after others).notice.text = w.notice.text →
        (({} : Workspace).after others).status = w.status) ∧
    (∀ message, w.notice.text = "Invalid XML: " ++ message →
      w.status = .error ∧ ∃ d, w.diagnosis = some d ∧ d.message = message) ∧
    (w.notice.text = "Cannot minify invalid XML" → ∃ d, w.diagnosis = some d) ∧
    (w.notice.text ∈ ["", "XML is well-formed", "XML formatted successfully", "XML minified",
        "XML repaired by Gemini AI", "Sample loaded"] →
      w.diagnosis = none) := by
  intro w
  have hnew : ({} : Workspace).notice.Suits ({} : Workspace).diagnosis := rfl
  have hsuits : w.notice.Suits w.diagnosis := suits_after hnew operations
  -- The text is that of one notice only, so a text that is known gives the notice.
  have hnotice : ∀ n : Notice, w.notice.text = n.text → n.Suits w.diagnosis := by
    intro n hn
    rw [← Notice.text_injective hn]
    exact hsuits
  refine ⟨?_, ?_, ?_, ?_⟩
  · intro others htext
    exact congrArg Notice.status (Notice.text_injective htext)
  · intro message htext
    have hrejected : w.notice = .rejected message :=
      @Notice.text_injective w.notice (.rejected message) htext
    refine ⟨congrArg Notice.status hrejected, ?_⟩
    exact Option.map_eq_some_iff.mp (hnotice (.rejected message) htext)
  · intro htext
    exact Option.isSome_iff_exists.mp (hnotice .notMinified htext)
  · intro htext
    simp only [List.mem_cons, List.not_mem_nil, or_false] at htext
    rcases htext with h | h | h | h | h | h
    · exact hnotice .none h
    · exact hnotice .wellFormed h
    · exact hnotice .formatted h
    · exact hnotice .minified h
    · exact hnotice (.completed .repair) h
    · exact hnotice (.completed .generate) h

/-- A rejection is still reported, and its diagnosis still there, after another file was
loaded that passes the check, and the input was cleared. -/
theorem text_tells_diagnosis_loaded :
    let operations := [(obliging "", .setInput "<a>"), (rejecting "line 1", .validate),
      (holding "<b/>", .load "b.xml"), (obliging "", .setInput "")]
    let w := ({} : Workspace).after operations
    w.notice.text = "Invalid XML: " ++ "line 1" ∧ w.status = .error ∧
      ∃ d, w.diagnosis = some d ∧ d.message = "line 1" := by
  intro operations w
  have htext : w.notice.text = "Invalid XML: " ++ "line 1" := by decide +kernel
  exact ⟨htext, (text_tells_diagnosis operations).2.1 "line 1" htext⟩

end Workspace
end MarkupDesk
