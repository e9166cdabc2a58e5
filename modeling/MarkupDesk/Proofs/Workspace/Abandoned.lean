import MarkupDesk.Proofs.Workspace.Export
import MarkupDesk.Proofs.Workspace.History

/-!
# Requests that are abandoned

An operation that is dropped while the assistant is at work leaves nothing behind but a
status line that says so.  No operation reads the status line: with another one in front of
it, an operation comes to the same, and it either replaces the status line or leaves it
(`perform_note`).  So the operations of a session that are not dropped (`kept`) come to the
same without the others, but for the status line (`hushed_session_kept`).

The status line itself is what the last operation has set it to that sets it at all
(`notice_after`), and without the dropped operations the last one of the others
(`after_kept`).  The two are the same as soon as one of the others has set it again.
-/
namespace MarkupDesk

open Assistant (Job)

/-- The turn with this status line after it. -/
def Turn.withNotice (t : Turn) (notice : Notice) : Turn :=
  { t with workspace := t.workspace.note notice }

/-- The turn without its status line. -/
def Turn.hushed (t : Turn) : Turn := t.withNotice .none

namespace Workspace

/-- What an operation sets the status line to, if it sets it. -/
def notice? (w : Workspace) (s : Surroundings) : Operation → Option Notice
  | .assist job =>
    if w.Declines job then none else some (w.answered job (s.assistant job (w.document job))).notice
  | operation =>
    if operation.checks = true ∧ w.isBlank = false then
      some (w.judged operation (s.checker.diagnose w.input)).notice
    else none

/-- The operations of a session that are not dropped. -/
def kept (w : Workspace) :
    List (Surroundings × Operation) → List (Surroundings × Operation)
  | [] => []
  | (s, operation) :: rest =>
    let turn := w.perform s operation
    if turn.outcome = .dropped then turn.workspace.kept rest
    else (s, operation) :: turn.workspace.kept rest

/-- What a session sets the status line to, in order. -/
def notices (w : Workspace) (operations : List (Surroundings × Operation)) : List Notice :=
  w.history notice? operations

theorem notices_cons (w : Workspace) (s : Surroundings) (operation : Operation)
    (rest : List (Surroundings × Operation)) :
    w.notices ((s, operation) :: rest) =
      (w.notice? s operation).toList ++ (w.perform s operation).workspace.notices rest := rfl

/-! ## One operation -/

theorem judged_note {operation : Operation} (hchecks : operation.checks = true) (w : Workspace)
    (notice : Notice) (verdict : Option Diagnosis) :
    (w.note notice).judged operation verdict = w.judged operation verdict := by
  cases verdict with
  | some d => rfl
  | none =>
    cases operation with
    | validate | format | minify => rfl
    | _ => cases hchecks

theorem answered_note (w : Workspace) (notice : Notice) (job : Job)
    (answer : Option (Except Assistant.Error String)) :
    (w.note notice).answered job answer = w.answered job answer := by
  rcases answer with _ | _ | result
  · rfl
  · rfl
  · cases job <;> rfl

theorem perform_check_note {operation : Operation} (hchecks : operation.checks = true)
    (w : Workspace) (notice : Notice) (s : Surroundings) :
    (w.note notice).perform s operation =
      (w.perform s operation).withNotice ((w.notice? s operation).getD notice) := by
  have hnotice : w.notice? s operation =
      if w.isBlank = false then some (w.judged operation (s.checker.diagnose w.input)).notice
      else none := by
    cases operation with
    | validate | format | minify => simp [notice?, Operation.checks]
    | _ => cases hchecks
  have hblank : (w.note notice).isBlank = w.isBlank := rfl
  have hinput : (w.note notice).input = w.input := rfl
  rw [perform_check hchecks, perform_check hchecks, hnotice, hblank, hinput,
    judged_note hchecks]
  cases w.isBlank <;> rfl

theorem perform_assist_note (w : Workspace) (notice : Notice) (s : Surroundings) (job : Job) :
    (w.note notice).perform s (.assist job) =
      (w.perform s (.assist job)).withNotice ((w.notice? s (.assist job)).getD notice) := by
  have hdeclines : (w.note notice).Declines job ↔ w.Declines job := Iff.rfl
  have hdocument : (w.note notice).document job = w.document job := by cases job <;> rfl
  rw [perform, perform, take_assist, take_assist, notice?, hdocument, answered_note]
  by_cases h : w.Declines job
  · rw [if_pos (hdeclines.mpr h), if_pos h, if_pos h]
    rfl
  · rw [if_neg (mt hdeclines.mp h), if_neg h, if_neg h]
    rfl

theorem perform_load_note (w : Workspace) (notice : Notice) (s : Surroundings) (path : String) :
    (w.note notice).perform s (.load path) = (w.perform s (.load path)).withNotice notice := by
  simp only [perform, load]
  cases isLoadable path with
  | false => rfl
  | true =>
    cases s.disk.readText path with
    | error fault => rfl
    | ok text =>
      simp only [Step.take, Bool.not_true, Bool.false_eq_true, if_false]
      cases s.checker.diagnose text <;> rfl

/-- **No operation reads the status line.**  It comes to the same under every status line,
which it replaces or leaves. -/
theorem perform_note (w : Workspace) (notice : Notice) (s : Surroundings)
    (operation : Operation) :
    (w.note notice).perform s operation =
      (w.perform s operation).withNotice ((w.notice? s operation).getD notice) := by
  cases operation with
  | setInput text => rfl
  | validate | format | minify => exact perform_check_note rfl w notice s
  | assist job => exact perform_assist_note w notice s job
  | load path => exact perform_load_note w notice s path
  | save =>
    have hsave : (w.note notice).save s.target = w.save s.target := rfl
    rw [perform, perform, hsave]
    cases w.save s.target <;> rfl
  | copyInput =>
    show (w.note notice).copy s w.input = (w.copy s w.input).withNotice notice
    unfold copy
    cases s.clipboard w.input <;> rfl
  | copyOutput =>
    show (w.note notice).copy s w.output = (w.copy s w.output).withNotice notice
    unfold copy
    cases s.clipboard w.output <;> rfl

theorem note_notice (w : Workspace) : w.note w.notice = w := rfl

theorem notice_perform (w : Workspace) (s : Surroundings) (operation : Operation) :
    (w.perform s operation).workspace.notice = (w.notice? s operation).getD w.notice := by
  have h := perform_note w w.notice s operation
  rw [note_notice] at h
  exact congrArg (·.workspace.notice) h

/-! ## Dropped operations -/

/-- **An operation is dropped exactly when the assistant is asked and does not answer.** -/
theorem outcome_eq_dropped_iff {w : Workspace} {s : Surroundings} {operation : Operation} :
    (w.perform s operation).outcome = .dropped ↔
      ∃ job, operation = .assist job ∧ ¬ w.Declines job ∧
        s.assistant job (w.document job) = none := by
  cases operation with
  | assist job =>
    rw [perform, take_assist]
    by_cases h : w.Declines job
    · simp [h]
    · cases ha : s.assistant job (w.document job) <;> simp [h, ha]
  | setInput text => simp [perform]
  | validate | format | minify =>
    rw [perform_check rfl]
    split <;> simp
  | load path =>
    cases h : loaded? s.disk path with
    | some text => simp [perform_load_of_loaded? h]
    | none =>
      obtain ⟨failure, hfailed⟩ := exists_perform_load_failed (w := w) h
      simp [hfailed, unchanged]
  | save =>
    rw [perform]
    cases w.save s.target <;> simp [unchanged]
  | copyInput =>
    rw [perform, copy]
    cases s.clipboard w.input <;> simp [unchanged]
  | copyOutput =>
    rw [perform, copy]
    cases s.clipboard w.output <;> simp [unchanged]

/-- **A dropped operation leaves nothing behind but the status line.** -/
theorem exists_note_of_dropped {w : Workspace} {s : Surroundings} {operation : Operation}
    (h : (w.perform s operation).outcome = .dropped) :
    ∃ job, (w.perform s operation).workspace = w.note (.waiting job) ∧
      w.notice? s operation = some (.waiting job) := by
  obtain ⟨job, rfl, hdeclines, hnone⟩ := outcome_eq_dropped_iff.mp h
  refine ⟨job, ?_, ?_⟩
  · rw [perform, workspace_take_assist, if_neg hdeclines, hnone]
    rfl
  · rw [notice?, if_neg hdeclines, hnone]
    rfl

theorem status_judged_ne_loading {operation : Operation} (hchecks : operation.checks = true)
    (w : Workspace) (verdict : Option Diagnosis) :
    (w.judged operation verdict).notice.status ≠ .loading := by
  show (w.judged operation verdict).status ≠ .loading
  rw [status_judged_eq w hchecks]
  split <;> exact Status.noConfusion

/-- Every other operation that sets the status line settles it. -/
theorem status_ne_loading_of_notice? {w : Workspace} {s : Surroundings} {operation : Operation}
    {notice : Notice} (hset : w.notice? s operation = some notice)
    (h : (w.perform s operation).outcome ≠ .dropped) : notice.status ≠ .loading := by
  cases operation with
  | assist job =>
    rw [notice?] at hset
    split at hset
    · cases hset
    · rename_i hdeclines
      obtain rfl := Option.some.inj hset
      rcases ha : s.assistant job (w.document job) with _ | _ | result
      · exact absurd (outcome_eq_dropped_iff.mpr ⟨job, rfl, hdeclines, ha⟩) h
      · exact Status.noConfusion
      · cases job <;> exact Status.noConfusion
  | validate | format | minify =>
    rw [notice?] at hset
    · split at hset
      · obtain rfl := Option.some.inj hset
        exact status_judged_ne_loading rfl w _
      · cases hset
    · exact fun _ => Operation.noConfusion
  | _ => cases hset

/-! ## Sessions -/

/-- **A session without its dropped operations comes to the same**, but for the status line,
whatever the status line is at its beginning. -/
theorem hushed_session_kept (w : Workspace) (notice : Notice)
    (operations : List (Surroundings × Operation)) :
    ((w.note notice).session (w.kept operations)).map Turn.hushed =
      ((w.session operations).filter (·.outcome ≠ .dropped)).map Turn.hushed := by
  induction operations generalizing w notice with
  | nil => rfl
  | cons head rest ih =>
    obtain ⟨s, operation⟩ := head
    rw [kept, session]
    by_cases h : (w.perform s operation).outcome = .dropped
    · obtain ⟨job, hworkspace, _⟩ := exists_note_of_dropped h
      have hnote : w.note notice = (w.perform s operation).workspace.note notice := by
        rw [hworkspace]
        rfl
      rw [if_pos h, List.filter_cons_of_neg (by simpa using h), hnote, ih]
    · rw [if_neg h, List.filter_cons_of_pos (by simpa using h), session, perform_note,
        List.map_cons, List.map_cons]
      exact congrArg (_ :: ·) (ih _ _)

/-- **The status line is what it was set to last.** -/
theorem notice_after (w : Workspace) (operations : List (Surroundings × Operation)) :
    (w.after operations).notice = (w.notices operations).getLast?.getD w.notice :=
  component_after notice_perform w operations

/-- **Without the dropped operations, the status line is what the others have set it to
last**, and the rest of the workspace is the same. -/
theorem after_kept (w : Workspace) (notice : Notice)
    (operations : List (Surroundings × Operation)) :
    (w.note notice).after (w.kept operations) =
      (w.after operations).note
        (((w.notices operations).filter (·.status ≠ .loading)).getLast?.getD notice) := by
  induction operations generalizing w notice with
  | nil => rfl
  | cons head rest ih =>
    obtain ⟨s, operation⟩ := head
    rw [kept, notices_cons, List.filter_append, List.getLast?_append]
    show _ = ((w.perform s operation).workspace.after rest).note _
    by_cases h : (w.perform s operation).outcome = .dropped
    · obtain ⟨job, hworkspace, hset⟩ := exists_note_of_dropped h
      have hnote : w.note notice = (w.perform s operation).workspace.note notice := by
        rw [hworkspace]
        rfl
      have hwaiting : (some (Notice.waiting job)).toList.filter (·.status ≠ .loading) = [] := rfl
      rw [if_pos h, hnote, ih, hset, hwaiting, List.getLast?_nil, Option.or_none]
    · have hkeep : (w.notice? s operation).toList.filter (·.status ≠ .loading) =
          (w.notice? s operation).toList := by
        refine List.filter_eq_self.mpr fun n hn => ?_
        simpa using status_ne_loading_of_notice? (Option.mem_toList.mp hn) h
      rw [if_neg h, hkeep]
      show ((w.note notice).perform s operation).workspace.after _ = _
      rw [perform_note]
      show ((w.perform s operation).workspace.note _).after _ = _
      rw [ih]
      cases ((w.perform s operation).workspace.notices rest).filter (·.status ≠ .loading)
        |>.getLast? <;> cases w.notice? s operation <;> rfl

/-- **The desk waits exactly when the last operation that set the status line was dropped.** -/
theorem isBusy_after_iff {w : Workspace} (hw : w.isBusy = false)
    {operations : List (Surroundings × Operation)} :
    (w.after operations).isBusy = true ↔
      ∃ before s operation later, operations = before ++ (s, operation) :: later ∧
        ((w.after before).perform s operation).outcome = .dropped ∧
        ((w.after before).perform s operation).workspace.notices later = [] := by
  rw [isBusy, status, beq_iff_eq, notice_after]
  constructor
  · intro h
    cases hlast : (w.notices operations).getLast? with
    | none =>
      rw [hlast] at h
      exact absurd h (by simpa [isBusy, status] using hw)
    | some notice =>
      rw [hlast] at h
      obtain ⟨before, s, operation, later, hsplit, hset, hrest⟩ := exists_of_getLast?_history hlast
      refine ⟨before, s, operation, later, hsplit, ?_, hrest⟩
      exact Decidable.not_not.mp fun hdropped => status_ne_loading_of_notice? hset hdropped h
  · rintro ⟨before, s, operation, later, rfl, hdropped, hrest⟩
    obtain ⟨job, _, hset⟩ := exists_note_of_dropped hdropped
    rw [notices] at hrest ⊢
    rw [history_append, history, hset, hrest]
    simp [Notice.status]

/-- An operation that is not dropped does not leave the desk waiting, unless it finds it
waiting and leaves the status line alone. -/
theorem isBusy_perform {w : Workspace} {s : Surroundings} {operation : Operation}
    (hset : w.isBusy = false ∨ (w.notice? s operation).isSome = true)
    (h : (w.perform s operation).outcome ≠ .dropped) :
    (w.perform s operation).workspace.isBusy = false := by
  rw [isBusy, status, notice_perform, beq_eq_false_iff_ne]
  cases hnotice : w.notice? s operation with
  | some notice => exact status_ne_loading_of_notice? hnotice h
  | none => simpa [hnotice, isBusy, status] using hset

/-- **Where no operation is dropped, the desk never waits.** -/
theorem isBusy_of_forall_session {w : Workspace} {operations : List (Surroundings × Operation)}
    (hw : w.isBusy = false) (h : ∀ turn ∈ w.session operations, turn.outcome ≠ .dropped) :
    (w.after operations).isBusy = false ∧
      ∀ turn ∈ w.session operations, turn.workspace.isBusy = false := by
  induction operations generalizing w with
  | nil => exact ⟨hw, fun turn hturn => by cases hturn⟩
  | cons head rest ih =>
    obtain ⟨s, operation⟩ := head
    rw [session, List.forall_mem_cons] at h ⊢
    have hfirst := isBusy_perform (.inl hw) h.1
    exact ⟨(ih hfirst h.2).1, hfirst, (ih hfirst h.2).2⟩

/-- As long as the desk does not wait, nothing shows that an operation was dropped. -/
theorem after_kept_of_not_isBusy {w : Workspace} {operations : List (Surroundings × Operation)}
    (h : (w.after operations).isBusy = false) :
    w.after (w.kept operations) = w.after operations := by
  have hstatus : (w.after operations).notice.status ≠ .loading := by
    simpa [isBusy, status] using h
  have hkept := after_kept w w.notice operations
  rw [note_notice] at hkept
  rw [hkept]
  have hlast : ((w.notices operations).filter (·.status ≠ .loading)).getLast?.getD w.notice =
      (w.after operations).notice := by
    rw [notice_after] at hstatus ⊢
    rcases List.eq_nil_or_concat (w.notices operations) with hnil | ⟨init, notice, hconcat⟩
    · rw [hnil]
      rfl
    · rw [hconcat, List.concat_eq_append, List.getLast?_concat] at hstatus ⊢
      have hnotice : notice.status ≠ .loading := hstatus
      simp [List.filter_append, hnotice]
  rw [hlast, note_notice]

/-- **Abandoned requests are transparent.**  In every session on a new workspace, the turns
of the operations that are not dropped are, but for the status line, those of the session
without the dropped ones; and after an operation has set the status line, the whole
workspace is the same until the next operation is dropped.  The desk waits exactly when the
last operation to set the status line was dropped, and so never if none is. -/
theorem abandoned_requests_transparent (operations : List (Surroundings × Operation)) :
    let w : Workspace := {}
    (w.session (w.kept operations)).map Turn.hushed =
        ((w.session operations).filter (·.outcome ≠ .dropped)).map Turn.hushed ∧
      (∀ before s operation later, operations = before ++ (s, operation) :: later →
        ((w.after before).notice? s operation).isSome = true →
        (∀ turn ∈ (w.after before).session ((s, operation) :: later), turn.outcome ≠ .dropped) →
          w.after (w.kept operations) = w.after operations) ∧
      ((w.after operations).isBusy = true ↔
        ∃ before s operation later, operations = before ++ (s, operation) :: later ∧
          ((w.after before).perform s operation).outcome = .dropped ∧
          ((w.after before).perform s operation).workspace.notices later = []) ∧
      ((∀ turn ∈ w.session operations, turn.outcome ≠ .dropped) →
        ∀ turn ∈ w.session operations, turn.workspace.isBusy = false) := by
  intro w
  have hw : w.isBusy = false := rfl
  refine ⟨hushed_session_kept w w.notice operations, ?_, isBusy_after_iff hw,
    fun h => (isBusy_of_forall_session hw h).2⟩
  rintro before s operation later rfl hset hdropped
  rw [session, List.forall_mem_cons] at hdropped
  have hbusy := isBusy_of_forall_session (isBusy_perform (.inr hset) hdropped.1) hdropped.2
  refine after_kept_of_not_isBusy ?_
  rw [after_append]
  exact hbusy.1

/-- A repair is dropped; after the next check nothing shows of it. -/
theorem abandoned_requests_transparent_repair :
    let w : Workspace := {}
    let s := obliging ""
    let before := [(s, .setInput "<a>"), ({ s with assistant := fun _ _ => none }, .assist .repair),
      (s, .setInput "<b/>")]
    let operations := before ++ (s, .validate) :: [(s, .copyInput)]
    (w.after before).isBusy = true ∧
      ((w.after before).notice? s .validate).isSome = true ∧
      (∀ turn ∈ (w.after before).session [(s, .validate), (s, .copyInput)],
        turn.outcome ≠ .dropped) ∧
      w.after (w.kept operations) = w.after operations := by
  intro w s before operations
  have hset : ((w.after before).notice? s .validate).isSome = true := by decide +kernel
  have hdropped : ∀ turn ∈ (w.after before).session [(s, .validate), (s, .copyInput)],
      turn.outcome ≠ .dropped := by decide +kernel
  exact ⟨by decide +kernel, hset, hdropped,
    (abandoned_requests_transparent operations).2.1 before s .validate _ rfl hset hdropped⟩

end Workspace
end MarkupDesk
