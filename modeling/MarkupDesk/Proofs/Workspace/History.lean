import MarkupDesk.Workspace.Session

/-!
# Histories

A component of the workspace that an operation sets or leaves alone has a history in every
session: what it is set to, in order.  It is worth the last entry of its history
(`component_after`), and the operation that has made this entry is one after which nothing
sets the component any more (`exists_of_getLast?_history`).  What is read off the entries of a
history is a history again (`history_bind`).
-/
namespace MarkupDesk.Workspace

variable {α : Type} (sets : Workspace → Surroundings → Operation → Option α)

/-- What a session sets something to, in order, where `sets` says it of an operation. -/
def history (w : Workspace) : List (Surroundings × Operation) → List α
  | [] => []
  | (s, operation) :: rest =>
    (sets w s operation).toList ++ (w.perform s operation).workspace.history rest

theorem history_append (w : Workspace) (first second : List (Surroundings × Operation)) :
    w.history sets (first ++ second) =
      w.history sets first ++ (w.after first).history sets second := by
  induction first generalizing w with
  | nil => rfl
  | cons head rest ih =>
    rw [List.cons_append, history, ih, history, List.append_assoc]
    rfl

/-- What is read off what a session sets, in order, is read off its history. -/
theorem history_bind {β : Type} (f : α → Option β) (w : Workspace)
    (operations : List (Surroundings × Operation)) :
    w.history (fun w s operation => (sets w s operation).bind f) operations =
      (w.history sets operations).filterMap f := by
  induction operations generalizing w with
  | nil => rfl
  | cons head rest ih =>
    obtain ⟨s, operation⟩ := head
    rw [history, history, List.filterMap_append, ih]
    cases sets w s operation with
    | none => rfl
    | some a => cases h : f a <;> simp [h]

variable {sets}

/-- **A component is worth what it was set to last.** -/
theorem component_after {component : Workspace → α}
    (h : ∀ w s operation, component (w.perform s operation).workspace =
      (sets w s operation).getD (component w))
    (w : Workspace) (operations : List (Surroundings × Operation)) :
    component (w.after operations) = (w.history sets operations).getLast?.getD (component w) := by
  induction operations generalizing w with
  | nil => rfl
  | cons head rest ih =>
    obtain ⟨s, operation⟩ := head
    show component ((w.perform s operation).workspace.after rest) = _
    rw [ih, h, history, List.getLast?_append]
    cases (w.perform s operation).workspace.history sets rest |>.getLast? <;>
      cases sets w s operation <;> rfl

/-- The last entry of a history is made by an operation after which there are no entries. -/
theorem exists_of_getLast?_history {w : Workspace} {operations : List (Surroundings × Operation)}
    {a : α} (h : (w.history sets operations).getLast? = some a) :
    ∃ before s operation later, operations = before ++ (s, operation) :: later ∧
      sets (w.after before) s operation = some a ∧
      ((w.after before).perform s operation).workspace.history sets later = [] := by
  induction operations generalizing w with
  | nil => cases h
  | cons head rest ih =>
    obtain ⟨s, operation⟩ := head
    rw [history, List.getLast?_append] at h
    cases hlater : ((w.perform s operation).workspace.history sets rest).getLast? with
    | none =>
      rw [hlater, Option.none_or] at h
      exact ⟨[], s, operation, rest, rfl, Option.mem_toList.mp (List.mem_of_getLast? h),
        List.getLast?_eq_none_iff.mp hlater⟩
    | some last =>
      rw [hlater, Option.some_or, ← hlater] at h
      obtain ⟨before, s', operation', later, rfl, hset, hrest⟩ := ih h
      exact ⟨(s, operation) :: before, s', operation', later, rfl, hset, hrest⟩

end MarkupDesk.Workspace
