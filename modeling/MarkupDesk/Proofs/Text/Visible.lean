import MarkupDesk.Proofs.Text.Edges

/-!
# Visible characters

What is left of a text without its blanks is its visible part.  Two texts with the same
visible part have corresponding places: a place is determined by what is visible before it,
and it is the only one in its text where this comes before a character that is no blank
(`append_cons_inj`).
-/
namespace MarkupDesk.Text

/-- The characters of a text that are no blanks. -/
def visible (s : List Char) : List Char := s.filter fun c => !isBlank c

@[simp] theorem visible_nil : visible [] = [] := rfl

@[simp] theorem visible_append (s t : List Char) : visible (s ++ t) = visible s ++ visible t :=
  List.filter_append ..

theorem visible_cons_of_blank {c : Char} (hc : isBlank c = true) (s : List Char) :
    visible (c :: s) = visible s :=
  List.filter_cons_of_neg (by simp [hc])

theorem visible_cons_of_not_blank {c : Char} (hc : isBlank c = false) (s : List Char) :
    visible (c :: s) = c :: visible s :=
  List.filter_cons_of_pos (by simp [hc])

theorem visible_eq_nil_iff {s : List Char} : visible s = [] ↔ s.all isBlank = true := by
  simp [visible, List.filter_eq_nil_iff]

theorem visible_dropWhile (s : List Char) : visible (s.dropWhile isBlank) = visible s := by
  have hblank : visible (s.takeWhile isBlank) = [] := visible_eq_nil_iff.mpr List.all_takeWhile
  calc visible (s.dropWhile isBlank)
      = visible (s.takeWhile isBlank) ++ visible (s.dropWhile isBlank) := by
        rw [hblank, List.nil_append]
    _ = visible s := by rw [← visible_append, List.takeWhile_append_dropWhile]

theorem visible_trimEnd (s : List Char) : visible (trimEnd s) = visible s := by
  obtain ⟨e, he, hs⟩ := exists_trimEnd s
  calc visible (trimEnd s)
      = visible (trimEnd s) ++ visible e := by rw [visible_eq_nil_iff.mpr he, List.append_nil]
    _ = visible s := by rw [← visible_append, ← hs]

theorem visible_trim (s : List Char) : visible (trim s) = visible s := by
  rw [trim, visible_trimEnd, trimStart, visible_dropWhile]

/-- A text without blanks at its end ends in its last visible character. -/
theorem getLast?_trimEnd (s : List Char) : (trimEnd s).getLast? = (visible s).getLast? := by
  rw [← visible_trimEnd]
  rcases List.eq_nil_or_concat (trimEnd s) with h | ⟨init, c, h⟩
  · rw [h, visible_nil]
  · rw [List.concat_eq_append] at h
    have hc : isBlank c = false := by
      rw [← Bool.not_eq_true]
      intro hblank
      exact not_endsBlank_trimEnd s ⟨c, by rw [h, List.getLast?_concat]; rfl, hblank⟩
    rw [h, visible_append, visible_cons_of_not_blank hc, visible_nil, List.getLast?_concat,
      List.getLast?_concat]

/-- **What is visible before a character that is no blank determines its place.** -/
theorem append_cons_inj {before before' after after' : List Char} {c d : Char}
    (hc : isBlank c = false) (hd : isBlank d = false)
    (h : before ++ c :: after = before' ++ d :: after')
    (hvisible : visible before = visible before') : before = before' := by
  induction before generalizing before' with
  | nil =>
    cases before' with
    | nil => rfl
    | cons e before' =>
      obtain ⟨rfl, _⟩ := List.cons.inj h
      rw [visible_cons_of_not_blank hc] at hvisible
      cases hvisible
  | cons e before ih =>
    cases before' with
    | nil =>
      obtain ⟨rfl, _⟩ := List.cons.inj h
      rw [visible_cons_of_not_blank hd] at hvisible
      cases hvisible
    | cons f before' =>
      obtain ⟨rfl, htail⟩ := List.cons.inj h
      refine congrArg (e :: ·) (ih htail ?_)
      by_cases he : isBlank e = true
      · rwa [visible_cons_of_blank he, visible_cons_of_blank he] at hvisible
      · rw [Bool.not_eq_true] at he
        rw [visible_cons_of_not_blank he, visible_cons_of_not_blank he] at hvisible
        exact (List.cons.inj hvisible).2

end MarkupDesk.Text
