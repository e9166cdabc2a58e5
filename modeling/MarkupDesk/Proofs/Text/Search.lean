import MarkupDesk.Text.Search

/-!
# Words and runs in a text

What is found behind a word at the front of a text, or in front of one at its end, is the text
without this word (`after?_eq_some_iff`, `before?_eq_some_iff`).  A word at the front is the
first to be removed (`removeFirst_append_self`), and where the word does not occur nothing is
removed (`removeFirst_eq_self`).  A run of characters of one kind ends with the first character
of another kind (`takeWhile_dropWhile_run`).
-/
namespace MarkupDesk.Text

theorem after?_cons_cons (c d : Char) (word s : List Char) :
    after? (c :: word) (d :: s) = if c == d then after? word s else none := rfl

theorem after?_eq_some_iff {word s rest : List Char} :
    after? word s = some rest ↔ s = word ++ rest := by
  induction word generalizing s with
  | nil =>
    show some s = some rest ↔ s = [] ++ rest
    rw [Option.some_inj, List.nil_append]
  | cons c word ih =>
    cases s with
    | nil =>
      show none = some rest ↔ [] = c :: word ++ rest
      simp
    | cons d s =>
      rw [after?_cons_cons]
      by_cases hcd : c = d
      · subst hcd
        simp [ih]
      · have hdc : ¬ d = c := fun h => hcd h.symm
        simp [hcd, hdc]

theorem after?_append (word rest : List Char) : after? word (word ++ rest) = some rest :=
  after?_eq_some_iff.mpr rfl

theorem before?_eq_map (word s : List Char) :
    before? word s = (after? word.reverse s.reverse).map List.reverse := rfl

theorem before?_eq_some_iff {word s rest : List Char} :
    before? word s = some rest ↔ s = rest ++ word := by
  have hafter : after? word.reverse s.reverse = some rest.reverse ↔ s = rest ++ word := by
    rw [after?_eq_some_iff, ← List.reverse_append, List.reverse_inj]
  rw [before?_eq_map, ← hafter, Option.map_eq_some_iff]
  constructor
  · rintro ⟨tail, htail, rfl⟩
    rw [htail, List.reverse_reverse]
  · intro h
    exact ⟨rest.reverse, h, List.reverse_reverse rest⟩

theorem before?_append (rest word : List Char) : before? word (rest ++ word) = some rest :=
  before?_eq_some_iff.mpr rfl

/-! ## The first occurrence of a word -/

theorem removeFirst_append_self {word : List Char} (hword : word ≠ []) (rest : List Char) :
    removeFirst word (word ++ rest) = rest := by
  obtain ⟨c, tail, rfl⟩ := List.exists_cons_of_ne_nil hword
  rw [List.cons_append, removeFirst, ← List.cons_append, after?_append]

/-- A word that does not occur is not removed. -/
theorem removeFirst_eq_self {word s : List Char} (h : ¬ word <:+: s) : removeFirst word s = s := by
  induction s with
  | nil => rfl
  | cons c s ih =>
    have hrest : ¬ word <:+: s := fun hs => h (hs.trans (List.suffix_cons c s).isInfix)
    have hfront : after? word (c :: s) = none := by
      rw [Option.eq_none_iff_forall_ne_some]
      intro rest hrest
      rw [after?_eq_some_iff.mp hrest] at h
      exact h (List.prefix_append word rest).isInfix
    rw [removeFirst, hfront]
    exact congrArg (c :: ·) (ih hrest)

/-- A word is not found where its first character does not occur. -/
theorem removeFirst_append {first : Char} (word : List Char) {before : List Char}
    (h : first ∉ before) (rest : List Char) :
    removeFirst (first :: word) (before ++ rest) = before ++ removeFirst (first :: word) rest := by
  induction before with
  | nil => rfl
  | cons c before ih =>
    obtain ⟨hc, hbefore⟩ := List.ne_and_not_mem_of_not_mem_cons h
    have hfirst : after? (first :: word) (c :: (before ++ rest)) = none :=
      if_neg (by simpa using hc)
    rw [List.cons_append, removeFirst, hfirst, ih hbefore]
    rfl

/-! ## Runs -/

/-- A run that nothing of its kind follows is what is taken from the front of a text. -/
theorem takeWhile_dropWhile_run {p : Char → Bool} {run rest : List Char}
    (hrun : ∀ c ∈ run, p c = true) (hrest : ∀ c ∈ rest.head?, p c = false) :
    (run ++ rest).takeWhile p = run ∧ (run ++ rest).dropWhile p = rest := by
  rw [List.takeWhile_append_of_pos hrun, List.dropWhile_append_of_pos hrun]
  cases rest with
  | nil => simp
  | cons c rest => simp [hrest c rfl]

end MarkupDesk.Text
