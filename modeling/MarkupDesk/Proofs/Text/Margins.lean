/-!
# How far the lines of a text are indented

A line of a text begins at its front or after a line end, a carriage return and a line feed.
The **margin** of a line is the number of spaces at its beginning, and `margins` are those of
all lines, in order.

Lines that follow one another keep their margins (`margins_append_lineEnd`).  What is written
in the middle of a line does not show in any margin, as long as it begins with a character
that is no space and has no line end in it (`laterMargins_append_cons`,
`laterMargins_append_of_not_mem`).
-/
namespace MarkupDesk.Text

/-- The number of spaces at the beginning of a text. -/
def margin (s : List Char) : Nat := (s.takeWhile (· == ' ')).length

/-- The margins of the lines after the first one. -/
def laterMargins : List Char → List Nat
  | [] => []
  | c :: rest =>
    if c = '\r' ∧ rest.head? = some '\n' then margin (rest.drop 1) :: laterMargins rest
    else laterMargins rest

/-- The margins of the lines of a text. -/
def margins (s : List Char) : List Nat := margin s :: laterMargins s

example : margins "a\r\n  b\r\n\r\n c\n d".toList = [0, 2, 0, 1] := by decide

/-! ## One line -/

theorem margin_append_cons {c : Char} (hc : c ≠ ' ') (s t : List Char) :
    margin (s ++ c :: t) = margin s := by
  induction s with
  | nil => simp [margin, hc]
  | cons d s ih =>
    unfold margin at ih ⊢
    by_cases hd : d = ' ' <;> simp [hd, ih]

theorem margin_replicate_append_cons {c : Char} (hc : c ≠ ' ') (n : Nat) (s : List Char) :
    margin (List.replicate n ' ' ++ c :: s) = n := by
  rw [margin_append_cons hc, margin, List.takeWhile_replicate]
  simp

/-! ## The lines after the first one -/

theorem laterMargins_cons_of_ne {c : Char} (hc : c ≠ '\r') (s : List Char) :
    laterMargins (c :: s) = laterMargins s :=
  if_neg fun h => hc h.1

theorem laterMargins_lineEnd (s : List Char) :
    laterMargins ('\r' :: '\n' :: s) = margins s := by
  rw [laterMargins, if_pos ⟨rfl, rfl⟩, laterMargins_cons_of_ne (by decide)]
  rfl

/-- Without a carriage return no line ends. -/
theorem laterMargins_append_of_not_mem {s : List Char} (h : '\r' ∉ s) (t : List Char) :
    laterMargins (s ++ t) = laterMargins t := by
  induction s with
  | nil => rfl
  | cons c s ih =>
    rw [List.mem_cons, not_or] at h
    rw [List.cons_append, laterMargins_cons_of_ne (Ne.symm h.1), ih h.2]

/-- **A text can be divided before a character that is no space and no line feed**: the line in
which this happens keeps its margin. -/
theorem laterMargins_append_cons {c : Char} (hspace : c ≠ ' ') (hfeed : c ≠ '\n')
    (s t : List Char) : laterMargins (s ++ c :: t) = laterMargins s ++ laterMargins (c :: t) := by
  induction s with
  | nil => rfl
  | cons d s ih =>
    rw [List.cons_append, laterMargins, laterMargins, ih]
    cases s with
    | nil => simp [hfeed]
    | cons e s =>
      -- The line that begins behind `e` reaches `c` at most.
      have hmargin : margin ((e :: s ++ c :: t).drop 1) = margin ((e :: s).drop 1) :=
        margin_append_cons hspace s t
      have hhead : (e :: s ++ c :: t).head? = (e :: s).head? := rfl
      rw [hmargin, hhead]
      split <;> rfl

/-! ## Lines one after the other -/

/-- **Lines keep their margins when other lines follow.** -/
theorem margins_append_lineEnd (s t : List Char) :
    margins (s ++ '\r' :: '\n' :: t) = margins s ++ margins t := by
  rw [margins, margin_append_cons (by decide), laterMargins_append_cons (by decide) (by decide),
    laterMargins_lineEnd]
  rfl

theorem margins_flatMap_lineEnd (rows : List (List Char)) :
    margins (rows.flatMap (· ++ ['\r', '\n'])) = rows.flatMap margins ++ [0] := by
  induction rows with
  | nil => rfl
  | cons row rows ih =>
    rw [List.flatMap_cons, List.append_assoc, List.cons_append, List.singleton_append,
      margins_append_lineEnd, ih, List.flatMap_cons, List.append_assoc]

end MarkupDesk.Text
