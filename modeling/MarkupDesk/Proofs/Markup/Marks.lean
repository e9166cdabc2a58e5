import MarkupDesk.Proofs.Markup.Forest
import MarkupDesk.Proofs.Markup.Section
import Mathlib.Algebra.Ring.Int.Defs

/-!
# Marks and rows

Text may stand after every tag, and a `>` may stand in a tag or in a text.  A *mark* is a
tag with the text after it.  The formatter begins a new line between two marks exactly when
the first one ends in a `>`, be it that of the tag or one of the text (`Mark.Closed`).  So the
lines of a document are its *rows*, the marks up to the next closed one (`rows`).

What a line does to the depth is read off its text (`inner`), and this need not be what its
tags do to the nesting.  `shift` says of each row how the formatter takes it: only a row that
begins with an end tag goes further out, and only a row of one mark can go further in
(`shift_kind_inner`).
-/
namespace MarkupDesk.Markup

open Text

namespace Chars

/-! ## Boundaries before a bracket -/

theorem opensAfterBlanks_append_lt_iff {s : List Char} (h : '<' ∉ s) (t : List Char) :
    opensAfterBlanks (s ++ '<' :: t) = true ↔ visible s = [] := by
  induction s with
  | nil => simp
  | cons c s ih =>
    rw [List.mem_cons, not_or] at h
    by_cases hc : isBlank c = true
    · rw [visible_cons_of_blank hc, ← ih h.2]
      simp [opensAfterBlanks, List.dropWhile_cons_of_pos hc]
    · have hne : c ≠ '<' := fun he => h.1 he.symm
      rw [visible_cons_of_not_blank (Bool.not_eq_true _ ▸ hc)]
      simp [opensAfterBlanks, List.dropWhile_cons_of_neg hc, hne]

/-- In front of a `<`, it is the last visible character that makes a boundary. -/
theorem hasBoundary_append_lt_iff {s : List Char} (h : '<' ∉ s) (t : List Char) :
    HasBoundary (s ++ '<' :: t) ↔ (visible s).getLast? = some '>' ∨ HasBoundary t := by
  induction s with
  | nil => simp [hasBoundary_lt_cons_iff]
  | cons c s ih =>
    rw [List.mem_cons, not_or] at h
    rw [List.cons_append, hasBoundary_cons_iff, ih h.2, opensAfterBlanks_append_lt_iff h.2,
      ← or_assoc]
    refine or_congr_left ?_
    by_cases hc : isBlank c = true
    · have hne : c ≠ '>' := by rintro rfl; simp at hc
      rw [visible_cons_of_blank hc]
      exact or_iff_right fun he => hne he.1
    · rw [visible_cons_of_not_blank (Bool.not_eq_true _ ▸ hc)]
      rcases List.eq_nil_or_concat (visible s) with hs | ⟨init, d, hs⟩
      · simp [hs]
      · rw [hs, List.concat_eq_append, ← List.cons_append, List.getLast?_concat,
          List.getLast?_concat]
        simp

end Chars

open Chars

/-! ## Marks -/

/-- The three roles of a tag. -/
inductive Role where
  | start
  | finish
  | empty
  deriving DecidableEq, Repr

/-- What a tag in this role does to the nesting. -/
def Role.nesting : Role → Int
  | start => 1
  | finish => -1
  | empty => 0

/-- A tag and the text after it.  The label is what the tag says besides its brackets and
its slash. -/
structure Mark where
  role : Role
  label : List Char
  text : List Char
  startsWord : StartsWord label
  label_lt : '<' ∉ label
  label_end : ∀ c ∈ label.getLast?, c ≠ '/' ∧ c ≠ '>'
  text_lt : '<' ∉ text

namespace Mark

/-- What the tag has between its brackets. -/
def inside (m : Mark) : List Char :=
  match m.role with
  | .start => m.label
  | .finish => '/' :: m.label
  | .empty => m.label ++ ['/']

/-- The characters of the tag and of the text. -/
def chars (m : Mark) : List Char := bracket m.inside ++ m.text

/-- The last visible character of the mark is a `>`. -/
def Closed (m : Mark) : Prop := (visible m.chars).getLast? = some '>'

instance : DecidablePred Closed :=
  fun m => inferInstanceAs (Decidable ((visible m.chars).getLast? = some '>'))

/-- Alone in a line, the mark is taken for a start tag: there is no `>` in its label, and
after its tag nothing but a `>`, or after a start tag nothing at all. -/
def LooksOpen (m : Mark) : Prop :=
  '>' ∉ m.label ∧ (trimEnd m.text = ['>'] ∨ m.role = .start ∧ trimEnd m.text = [])

instance : DecidablePred LooksOpen := fun m =>
  inferInstanceAs (Decidable (_ ∧ (trimEnd m.text = ['>'] ∨ m.role = .start ∧ trimEnd m.text = [])))

/-- The characters of the mark without the first bracket. -/
theorem exists_chars (m : Mark) : ∃ s, m.chars = '<' :: s ∧ '<' ∉ s ∧
    (m.Closed ↔ (visible s).getLast? = some '>') := by
  have hinside : '<' ∉ m.inside := by
    unfold inside
    cases m.role <;> simp [m.label_lt]
  refine ⟨m.inside ++ '>' :: m.text, by simp [chars, bracket], by simp [hinside, m.text_lt], ?_⟩
  have hvisible : visible m.chars = '<' :: visible (m.inside ++ '>' :: m.text) := by
    rw [← visible_cons_of_not_blank isBlank_lt]
    simp [chars, bracket]
  rw [Closed, hvisible, visible_append, visible_cons_of_not_blank isBlank_gt, ← List.cons_append,
    List.getLast?_append, List.getLast?_append, List.getLast?_cons, Option.some_or,
    Option.some_or]

end Mark

/-- The characters of these marks. -/
def charsOf (marks : List Mark) : List Char := marks.flatMap Mark.chars

/-- What the tags of these marks do to the nesting. -/
def nesting (marks : List Mark) : Int := (marks.map fun m => m.role.nesting).sum

@[simp] theorem nesting_nil : nesting [] = 0 := rfl

@[simp] theorem nesting_cons (m : Mark) (ms : List Mark) :
    nesting (m :: ms) = m.role.nesting + nesting ms := by
  simp [nesting]

@[simp] theorem nesting_append (ms ms' : List Mark) :
    nesting (ms ++ ms') = nesting ms + nesting ms' := by
  simp [nesting]

@[simp] theorem charsOf_nil : charsOf [] = [] := rfl

@[simp] theorem charsOf_cons (m : Mark) (ms : List Mark) :
    charsOf (m :: ms) = m.chars ++ charsOf ms := rfl

@[simp] theorem charsOf_append (ms ms' : List Mark) :
    charsOf (ms ++ ms') = charsOf ms ++ charsOf ms' :=
  List.flatMap_append ..

/-! ## Rows -/

/-- The marks, cut after each one that is closed. -/
def rows : List Mark → List (List Mark)
  | [] => []
  | m :: ms => if m.Closed then [m] :: rows ms else (m :: (rows ms).headD []) :: (rows ms).tail

/-- The last of these marks is closed, if there is one. -/
def Whole (marks : List Mark) : Prop := ∀ m ∈ marks.getLast?, m.Closed

/-- The marks are those of one line. -/
inductive IsRow : List Mark → Prop
  | last (m : Mark) (h : m.Closed) : IsRow [m]
  | more (m : Mark) (h : ¬ m.Closed) {row : List Mark} (hrow : IsRow row) : IsRow (m :: row)

theorem rows_eq_nil_iff {marks : List Mark} : rows marks = [] ↔ marks = [] := by
  cases marks with
  | nil => simp [rows]
  | cons m ms =>
    rw [rows]
    split <;> simp

theorem headD_cons_tail_rows {marks : List Mark} (h : marks ≠ []) :
    (rows marks).headD [] :: (rows marks).tail = rows marks := by
  obtain ⟨r, rs, hrows⟩ := List.exists_cons_of_ne_nil (mt rows_eq_nil_iff.mp h)
  rw [hrows]
  rfl

@[simp] theorem flatten_rows (marks : List Mark) : (rows marks).flatten = marks := by
  induction marks with
  | nil => rfl
  | cons m ms ih =>
    rw [rows]
    split
    · rw [List.flatten_cons, ih, List.singleton_append]
    · rcases ms with _ | ⟨next, ms⟩
      · rfl
      · rw [← headD_cons_tail_rows (List.cons_ne_nil next ms), List.flatten_cons] at ih
        rw [List.flatten_cons, List.cons_append, ih]

theorem Whole.tail {m : Mark} {ms : List Mark} (h : Whole (m :: ms)) : Whole ms := by
  intro last hlast
  refine h last ?_
  rw [List.getLast?_cons, Option.mem_def.mp hlast]
  rfl

/-- A mark that is not closed is not the last one. -/
theorem Whole.tail_ne_nil {m : Mark} {ms : List Mark} (h : Whole (m :: ms)) (hm : ¬ m.Closed) :
    ms ≠ [] := by
  rintro rfl
  exact hm (h m rfl)

theorem rows_append {marks : List Mark} (h : Whole marks) (rest : List Mark) :
    rows (marks ++ rest) = rows marks ++ rows rest := by
  induction marks with
  | nil => rfl
  | cons m ms ih =>
    rw [List.cons_append, rows, rows, ih h.tail]
    split
    · rfl
    · rename_i hm
      obtain ⟨r, rs, hrows⟩ := List.exists_cons_of_ne_nil (mt rows_eq_nil_iff.mp (h.tail_ne_nil hm))
      rw [hrows]
      rfl

theorem isRow_of_mem_rows {marks : List Mark} (h : Whole marks) : ∀ r ∈ rows marks, IsRow r := by
  induction marks with
  | nil => simp [rows]
  | cons m ms ih =>
    rw [rows]
    split
    · rename_i hm
      exact List.forall_mem_cons.mpr ⟨.last m hm, ih h.tail⟩
    · rename_i hm
      have hrows := ih h.tail
      rw [← headD_cons_tail_rows (h.tail_ne_nil hm), List.forall_mem_cons] at hrows
      exact List.forall_mem_cons.mpr ⟨.more m hm hrows.1, hrows.2⟩

/-! ## The text of a row -/

/-- The characters of these marks without their outermost brackets and without blanks after
them. -/
def inner (marks : List Mark) : List Char := ((trimEnd (charsOf marks)).drop 1).dropLast

theorem inner_cons (m : Mark) (ms : List Mark) :
    inner (m :: ms) = m.inside ++ ('>' :: trimEnd (m.text ++ charsOf ms)).dropLast := by
  have hgt : ¬ EndsBlank (bracket m.inside) := not_endsBlank_append_gt ('<' :: m.inside)
  rw [inner, charsOf_cons, Mark.chars, List.append_assoc, trimEnd_append_of_not_endsBlank hgt,
    bracket, List.cons_append, List.drop_one, List.tail_cons, List.append_assoc,
    List.singleton_append, List.dropLast_append_of_ne_nil (List.cons_ne_nil _ _)]

namespace IsRow

variable {row : List Mark}

theorem exists_charsOf (h : IsRow row) : ∃ s, charsOf row = '<' :: s := by
  cases h <;> exact ⟨_, rfl⟩

theorem getLast?_visible (h : IsRow row) : (visible (charsOf row)).getLast? = some '>' := by
  induction h with
  | last m hm => rwa [charsOf_cons, charsOf_nil, List.append_nil]
  | more m _ _ ih =>
    rw [charsOf_cons, visible_append, List.getLast?_append, ih]
    rfl

theorem not_hasBoundary (h : IsRow row) : ¬ HasBoundary (charsOf row) := by
  induction h with
  | last m _ =>
    obtain ⟨s, hchars, hlt, _⟩ := m.exists_chars
    rw [charsOf_cons, charsOf_nil, List.append_nil, hchars, hasBoundary_lt_cons_iff]
    exact not_hasBoundary_of_lt_not_mem hlt
  | more m hm hrow ih =>
    obtain ⟨s, hchars, hlt, hclosed⟩ := m.exists_chars
    obtain ⟨t, ht⟩ := hrow.exists_charsOf
    rw [ht, hasBoundary_lt_cons_iff] at ih
    rw [charsOf_cons, ht, hchars, List.cons_append, hasBoundary_lt_cons_iff,
      hasBoundary_append_lt_iff hlt, not_or]
    exact ⟨mt hclosed.mpr hm, ih⟩

/-- The characters of a row are its text in brackets, with blanks after them. -/
theorem exists_bracket (h : IsRow row) :
    ∃ e, e.all isBlank = true ∧ charsOf row = bracket (inner row) ++ e := by
  obtain ⟨e, he, hchars⟩ := exists_trimEnd (charsOf row)
  obtain ⟨s, hs⟩ := h.exists_charsOf
  have hlast : (trimEnd (charsOf row)).getLast? = some '>' := by
    rw [getLast?_trimEnd, h.getLast?_visible]
  obtain ⟨init, hinit⟩ := List.getLast?_eq_some_iff.mp hlast
  refine ⟨e, he, ?_⟩
  rw [hinit] at hchars
  cases init with
  | nil =>
    -- The first bracket cannot be the last one.
    rw [hs] at hchars
    exact absurd (List.head_eq_of_cons_eq hchars) (by decide)
  | cons c init =>
    rw [hs] at hchars
    obtain rfl : '<' = c := List.head_eq_of_cons_eq hchars
    have hinner : inner row = init := by
      rw [inner, hinit, List.cons_append, List.drop_one, List.tail_cons, List.dropLast_concat]
    rw [hinner, hs, hchars, bracket]
    rfl

theorem not_hasBoundary_inner (h : IsRow row) : ¬ HasBoundary (inner row) := by
  obtain ⟨e, _, hchars⟩ := h.exists_bracket
  refine fun hb => h.not_hasBoundary (hb.of_isInfix ⟨['<'], '>' :: e, ?_⟩)
  rw [hchars, bracket]
  simp

/-- A mark in front of a row comes with its whole text. -/
theorem inner_cons (m : Mark) (h : IsRow row) :
    inner (m :: row) = m.inside ++ '>' :: (m.text ++ '<' :: inner row) := by
  obtain ⟨e, he, hchars⟩ := h.exists_bracket
  have hsplit : m.text ++ charsOf row = m.text ++ '<' :: inner row ++ ['>'] ++ e := by
    rw [hchars, bracket]
    simp
  have htrim : trimEnd (m.text ++ charsOf row) = m.text ++ '<' :: inner row ++ ['>'] := by
    rw [hsplit, trimEnd_append_of_blank he, trimEnd_eq_self (not_endsBlank_append_gt _)]
  rw [Markup.inner_cons, htrim, ← List.cons_append, List.dropLast_concat]

end IsRow

/-! ## What a row is taken for -/

/-- What a tag of this kind does to the depth. -/
def Kind.shift : Kind → Int
  | opening => 1
  | closing => -1
  | _ => 0

/-- What the line of a row does to the depth. -/
def shift : List Mark → Int
  | [] => 0
  | m :: ms =>
    if m.role = .finish then -1 else if ms.isEmpty = true ∧ m.LooksOpen then 1 else 0

namespace Mark

variable {m : Mark}

theorem startsWord_inside_append (h : m.role ≠ .finish) (s : List Char) :
    StartsWord (m.inside ++ s) := by
  refine StartsWord.append ?_ s
  unfold inside
  cases hrole : m.role with
  | start => exact m.startsWord
  | finish => exact absurd hrole h
  | empty => exact m.startsWord.append _

theorem closes_inside_append (h : m.role = .finish) (s : List Char) :
    closes (m.inside ++ s) = true := by
  obtain ⟨c, rest, hlabel, hword⟩ := m.startsWord.exists_cons
  unfold inside
  rw [h, hlabel]
  exact hword

theorem gt_mem_inside_iff : '>' ∈ m.inside ↔ '>' ∈ m.label := by
  unfold inside
  cases m.role <;> simp

/-- A mark that is closed ends in its own bracket, or in a `>` of its text. -/
theorem Closed.trimEnd_text (h : m.Closed) :
    trimEnd m.text = [] ∨ ∃ init, trimEnd m.text = init ++ ['>'] := by
  rw [Closed, chars, visible_append, List.getLast?_append, ← getLast?_trimEnd m.text] at h
  rcases List.eq_nil_or_concat (trimEnd m.text) with htext | ⟨init, c, htext⟩
  · exact .inl htext
  · rw [List.concat_eq_append] at htext
    rw [htext, List.getLast?_concat, Option.some_or] at h
    exact .inr ⟨init, by rw [htext, Option.some.inj h]⟩

theorem inner_singleton (m : Mark) : inner [m] = m.inside ++ ('>' :: trimEnd m.text).dropLast := by
  rw [inner_cons, charsOf_nil, List.append_nil]

theorem gt_not_mem_dropLast_label_iff : '>' ∉ m.label.dropLast ↔ '>' ∉ m.label := by
  rcases List.eq_nil_or_concat m.label with h | ⟨init, c, h⟩
  · rw [h]; rfl
  · rw [List.concat_eq_append] at h
    have hne : '>' ≠ c := fun hc => (m.label_end c (by rw [h, List.getLast?_concat]; rfl)).2 hc.symm
    rw [h, List.dropLast_concat, List.mem_append, List.mem_singleton, not_or]
    exact (and_iff_left hne).symm

theorem opens_inner_singleton_iff (hrole : m.role ≠ .finish) (h : m.Closed) :
    opens (inner [m]) = true ↔ m.LooksOpen := by
  have hword := m.startsWord_inside_append hrole
  rw [inner_singleton, LooksOpen]
  -- Either the tag ends the row, or a `>` of the text does.
  rcases h.trimEnd_text with htext | ⟨init, htext⟩
  · rw [htext, List.dropLast_singleton, opens_iff_of_startsWord (hword []), List.append_nil]
    unfold inside
    cases hr : m.role with
    | start =>
      have hslash : m.label.getLast? ≠ some '/' := fun h => (m.label_end _ h).1 rfl
      simp [hslash, gt_not_mem_dropLast_label_iff]
    | finish => exact absurd hr hrole
    | empty => simp
  · rw [htext, ← List.cons_append, List.dropLast_concat]
    cases init with
    | nil =>
      rw [opens_iff_of_startsWord (hword _), List.getLast?_concat, List.dropLast_concat,
        gt_mem_inside_iff]
      simp
    -- With more text in between, the bracket of the tag stands inside.
    | cons c init =>
      rw [not_opens_append_gt (hword _) (List.cons_ne_nil _ _)]
      simp

end Mark

/-- A row is taken for an end tag exactly when it begins with one. -/
theorem kind_inner_eq_closing_iff {m : Mark} {ms : List Mark} :
    kind (inner (m :: ms)) = .closing ↔ m.role = .finish := by
  rw [inner_cons]
  constructor
  · intro hkind
    refine Decidable.byContradiction fun hrole => ?_
    rw [kind_of_startsWord (m.startsWord_inside_append hrole _)] at hkind
    split at hkind
    · cases hkind
    · split at hkind <;> cases hkind
  · intro hrole
    exact kind_eq_closing_iff.mpr (m.closes_inside_append hrole _)

/-- A row is taken for a start tag exactly when it is a single mark that looks like one. -/
theorem opens_inner_iff {m : Mark} {ms : List Mark} (h : IsRow (m :: ms))
    (hrole : m.role ≠ .finish) :
    opens (inner (m :: ms)) = true ↔ ms.isEmpty = true ∧ m.LooksOpen := by
  cases h with
  | last _ hm => simp [m.opens_inner_singleton_iff hrole hm]
  -- Further marks put the bracket of the first one inside.
  | more _ _ hrow =>
    rw [hrow.inner_cons, not_opens_append_gt (m.startsWord_inside_append hrole _) (by simp)]
    cases hrow <;> simp

/-- **What the line of a row does to the depth** depends on its first mark, and on whether
this is the only one. -/
theorem shift_kind_inner {row : List Mark} (h : IsRow row) :
    (kind (inner row)).shift = shift row := by
  obtain ⟨m, ms, rfl⟩ := List.exists_cons_of_ne_nil (l := row) (by rintro rfl; cases h)
  rw [shift]
  by_cases hrole : m.role = .finish
  · rw [if_pos hrole, kind_inner_eq_closing_iff.mpr hrole]
    rfl
  · have hword : StartsWord (inner (m :: ms)) := by
      rw [inner_cons]
      exact m.startsWord_inside_append hrole _
    rw [if_neg hrole, kind_of_startsWord hword]
    simp only [← opens_inner_iff h hrole]
    split
    · rfl
    · split <;> rfl

end MarkupDesk.Markup
