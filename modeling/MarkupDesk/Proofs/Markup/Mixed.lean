import MarkupDesk.Proofs.Markup.Marks

/-!
# Lines of mixed content

The formatted form of a document consists of the lines of its rows (`format_charsOf`), and
`depthOver` follows the depth over them.  Formatting does not change what is visible, so a
line is found in the formatted document by what is visible before it (`StartsLine`).  This
settles which marks begin a line, and at which indentation (`startsLine_iff`).

A row is *honest* when its line does to the depth what its tags do to the nesting.  Over honest
rows the depth follows the nesting (`depthOver_eq`).
-/
namespace MarkupDesk.Markup

open Text

namespace Chars

/-! ## Depth over several lines -/

/-- The depth that the line of a tag with this text leaves behind. -/
def depthPast (depth : Nat) (text : List Char) : Nat :=
  depthAfter (depthAt depth (kind text)) (kind text)

theorem depthPast_eq (depth : Nat) (text : List Char) :
    depthPast depth text = ((depth : Int) + (kind text).shift).toNat := by
  rw [depthPast]
  cases kind text <;> simp only [depthAt, depthAfter, Kind.shift] <;> omega

theorem lines_append (depth : Nat) (texts rest : List (List Char)) :
    lines depth (texts ++ rest) =
      lines depth texts ++ lines (texts.foldl depthPast depth) rest := by
  induction texts generalizing depth with
  | nil => rfl
  | cons text texts ih =>
    rw [List.cons_append, lines, lines, ih, List.append_assoc, List.foldl_cons, depthPast]

/-- The lines, put together, show the brackets of their tags and what is visible in them. -/
theorem visible_lines (depth : Nat) (texts : List (List Char)) :
    visible (lines depth texts) = visible (texts.flatMap bracket) := by
  induction texts generalizing depth with
  | nil => rfl
  | cons text texts ih =>
    have hend : visible lineEnding.toList = [] := by decide
    have hindent : visible (indent (depthAt depth (kind text))) = [] :=
      visible_eq_nil_iff.mpr (all_isBlank_indent _)
    have hline : visible (line (depthAt depth (kind text)) text) = visible (bracket text) := by
      rw [line, List.append_assoc, visible_append, hindent, List.nil_append, List.cons_append,
        bracket, visible_cons_of_not_blank isBlank_lt, visible_cons_of_not_blank isBlank_lt,
        visible_append, visible_append, visible_cons_of_not_blank isBlank_gt,
        visible_cons_of_not_blank isBlank_gt, hend, visible_nil]
    rw [lines, visible_append, hline, ih, List.flatMap_cons, visible_append]

theorem lines_eq_nil_or_suffix (depth : Nat) (texts : List (List Char)) :
    lines depth texts = [] ∨ '>' :: lineEnding.toList <:+ lines depth texts := by
  induction texts generalizing depth with
  | nil => exact .inl rfl
  | cons text texts ih =>
    right
    rw [lines]
    rcases ih (depthAfter (depthAt depth (kind text)) (kind text)) with h | h
    · rw [h, List.append_nil, line]
      exact List.suffix_append _ _
    · exact h.trans (List.suffix_append _ _)

end Chars

open Chars

/-! ## The lines of a document -/

/-- The depth that the line of a row leaves behind. -/
def rowPast (depth : Nat) (row : List Mark) : Nat := ((depth : Int) + shift row).toNat

/-- The depth that the lines of these marks leave behind. -/
def depthOver (depth : Nat) (marks : List Mark) : Nat := (rows marks).foldl rowPast depth

theorem depthOver_append {marks : List Mark} (h : Whole marks) (depth : Nat) (rest : List Mark) :
    depthOver depth (marks ++ rest) = depthOver (depthOver depth marks) rest := by
  rw [depthOver, rows_append h, List.foldl_append, ← depthOver, ← depthOver]

theorem foldl_depthPast_inner {marks : List Mark} (h : Whole marks) (depth : Nat) :
    ((rows marks).map inner).foldl depthPast depth = depthOver depth marks := by
  have hrows := isRow_of_mem_rows h
  rw [depthOver]
  generalize rows marks = rs at hrows
  induction rs generalizing depth with
  | nil => rfl
  | cons r rs ih =>
    rw [List.forall_mem_cons] at hrows
    rw [List.map_cons, List.foldl_cons, List.foldl_cons, depthPast_eq, shift_kind_inner hrows.1,
      ih _ hrows.2, rowPast]

theorem Chars.Spread.visible_eq {parts : List (List Char)} {s : List Char} (h : Spread parts s) :
    visible s = visible parts.flatten := by
  induction h with
  | done blanks hblanks => rw [visible_eq_nil_iff.mpr hblanks, List.flatten_nil, visible_nil]
  | next blanks part hblanks _ ih =>
    rw [visible_append, visible_append, visible_eq_nil_iff.mpr hblanks, ih, List.flatten_cons,
      visible_append, List.nil_append]

/-- The document is written row by row. -/
theorem spread_charsOf {marks : List Mark} (h : Whole marks) {lead : List Char}
    (hlead : lead.all isBlank = true) :
    Spread (((rows marks).map inner).map bracket) (lead ++ charsOf marks) := by
  have hrows := isRow_of_mem_rows h
  have hflat : charsOf marks = charsOf (rows marks).flatten := by rw [flatten_rows]
  rw [hflat]
  -- The blanks after a row stand before the next one.
  generalize rows marks = rs at hrows
  induction rs generalizing lead with
  | nil => simpa using Spread.done lead hlead
  | cons r rs ih =>
    rw [List.forall_mem_cons] at hrows
    obtain ⟨e, he, hchars⟩ := hrows.1.exists_bracket
    rw [List.flatten_cons, charsOf_append, hchars, List.append_assoc]
    exact .next lead _ hlead (ih he hrows.2)

theorem visible_lines_rows {marks : List Mark} (h : Whole marks) {lead : List Char}
    (hlead : lead.all isBlank = true) (depth : Nat) :
    visible (lines depth ((rows marks).map inner)) = visible (lead ++ charsOf marks) := by
  rw [visible_lines, (spread_charsOf h hlead).visible_eq, List.flatMap_def]

theorem exists_rows_cons (m : Mark) (ms : List Mark) :
    ∃ row rest, rows (m :: ms) = (m :: row) :: rest := by
  rw [rows]
  split
  · exact ⟨_, _, rfl⟩
  · exact ⟨_, _, rfl⟩

/-- **The formatted form of a document** consists of the lines of its rows, without the last
line end. -/
theorem format_charsOf {m : Mark} {ms : List Mark} (h : Whole (m :: ms)) (hrole : m.role ≠ .finish)
    {lead : List Char} (hlead : lead.all isBlank = true) :
    Chars.format (lead ++ charsOf (m :: ms)) ++ lineEnding.toList =
      lines 0 ((rows (m :: ms)).map inner) := by
  have hspread := spread_charsOf h hlead
  have hsolid : ∀ p ∈ (rows (m :: ms)).map inner, ¬ HasBoundary p :=
    List.forall_mem_map.mpr fun r hr => (isRow_of_mem_rows h r hr).not_hasBoundary_inner
  obtain ⟨row, rest, hrows⟩ := exists_rows_cons m ms
  rw [hrows, List.map_cons] at hspread hsolid ⊢
  refine format_spread hsolid ?_ ?_ hspread
  · exact Bool.eq_false_iff.mpr (mt kind_eq_closing_iff.mpr (mt kind_inner_eq_closing_iff.mp hrole))
  · rw [inner_cons]
    exact (m.startsWord_inside_append hrole _).head?_ne

theorem depthAt_kind_inner (depth : Nat) (m : Mark) (ms : List Mark) :
    depthAt depth (kind (inner (m :: ms))) = if m.role = .finish then depth - 1 else depth := by
  split
  · rename_i hrole
    rw [kind_inner_eq_closing_iff.mpr hrole]
    rfl
  · rename_i hrole
    exact depthAt_of_ne (mt kind_inner_eq_closing_iff.mp hrole) depth

theorem exists_lines_append (depth : Nat) (text : List Char) (rest : List (List Char)) :
    ∃ s, lines depth (text :: rest) =
      List.replicate (2 * depthAt depth (kind text)) ' ' ++ '<' :: (s ++ lineEnding.toList) := by
  rw [lines, line, indent_eq_replicate]
  rcases lines_eq_nil_or_suffix (depthAfter (depthAt depth (kind text)) (kind text)) rest with
    h | ⟨s, h⟩
  · exact ⟨text ++ ['>'], by simp [h]⟩
  · exact ⟨text ++ '>' :: (lineEnding.toList ++ (s ++ ['>'])), by simp [← h]⟩

/-- The indentation of a mark that comes after these marks, if it begins a line. -/
def indentAt (before : List Mark) (m : Mark) : Nat :=
  2 * if m.role = .finish then depthOver 0 before - 1 else depthOver 0 before

/-- A mark after whole rows stands behind their lines and its indentation. -/
theorem exists_lines_append_cons {ms : List Mark} (h : Whole ms) (m : Mark) (rest : List Mark) :
    ∃ s, lines 0 ((rows (ms ++ m :: rest)).map inner) =
      lines 0 ((rows ms).map inner) ++ List.replicate (indentAt ms m) ' ' ++
        '<' :: (s ++ lineEnding.toList) := by
  obtain ⟨row, more, hrows⟩ := exists_rows_cons m rest
  obtain ⟨s, hs⟩ := exists_lines_append (depthOver 0 ms) (inner (m :: row)) (more.map inner)
  refine ⟨s, ?_⟩
  rw [rows_append h, hrows, List.map_append, List.map_cons, lines_append,
    foldl_depthPast_inner h, hs, depthAt_kind_inner, List.append_assoc, indentAt]

/-! ## Where a line begins -/

/-- In the formatted document, a line begins with this many spaces and then the `<` that comes
after what is visible of `before`. -/
def StartsLine (document : String) (before : List Char) (indent : Nat) : Prop :=
  ∃ u v, (format document).toList = u ++ List.replicate indent ' ' ++ '<' :: v ∧
    (u = [] ∨ '>' :: lineEnding.toList <:+ u) ∧ visible u = visible before

theorem append_replicate_inj {c : Char} {s t : List Char} {m n : Nat} (hs : s.getLast? ≠ some c)
    (ht : t.getLast? ≠ some c) (h : s ++ List.replicate m c = t ++ List.replicate n c) : m = n := by
  induction m generalizing n with
  | zero =>
    cases n with
    | zero => rfl
    | succ n =>
      rw [List.replicate_zero, List.append_nil, List.replicate_succ', ← List.append_assoc] at h
      exact absurd (by rw [h, List.getLast?_concat]) hs
  | succ m ih =>
    cases n with
    | zero =>
      rw [List.replicate_zero, List.append_nil, List.replicate_succ', ← List.append_assoc] at h
      exact absurd (by rw [← h, List.getLast?_concat]) ht
    | succ n =>
      rw [List.replicate_succ', List.replicate_succ', ← List.append_assoc, ← List.append_assoc] at h
      rw [ih (List.append_inj' h rfl).1]

theorem getLast?_ne_space {u : List Char} (h : u = [] ∨ '>' :: lineEnding.toList <:+ u) :
    u.getLast? ≠ some ' ' := by
  rcases h with rfl | ⟨w, rfl⟩
  · decide
  · have hend : ('>' :: lineEnding.toList).getLast? = some '\n' := by decide
    rw [List.getLast?_append, hend, Option.some_or]
    decide

/-- Only after a closed mark can a line begin. -/
theorem StartsLine.whole {document : String} {lead : List Char} {ms : List Mark} {n : Nat}
    (h : StartsLine document (lead ++ charsOf ms) n) : Whole ms := by
  obtain ⟨u, _, _, hu, hvisible⟩ := h
  intro m hm
  obtain ⟨init, rfl⟩ := List.getLast?_eq_some_iff.mp hm
  obtain ⟨s, hchars, _⟩ := m.exists_chars
  have hlast : (visible u).getLast? = (visible m.chars).getLast? := by
    rw [hvisible, charsOf_append, charsOf_cons, charsOf_nil, List.append_nil, ← List.append_assoc,
      visible_append, List.getLast?_append, hchars, visible_cons_of_not_blank isBlank_lt,
      List.getLast?_cons, Option.some_or]
  rcases hu with rfl | ⟨w, rfl⟩
  · rw [hchars, visible_cons_of_not_blank isBlank_lt, List.getLast?_cons] at hlast
    cases hlast
  · have hend : (visible ('>' :: lineEnding.toList)).getLast? = some '>' := by decide
    rw [Mark.Closed, ← hlast, visible_append, List.getLast?_append, hend, Option.some_or]

/-- **A mark begins a line exactly when those before it are whole rows**, and its indentation
is that of the depth which their lines leave behind, or one level less for an end tag. -/
theorem startsLine_iff {document : String} {lead : List Char} {ms rest : List Mark} {m : Mark}
    {n : Nat} (hlead : lead.all isBlank = true)
    (hdocument : document.toList = lead ++ charsOf (ms ++ m :: rest))
    (hwhole : Whole (ms ++ m :: rest))
    (hfirst : ∀ first ∈ (ms ++ m :: rest).head?, first.role ≠ .finish) :
    StartsLine document (lead ++ charsOf ms) n ↔ Whole ms ∧ n = indentAt ms m := by
  obtain ⟨first, others, hmarks⟩ :=
    List.exists_cons_of_ne_nil (l := ms ++ m :: rest) (by simp)
  have hlines : (format document).toList ++ lineEnding.toList =
      lines 0 ((rows (ms ++ m :: rest)).map inner) := by
    rw [toList_format, hdocument, hmarks]
    exact format_charsOf (hmarks ▸ hwhole) (hfirst first (by rw [hmarks]; rfl)) hlead
  constructor
  · intro h
    have hms := h.whole
    obtain ⟨u, v, hformat, hu, hvisible⟩ := h
    obtain ⟨s, hs⟩ := exists_lines_append_cons hms m rest
    rw [hformat, hs, List.append_assoc, List.cons_append] at hlines
    -- Both sides have their `<` after the same visible characters.
    have hspace : isBlank ' ' = true := by decide
    have hspaces (k : Nat) : visible (List.replicate k ' ') = [] :=
      visible_eq_nil_iff.mpr (by simp [hspace])
    have hbefore := append_cons_inj isBlank_lt isBlank_lt hlines (by
      rw [visible_append, visible_append, hspaces, hspaces, hvisible,
        visible_lines_rows hms hlead])
    exact ⟨hms, append_replicate_inj (getLast?_ne_space hu)
      (getLast?_ne_space (lines_eq_nil_or_suffix _ _)) hbefore⟩
  · rintro ⟨hms, rfl⟩
    obtain ⟨s, hs⟩ := exists_lines_append_cons hms m rest
    rw [hs, ← List.cons_append, ← List.append_assoc] at hlines
    exact ⟨_, s, List.append_cancel_right hlines, lines_eq_nil_or_suffix _ _,
      visible_lines_rows hms hlead 0⟩

/-! ## Honest rows -/

/-- The line of the row does to the depth what the tags of the row do to the nesting. -/
def Honest (row : List Mark) : Prop := shift row = nesting row

instance : DecidablePred Honest :=
  fun row => inferInstanceAs (Decidable (shift row = nesting row))

theorem foldl_shift_eq {rs : List (List Mark)} (hhonest : ∀ r ∈ rs, Honest r) {depth : Nat}
    (hnesting : ∀ p, p <+: rs.flatten → 0 ≤ (depth : Int) + nesting p) :
    (rs.foldl rowPast depth : Nat) = (depth : Int) + nesting rs.flatten := by
  induction rs generalizing depth with
  | nil => simp
  | cons r rs ih =>
    rw [List.forall_mem_cons] at hhonest
    have hr : (rowPast depth r : Int) = depth + nesting r := by
      rw [rowPast, hhonest.1]
      exact Int.toNat_of_nonneg (hnesting r (List.prefix_append r _))
    rw [List.foldl_cons, ih hhonest.2, hr, List.flatten_cons, nesting_append, Int.add_assoc]
    intro p hp
    rw [hr, Int.add_assoc, ← nesting_append]
    exact hnesting _ (List.prefix_append_right_inj r |>.mpr hp)

/-- **Over honest rows the depth follows the nesting**, as long as no more elements are closed
than have been opened. -/
theorem depthOver_eq {marks : List Mark} (hhonest : ∀ r ∈ rows marks, Honest r) {depth : Nat}
    (hnesting : ∀ p, p <+: marks → 0 ≤ (depth : Int) + nesting p) :
    (depthOver depth marks : Int) = depth + nesting marks := by
  rw [← flatten_rows marks] at hnesting
  rw [depthOver, foldl_shift_eq hhonest hnesting, flatten_rows]

end MarkupDesk.Markup
