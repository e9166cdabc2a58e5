import MarkupDesk.Markup.Layout
import MarkupDesk.Proofs.Markup.Pieces

/-!
# The lines of a formatted document

`placed` says at which depth each tag stands, and the formatted document is woven
from its tags with the line ends and indentations in their boundaries
(`format_eq_woven`).  Those are blanks, so formatting changes nothing but the spacing
that minifying removes (`minify_format`): the formatted document, the minified one
and the sequence of tags all say the same.
-/
namespace MarkupDesk.Markup.Chars

open Text

/-! ## The place of a tag -/

/-- The tags with the depths at which they stand, where the line before left `depth`. -/
def placed (depth : Nat) : List (List Char) → List (Nat × List Char)
  | [] => []
  | text :: rest =>
    let here := depthAt depth (kind text)
    (here, text) :: placed (depthAfter here (kind text)) rest

theorem placed_cons (depth : Nat) (text : List Char) (rest : List (List Char)) :
    placed depth (text :: rest) =
      (depthAt depth (kind text), text) ::
        placed (depthAfter (depthAt depth (kind text)) (kind text)) rest := rfl

theorem map_snd_placed (depth : Nat) (texts : List (List Char)) :
    (placed depth texts).map Prod.snd = texts := by
  induction texts generalizing depth with
  | nil => rfl
  | cons text rest ih => rw [placed_cons, List.map_cons, ih]

theorem lines_eq_flatMap (depth : Nat) (texts : List (List Char)) :
    lines depth texts = (placed depth texts).flatMap fun t => line t.1 t.2 := by
  induction texts generalizing depth with
  | nil => rfl
  | cons text rest ih =>
    rw [placed_cons, List.flatMap_cons, ← ih]
    rfl

@[simp] theorem depthAt_zero (k : Kind) : depthAt 0 k = 0 := by
  cases k <;> rfl

/-! ## Indentation -/

/-- Indentation is two spaces for each level. -/
theorem indent_eq_replicate (depth : Nat) : indent depth = List.replicate (2 * depth) ' ' := by
  induction depth with
  | zero => rfl
  | succ n ih =>
    have hstep : indent (n + 1) = ' ' :: ' ' :: indent n := by
      simp [indent, indentUnit, List.replicate_succ]
    rw [hstep, ih, Nat.mul_succ, List.replicate_succ, List.replicate_succ]

theorem all_isBlank_indent (depth : Nat) : (indent depth).all isBlank = true := by
  rw [indent_eq_replicate, List.all_replicate]
  have : isBlank ' ' = true := by decide
  simp [this]

/-- A tag on a line of its own, as a piece of the formatted document. -/
def hanging (t : Nat × List Char) : Link where
  between := lineEnding.toList ++ indent t.1
  piece := t.2
  blank := by
    rw [List.all_append, all_isBlank_indent]
    decide

theorem pieces_hanging (depth : Nat) (texts : List (List Char)) :
    ((placed depth texts).map hanging).map Link.piece = texts := by
  rw [List.map_map]
  exact map_snd_placed depth texts

/-! ## The whole document -/

/-- The line of a tag at the margin and the lines after it: brackets around a woven
text, and a line end. -/
theorem line_zero_append (text : List Char) (rest : List (Nat × List Char)) :
    line 0 text ++ rest.flatMap (fun t => line t.1 t.2) =
      '<' :: (woven text (rest.map hanging) ++ '>' :: lineEnding.toList) := by
  have hline (t : List Char) : line 0 t = '<' :: (t ++ '>' :: lineEnding.toList) := rfl
  induction rest generalizing text with
  | nil => simp [hline, woven]
  | cons t rest ih =>
    -- The indentation of the next line goes into the boundary before it.
    have hnext : line t.1 t.2 = indent t.1 ++ line 0 t.2 := by
      rw [hline, line]
      simp
    rw [List.flatMap_cons, hnext, List.append_assoc, ih]
    simp [hline, woven, Link.chars, hanging]

theorem unwrap_cons_append (c : Char) (s : List Char) :
    unwrap (c :: (s ++ '>' :: lineEnding.toList)) = s := by
  have htail : ('>' :: lineEnding.toList).length = 3 := rfl
  have hlength : (c :: (s ++ '>' :: lineEnding.toList)).length = s.length + 4 := by
    rw [List.length_cons, List.length_append, htail]
  have hlong : ¬ s.length + 4 < 1 + lineEnding.toList.length + 1 := by
    have : lineEnding.toList.length = 2 := rfl
    omega
  have hkeep : s.length + 4 - (1 + lineEnding.toList.length) = s.length + 1 := by
    have : lineEnding.toList.length = 2 := rfl
    omega
  rw [unwrap, hlength, if_neg hlong, hkeep, List.take_succ_cons, List.drop_succ_cons,
    List.drop_zero, List.take_left]

/-- **The formatted document is woven from the tags**, with a line end and the
indentation of the next line in each boundary. -/
theorem format_eq_woven {s first : List Char} {rest : List (List Char)}
    (h : pieces s = first :: rest) :
    format s = woven first ((placed (depthAfter 0 (kind first)) rest).map hanging) := by
  rw [format, h, lines_eq_flatMap, placed_cons, depthAt_zero, List.flatMap_cons,
    line_zero_append, unwrap_cons_append]

theorem closeGaps_format (s : List Char) : closeGaps (format s) = minify s := by
  obtain ⟨first, rest, h⟩ := List.exists_cons_of_ne_nil (areTags_pieces s).nonempty
  have hsolid : ∀ p ∈ first :: rest, ¬ HasBoundary p := h ▸ (areTags_pieces s).solid
  have hpieces := pieces_hanging (depthAfter 0 (kind first)) rest
  have hlinks : ∀ l ∈ (placed (depthAfter 0 (kind first)) rest).map hanging,
      ¬ HasBoundary l.piece := by
    intro l hl
    refine hsolid _ (List.mem_cons_of_mem _ ?_)
    rw [← hpieces]
    exact List.mem_map_of_mem hl
  rw [format_eq_woven h, closeGaps_woven (hsolid first (List.mem_cons_self ..)) hlinks, hpieces,
    ← intercalate_eq_woven, ← h, intercalate_pieces]

/-- **Formatting changes nothing but the spacing that minifying removes.** -/
@[simp] theorem minify_format (s : List Char) : minify (format s) = minify s := by
  rw [minify, closeGaps_format, trim_minify]

/-- The formatted document depends on the minified one only. -/
theorem format_congr {s t : List Char} (h : minify s = minify t) : format s = format t := by
  rw [format, pieces, h, format, pieces]

/-- **What is cut off at the ends of a layout is never all of it**, unless nothing is left of the
document once it is minified. -/
theorem format_eq_nil_iff {s : List Char} : format s = [] ↔ minify s = [] := by
  constructor
  · intro h
    rw [← minify_format, h]
    rfl
  · intro h
    have hblank : minify s = minify [] := h
    rw [format_congr hblank]
    rfl

end Chars

theorem minify_eq_empty_iff {document : String} :
    minify document = "" ↔ Text.isBlankText document = true := by
  rw [← String.toList_inj, toList_minify]
  exact Chars.minify_eq_nil_iff

theorem format_eq_empty_iff {document : String} : format document = "" ↔ minify document = "" := by
  rw [← String.toList_inj, ← String.toList_inj, toList_format, toList_minify]
  exact Chars.format_eq_nil_iff

/-- **Formatting and minifying only ever change the spacing between the tags.**  Each
undoes the other, neither touches the tags, formatting twice is formatting once, and
two documents look the same once formatted exactly when they look the same once
minified. -/
theorem format_changes_only_spacing (x y : String) :
    minify (format x) = minify x ∧ tags (format x) = tags x ∧ format (minify x) = format x ∧
      format (format x) = format x ∧ (format x = format y ↔ minify x = minify y) := by
  have hminify (d : String) : minify (format d) = minify d := by
    rw [← String.toList_inj]
    simp
  have hformat {d e : String} (h : minify d = minify e) : format d = format e := by
    rw [← String.toList_inj, toList_minify, toList_minify] at h
    rw [← String.toList_inj, toList_format, toList_format, Chars.format_congr h]
  refine ⟨hminify x, ?_, hformat ?_, hformat (hminify x), ?_, hformat⟩
  · rw [tags, tags, Chars.pieces, Chars.pieces, toList_format, Chars.minify_format]
  · rw [← String.toList_inj]
    simp
  · intro h
    rw [← hminify x, h, hminify y]

end MarkupDesk.Markup
