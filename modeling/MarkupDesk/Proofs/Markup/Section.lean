import MarkupDesk.Proofs.Markup.Insignificant
import MarkupDesk.Proofs.Markup.Lines
import MarkupDesk.Proofs.Text.Visible

/-!
# Sections

A comment or a section of character data may have any text inside, angle brackets
included.  The minifier and the formatter do not know where in the document they are, so a
place inside of a section that looks like a boundary between two tags is treated as one.

Nothing else can happen to a section.  What has no gap and no blank at its ends is kept by
the minifier (`exists_minify_eq`), and what has no boundary by the formatter
(`exists_format_eq`), and each stays where it is: what is visible before it does not change.
Conversely there is no gap in a minified document, and none of the boundaries of a formatted
document is without a blank (`not_parts_nil_format`).  So a section is kept by both exactly
when there is no boundary inside (`section_kept_iff`).
-/
namespace MarkupDesk.Markup

open Text

namespace Chars

/-! ## A part of a minified text -/

/-- What stands before a text that begins with no blank keeps its visible characters. -/
theorem exists_closeGaps_append {s : List Char} (hstart : ¬ StartsBlank s) (before : List Char) :
    ∃ before', closeGaps (before ++ s) = before' ++ closeGaps s ∧
      visible before' = visible before := by
  induction before with
  | nil => exact ⟨[], rfl, rfl⟩
  | cons c before ih =>
    obtain ⟨before', hclosed, hvisible⟩ := ih
    have hstart' : ¬ StartsBlank (closeGaps s) := by rwa [StartsBlank, head?_closeGaps]
    have hcons (t : List Char) (ht : visible t = visible before) :
        visible (c :: t) = visible (c :: before) := by
      rw [← List.singleton_append, visible_append, ht, ← visible_append, List.singleton_append]
    rw [List.cons_append, closeGaps_cons, hclosed]
    split
    · refine ⟨c :: before'.dropWhile isBlank, ?_, hcons _ ?_⟩
      · rw [dropWhile_append_of_not_startsBlank hstart']
        rfl
      · rw [visible_dropWhile, hvisible]
    · exact ⟨c :: before', rfl, hcons _ hvisible⟩

/-- A text that ends in no blank decides alone whether it opens with blanks and a `<`. -/
theorem opensAfterBlanks_append_of_not_endsBlank {s : List Char} (hne : s ≠ [])
    (hend : ¬ EndsBlank s) (t : List Char) : opensAfterBlanks (s ++ t) = opensAfterBlanks s := by
  have hdrop : s.dropWhile isBlank ≠ [] := by
    rw [ne_eq, dropWhile_isBlank_eq_nil_iff]
    intro hblank
    refine hend ⟨s.getLast hne, List.getLast?_eq_some_getLast hne, ?_⟩
    exact List.all_eq_true.mp hblank _ (List.getLast_mem hne)
  obtain ⟨c, rest, hrest⟩ := List.exists_cons_of_ne_nil hdrop
  rw [opensAfterBlanks, List.dropWhile_append, opensAfterBlanks, hrest]
  rfl

/-- A text without gaps that ends in no blank is kept, whatever follows it. -/
theorem exists_append_closeGaps {s : List Char} (hgap : ¬ HasGap s) (hend : ¬ EndsBlank s)
    (after : List Char) : ∃ after', closeGaps (s ++ after) = s ++ after' := by
  induction s with
  | nil => exact ⟨closeGaps after, rfl⟩
  | cons c s ih =>
    rw [hasGap_cons_iff, not_or] at hgap
    have hend' : ¬ EndsBlank s := fun h => hend (h.of_isSuffix (List.suffix_cons c s))
    obtain ⟨after', hclosed⟩ := ih hgap.2 hend'
    rw [List.cons_append, closeGaps_cons, hclosed]
    by_cases hne : s = []
    · subst hne
      split <;> exact ⟨_, rfl⟩
    · split
      · rename_i h
        -- The blanks that this drops would make a gap in the text itself.
        rw [opensAfterBlanks_append_of_not_endsBlank hne hend'] at h
        have hstart : ¬ StartsBlank (s ++ after') := fun hs =>
          hgap.1 ⟨h.1, (startsBlank_append_iff hne after').mp hs, h.2⟩
        exact ⟨after', by rw [dropWhile_eq_self_iff.mpr hstart]; rfl⟩
      · exact ⟨after', rfl⟩

/-- **A text without gaps and without blanks at its ends is kept by the minifier, where it
is.** -/
theorem exists_minify_eq {s : List Char} (hne : s ≠ []) (hstart : ¬ StartsBlank s)
    (hend : ¬ EndsBlank s) (hgap : ¬ HasGap s) (before after : List Char) :
    ∃ before' after', minify (before ++ s ++ after) = before' ++ s ++ after' ∧
      visible before' = visible before := by
  have hfront (t : List Char) : ¬ StartsBlank (s ++ t) :=
    fun h => hstart ((startsBlank_append_iff hne t).mp h)
  have hback (t : List Char) : ¬ EndsBlank (t ++ s) :=
    fun h => hend ((endsBlank_append_iff hne t).mp h)
  obtain ⟨after', hafter⟩ := exists_append_closeGaps hgap hend after
  obtain ⟨before', hbefore, hvisible⟩ := exists_closeGaps_append (hfront after) before
  refine ⟨before'.dropWhile isBlank, trimEnd after', ?_, ?_⟩
  · rw [minify, List.append_assoc, hbefore, hafter, trim, trimStart,
      dropWhile_append_of_not_startsBlank (hfront after'), ← List.append_assoc,
      trimEnd_append_of_not_endsBlank (hback _)]
  · rw [visible_dropWhile, hvisible]

/-! ## A part of a formatted text -/

theorem HasGap.hasBoundary {s : List Char} (h : HasGap s) : HasBoundary s := by
  obtain ⟨between, _, hblank, hparts⟩ := h
  exact ⟨between, hblank, hparts⟩

theorem woven_cons (first : List Char) (l : Link) (links : List Link) :
    woven first (l :: links) =
      (first ++ ['>']) ++ (l.between ++ woven ('<' :: l.piece) links) := by
  simp [woven, Link.chars]

/-- What has no boundary stands in one piece, and more blanks between the pieces leave it where
it is. -/
theorem exists_woven_eq {s : List Char} (hsolid : ¬ HasBoundary s) {links : List Link}
    {first before after : List Char}
    (h : woven first ((links.map Link.piece).map Link.tight) = before ++ (s ++ after)) :
    ∃ before' after', woven first links = before' ++ s ++ after' ∧
      visible before' = visible before := by
  induction links generalizing first before with
  | nil => exact ⟨before, after, by rw [List.append_assoc, ← h]; rfl, rfl⟩
  | cons l links ih =>
    have hnext {u : List Char} (hu : before = (first ++ ['>']) ++ u)
        (htail : woven ('<' :: l.piece) ((links.map Link.piece).map Link.tight) =
          u ++ (s ++ after)) :
        ∃ before' after', woven first (l :: links) = before' ++ s ++ after' ∧
          visible before' = visible before := by
      obtain ⟨before', after', hwoven, hvisible⟩ := ih htail
      refine ⟨(first ++ ['>']) ++ (l.between ++ before'), after', ?_, ?_⟩
      · rw [woven_cons, hwoven]
        simp
      · rw [hu, visible_append, visible_append l.between, visible_eq_nil_iff.mpr l.blank,
          List.nil_append, hvisible, ← visible_append]
    rw [List.map_cons, List.map_cons, woven_cons] at h
    rcases List.append_eq_append_iff.mp h with ⟨u, hu, htail⟩ | ⟨u, hfirst, htail⟩
    · exact hnext hu htail
    · rcases List.eq_nil_or_concat u with rfl | ⟨v, c, rfl⟩
      · exact hnext (u := []) (by simpa using hfirst.symm) htail.symm
      · rw [List.concat_eq_append, ← List.append_assoc] at hfirst
        obtain ⟨rfl, hc⟩ := List.append_inj' hfirst rfl
        obtain rfl : '>' = c := List.head_eq_of_cons_eq hc
        rw [List.concat_eq_append] at htail
        rcases List.append_eq_append_iff.mp htail with ⟨as, hs, rfl⟩ | ⟨bs, rfl, hrest⟩
        · refine ⟨before, as ++ (l.between ++ woven ('<' :: l.piece) links), ?_, rfl⟩
          rw [woven_cons, List.append_assoc before, hs]
          simp
        · cases bs with
          | nil =>
            refine ⟨before, l.between ++ woven ('<' :: l.piece) links, ?_, rfl⟩
            rw [woven_cons]
            simp
          | cons d bs =>
            -- Here the text would have a `>` and a `<` next to one another.
            obtain ⟨rfl, _⟩ := List.cons.inj hrest
            exact absurd ⟨[], rfl, v, bs, by simp⟩ hsolid

/-- Every document is formatted and minified with the same pieces, which have no boundaries,
and formatting puts blanks in all places between them. -/
theorem exists_format_woven (s : List Char) :
    ∃ first links, minify s = woven first ((links.map Link.piece).map Link.tight) ∧
      format s = woven first links ∧ ¬ HasBoundary first ∧
      ∀ l ∈ links, ¬ HasBoundary l.piece ∧ l.between ≠ [] := by
  obtain ⟨first, rest, hpieces⟩ := List.exists_cons_of_ne_nil (areTags_pieces s).nonempty
  have hsolid : ∀ p ∈ first :: rest, ¬ HasBoundary p := hpieces ▸ (areTags_pieces s).solid
  have hlinks := pieces_hanging (depthAfter 0 (kind first)) rest
  refine ⟨first, (placed (depthAfter 0 (kind first)) rest).map hanging, ?_,
    format_eq_woven hpieces, hsolid first (List.mem_cons_self ..), fun l hl => ⟨?_, ?_⟩⟩
  · rw [hlinks, ← intercalate_eq_woven, ← hpieces, intercalate_pieces]
  · refine hsolid _ (List.mem_cons_of_mem _ ?_)
    rw [← hlinks]
    exact List.mem_map_of_mem hl
  · obtain ⟨t, _, rfl⟩ := List.mem_map.mp hl
    exact List.cons_ne_nil _ _

/-- **A text without boundaries and without blanks at its ends is kept by the formatter, where
it is.** -/
theorem exists_format_eq {s : List Char} (hne : s ≠ []) (hstart : ¬ StartsBlank s)
    (hend : ¬ EndsBlank s) (hsolid : ¬ HasBoundary s) (before after : List Char) :
    ∃ before' after', format (before ++ s ++ after) = before' ++ s ++ after' ∧
      visible before' = visible before := by
  obtain ⟨before', after', hminify, hvisible⟩ :=
    exists_minify_eq hne hstart hend (mt HasGap.hasBoundary hsolid) before after
  obtain ⟨first, links, htight, hformat, _⟩ := exists_format_woven (before ++ s ++ after)
  rw [htight, List.append_assoc] at hminify
  obtain ⟨before'', after'', hwoven, hvisible'⟩ := exists_woven_eq hsolid hminify
  exact ⟨before'', after'', hformat.trans hwoven, hvisible'.trans hvisible⟩

/-- A `>` and a `<` next to one another are in one of two texts, or meet between them. -/
theorem parts_nil_append {s t : List Char} (h : Parts [] (s ++ t)) :
    Parts [] s ∨ Parts [] t ∨ s.getLast? = some '>' ∧ t.head? = some '<' := by
  obtain ⟨before, after, hst⟩ := h
  have hsplit : s ++ t = (before ++ ['>']) ++ '<' :: after := by simpa using hst
  rcases List.append_eq_append_iff.mp hsplit with ⟨u, hu, rfl⟩ | ⟨u, rfl, hu⟩
  · rcases List.eq_nil_or_concat u with rfl | ⟨v, c, rfl⟩
    · rw [List.append_nil] at hu
      exact .inr (.inr ⟨by rw [← hu, List.getLast?_concat], rfl⟩)
    · rw [List.concat_eq_append, ← List.append_assoc] at hu
      obtain rfl : '>' = c := List.head_eq_of_cons_eq (List.append_inj' hu rfl).2
      exact .inr (.inl ⟨v, after, by simp⟩)
  · cases u with
    | nil => exact .inr (.inr ⟨by simp, by rw [← List.nil_append t, ← hu]; rfl⟩)
    | cons c u =>
      obtain ⟨rfl, _⟩ := List.cons.inj hu
      exact .inl ⟨before, u, by simp⟩

/-- Where all pieces are apart, no `>` stands directly before a `<`. -/
theorem not_parts_nil_woven {first : List Char} {links : List Link}
    (hfirst : ¬ HasBoundary first)
    (hlinks : ∀ l ∈ links, ¬ HasBoundary l.piece ∧ l.between ≠ []) :
    ¬ Parts [] (woven first links) := by
  induction links generalizing first with
  | nil =>
    intro h
    exact hfirst ⟨[], rfl, by simpa [woven] using h⟩
  | cons l links ih =>
    obtain ⟨hl, hlinks⟩ := List.forall_mem_cons.mp hlinks
    obtain ⟨c, between, hbetween⟩ := List.exists_cons_of_ne_nil hl.2
    have hopen : ¬ HasBoundary ('<' :: l.piece) := mt (hasBoundary_lt_cons_iff l.piece).mp hl.1
    have hblank (d : Char) (hd : isBlank d = false) : d ∉ l.between := fun hmem => by
      have := List.all_eq_true.mp l.blank d hmem
      rw [hd] at this
      cases this
    rw [woven_cons]
    intro h
    rcases parts_nil_append h with h | h | ⟨_, h⟩
    · exact hfirst ⟨[], rfl, (parts_append_right_iff (by decide) first).mp h⟩
    · exact ih hopen hlinks ((parts_append_left_iff (hblank '>' isBlank_gt) _).mp h)
    · rw [hbetween] at h
      obtain rfl : c = '<' := Option.some.inj h
      exact hblank '<' isBlank_lt (hbetween ▸ List.mem_cons_self ..)

theorem not_parts_nil_format (s : List Char) : ¬ Parts [] (format s) := by
  obtain ⟨first, links, _, hformat, hfirst, hlinks⟩ := exists_format_woven s
  rw [hformat]
  exact not_parts_nil_woven hfirst hlinks

end Chars

open Chars

/-! ## Sections -/

/-- The two kinds of section. -/
inductive SectionKind where
  | characterData
  | comment
  deriving DecidableEq, Repr

namespace SectionKind

/-- What a section of this kind begins with. -/
def start : SectionKind → List Char
  | characterData => "<![CDATA[".toList
  | comment => "<!--".toList

/-- What a section of this kind ends with. -/
def stop : SectionKind → List Char
  | characterData => "]]>".toList
  | comment => "-->".toList

/-- What must not stand in a section of this kind. -/
def barred : SectionKind → List Char
  | characterData => "]]>".toList
  | comment => "--".toList

end SectionKind

/-- A section of a document. -/
structure Section where
  kind : SectionKind
  content : List Char
  open_content : ¬ kind.barred <:+: content

namespace Section

/-- The characters of a section. -/
def chars (sec : Section) : List Char := sec.kind.start ++ sec.content ++ sec.kind.stop

/-- The section is in the text, after what is visible of `before`. -/
def StaysIn (sec : Section) (before text : List Char) : Prop :=
  ∃ before' after', text = before' ++ sec.chars ++ after' ∧ visible before' = visible before

theorem parts_chars_iff (sec : Section) {between : List Char} :
    Parts between sec.chars ↔ Parts between sec.content := by
  have hstart : '>' ∉ sec.kind.start := by cases sec.kind <;> decide
  have hstop : '<' ∉ sec.kind.stop := by cases sec.kind <;> decide
  rw [chars, parts_append_right_iff hstop, parts_append_left_iff hstart]

theorem hasBoundary_chars_iff (sec : Section) :
    HasBoundary sec.chars ↔ HasBoundary sec.content := by
  simp only [HasBoundary, parts_chars_iff]

theorem hasGap_chars_iff (sec : Section) : HasGap sec.chars ↔ HasGap sec.content := by
  simp only [HasGap, parts_chars_iff]

/-- A section has no blanks at its ends. -/
theorem not_blank_chars (sec : Section) :
    sec.chars ≠ [] ∧ ¬ StartsBlank sec.chars ∧ ¬ EndsBlank sec.chars := by
  have hstart : sec.kind.start ≠ [] ∧ ¬ StartsBlank sec.kind.start := by
    cases sec.kind <;> decide
  have hstop : sec.kind.stop ≠ [] ∧ ¬ EndsBlank sec.kind.stop := by
    cases sec.kind <;> decide
  refine ⟨List.append_ne_nil_of_right_ne_nil _ hstop.1, ?_, ?_⟩
  · rw [chars, List.append_assoc, startsBlank_append_iff hstart.1]
    exact hstart.2
  · rw [chars, endsBlank_append_iff hstop.1]
    exact hstop.2

theorem StaysIn.isInfix {sec : Section} {before text : List Char} (h : sec.StaysIn before text) :
    sec.chars <:+: text := by
  obtain ⟨before', after', rfl, _⟩ := h
  exact ⟨before', after', rfl⟩

variable (sec : Section) (before after : List Char)

theorem staysIn_minify (hgap : ¬ HasGap sec.content) :
    sec.StaysIn before (Chars.minify (before ++ sec.chars ++ after)) := by
  obtain ⟨hne, hstart, hend⟩ := sec.not_blank_chars
  exact exists_minify_eq hne hstart hend (mt sec.hasGap_chars_iff.mp hgap) before after

theorem staysIn_format (hsolid : ¬ HasBoundary sec.content) :
    sec.StaysIn before (Chars.format (before ++ sec.chars ++ after)) := by
  obtain ⟨hne, hstart, hend⟩ := sec.not_blank_chars
  exact exists_format_eq hne hstart hend (mt sec.hasBoundary_chars_iff.mp hsolid) before after

variable {sec}

theorem not_hasGap_of_isInfix_minify {s : List Char} (h : sec.chars <:+: Chars.minify s) :
    ¬ HasGap sec.content :=
  fun hgap => not_hasGap_minify s ((sec.hasGap_chars_iff.mpr hgap).of_isInfix h)

/-- A boundary inside of a section either is a gap, or becomes one when it is formatted. -/
theorem not_hasBoundary_of_isInfix {s t : List Char} (hminify : sec.chars <:+: Chars.minify s)
    (hformat : sec.chars <:+: Chars.format t) : ¬ HasBoundary sec.content := by
  rintro ⟨between, hblank, hparts⟩
  by_cases hne : between = []
  · subst hne
    exact not_parts_nil_format t ((sec.parts_chars_iff.mpr hparts).of_isInfix hformat)
  · exact not_hasGap_of_isInfix_minify hminify ⟨between, hne, hblank, hparts⟩

end Section

/-- **A section is kept exactly when nothing in it looks like a boundary between two tags.**
It is in the minified document exactly when there is no gap inside, and in the formatted
one as well exactly when there is no boundary inside; and then it is where it was. -/
theorem section_kept_iff (sec : Section) {document : String} {before after : List Char}
    (h : document.toList = before ++ sec.chars ++ after) :
    (sec.chars <:+: (minify document).toList ↔ ¬ HasGap sec.content) ∧
      (sec.chars <:+: (minify document).toList ∧ sec.chars <:+: (format document).toList ↔
        ¬ HasBoundary sec.content) ∧
      (¬ HasBoundary sec.content →
        sec.StaysIn before (minify document).toList ∧
          sec.StaysIn before (format document).toList) := by
  rw [toList_minify, toList_format, h]
  have hgap : ¬ HasBoundary sec.content → ¬ HasGap sec.content := mt HasGap.hasBoundary
  have hstays (hsolid : ¬ HasBoundary sec.content) :=
    And.intro (sec.staysIn_minify before after (hgap hsolid))
      (sec.staysIn_format before after hsolid)
  refine ⟨⟨Section.not_hasGap_of_isInfix_minify, fun hg => ?_⟩, ⟨?_, fun hsolid => ?_⟩, hstays⟩
  · exact (sec.staysIn_minify before after hg).isInfix
  · rintro ⟨hminify, hformat⟩
    exact Section.not_hasBoundary_of_isInfix hminify hformat
  · exact ⟨(hstays hsolid).1.isInfix, (hstays hsolid).2.isInfix⟩

/-- Angle brackets and blanks do no harm as long as no `<` follows a `>`. -/
theorem section_kept_brackets :
    let sec : Section := ⟨.characterData, "if a < b && b >  c".toList, by decide +kernel⟩
    let document := "<r> <a> " ++ String.ofList sec.chars ++ "</a>\n</r>"
    sec.chars <:+: (minify document).toList ∧ sec.chars <:+: (format document).toList := by
  intro sec document
  have h : document.toList = "<r> <a> ".toList ++ sec.chars ++ "</a>\n</r>".toList := by
    simp [document]
  exact (section_kept_iff sec h).2.1.mpr (by decide)

/-- **Not every section is kept.**  In character data a blank between a `>` and a `<` is
lost. -/
theorem not_forall_section_kept :
    ¬ ∀ sec : Section,
        let document := "<r>" ++ String.ofList sec.chars ++ "</r>"
        sec.chars <:+: (minify document).toList ∧ sec.chars <:+: (format document).toList := by
  intro h
  have hkept := (h ⟨.characterData, "a> <b".toList, by decide +kernel⟩).1
  revert hkept
  decide +kernel

end MarkupDesk.Markup
