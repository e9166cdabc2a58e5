import MarkupDesk.Markup.Tag
import MarkupDesk.Proofs.Markup.Boundary

/-!
# Cutting a text into pieces and joining them again

A text is `woven` from pieces when they follow one another with a boundary between
each two.  For pieces without a boundary of their own this determines them: however
many blanks the boundaries have, `cut` finds exactly these pieces (`cut_woven`).
Conversely every text is woven from what `cut` finds in it once its gaps are closed
(`woven_cut`), and none of these pieces has a boundary (`not_hasBoundary_of_mem_cut`).

So a minified document and the sequence of its tags are two forms of one thing: the
pieces of a document joined by `><` are the minified document
(`intercalate_pieces`), and every sequence of texts that can be one is the sequence
of the pieces of its join (`pieces_intercalate`).
-/
namespace MarkupDesk.Markup.Chars

open Text

/-! ## Cutting -/

theorem cut_cons (c : Char) (s : List Char) :
    cut (c :: s) =
      if c = '>' ∧ opensAfterBlanks (cut s).1 = true then
        ([], ((cut s).1.dropWhile isBlank).drop 1 :: (cut s).2)
      else (c :: (cut s).1, (cut s).2) := rfl

theorem cut_cons_of_ne {c : Char} (h : c ≠ '>') (s : List Char) :
    cut (c :: s) = (c :: (cut s).1, (cut s).2) := by
  rw [cut_cons, if_neg fun hc => h hc.1]

/-- **No piece of a cut text has a boundary.** -/
theorem not_hasBoundary_of_mem_cut (s : List Char) :
    ∀ p ∈ (cut s).1 :: (cut s).2, ¬ HasBoundary p := by
  induction s with
  | nil =>
    intro p hp
    rw [List.mem_singleton.mp hp]
    exact not_hasBoundary_nil
  | cons c s ih =>
    rw [List.forall_mem_cons] at ih
    rw [cut_cons]
    split
    · rw [List.forall_mem_cons, List.forall_mem_cons]
      have hsuffix : ((cut s).1.dropWhile isBlank).drop 1 <:+ (cut s).1 :=
        (List.drop_suffix 1 _).trans (List.dropWhile_suffix _)
      exact ⟨not_hasBoundary_nil, fun h => ih.1 (h.of_isInfix hsuffix.isInfix), ih.2⟩
    · rename_i h
      rw [List.forall_mem_cons, hasBoundary_cons_iff, not_or]
      exact ⟨⟨h, ih.1⟩, ih.2⟩

/-- A first part without a boundary stays in one piece, if the text goes on with one. -/
theorem cut_append {p : List Char} (hp : ¬ HasBoundary p) {t : List Char}
    (ht : (cut t).1 = []) : cut (p ++ t) = (p, (cut t).2) := by
  induction p with
  | nil => rw [List.nil_append, ← ht]
  | cons c p ih =>
    rw [hasBoundary_cons_iff, not_or] at hp
    rw [List.cons_append, cut_cons, ih hp.2, if_neg hp.1]

theorem cut_of_blank_append {b : List Char} (hb : b.all isBlank = true) (s : List Char) :
    cut (b ++ s) = (b ++ (cut s).1, (cut s).2) := by
  induction b with
  | nil => rfl
  | cons c b ih =>
    rw [List.all_cons, Bool.and_eq_true] at hb
    have hc : c ≠ '>' := by rintro rfl; simp at hb
    rw [List.cons_append, cut_cons_of_ne hc, ih hb.2, List.cons_append]

/-! ## Weaving -/

/-- A piece of a text that is not the first one, and the blanks of the boundary
before it. -/
structure Link where
  between : List Char
  piece : List Char
  blank : between.all isBlank = true

namespace Link

/-- The characters of the piece and of the boundary before it. -/
def chars (l : Link) : List Char := '>' :: (l.between ++ '<' :: l.piece)

/-- A piece after a boundary without blanks. -/
def tight (piece : List Char) : Link := ⟨[], piece, rfl⟩

theorem chars_tight (p : List Char) : (tight p).chars = '>' :: '<' :: p := rfl

theorem pieces_tight (ps : List (List Char)) : (ps.map tight).map piece = ps := by
  rw [List.map_map]
  exact List.map_id ps

end Link

/-- The text of these pieces, one after the other. -/
def woven (first : List Char) (links : List Link) : List Char :=
  first ++ links.flatMap Link.chars

theorem cut_flatMap_chars {links : List Link} (h : ∀ l ∈ links, ¬ HasBoundary l.piece) :
    cut (links.flatMap Link.chars) = ([], links.map Link.piece) := by
  induction links with
  | nil => rfl
  | cons l links ih =>
    rw [List.forall_mem_cons] at h
    have hpiece : cut (l.piece ++ links.flatMap Link.chars) =
        (l.piece, links.map Link.piece) := by
      rw [cut_append h.1 (by rw [ih h.2]), ih h.2]
    have hopen : cut ('<' :: (l.piece ++ links.flatMap Link.chars)) =
        ('<' :: l.piece, links.map Link.piece) := by
      rw [cut_cons_of_ne (by decide), hpiece]
    rw [List.flatMap_cons, Link.chars, List.cons_append, List.append_assoc, List.cons_append,
      cut_cons, cut_of_blank_append l.blank, hopen, if_pos, dropWhile_append_of_blank l.blank]
    · simp
    · exact ⟨rfl, by rw [opensAfterBlanks_append_of_blank l.blank, opensAfterBlanks_lt]⟩

/-- **Pieces without a boundary are what a text woven from them is cut into**,
whatever blanks the boundaries between them have. -/
theorem cut_woven {first : List Char} {links : List Link} (hfirst : ¬ HasBoundary first)
    (hlinks : ∀ l ∈ links, ¬ HasBoundary l.piece) :
    cut (woven first links) = (first, links.map Link.piece) := by
  rw [woven, cut_append hfirst (by rw [cut_flatMap_chars hlinks]), cut_flatMap_chars hlinks]

theorem opensAfterBlanks_woven (first : List Char) (links : List Link) :
    opensAfterBlanks (woven first links) = opensAfterBlanks first := by
  refine opensAfterBlanks_append_eq ?_ first
  cases links with
  | nil => rfl
  | cons l links => exact opensAfterBlanks_gt _

/-- **The pieces of a text, joined without blanks, are the text without its gaps.** -/
theorem woven_cut (s : List Char) : woven (cut s).1 ((cut s).2.map Link.tight) = closeGaps s := by
  induction s with
  | nil => rfl
  | cons c s ih =>
    rw [closeGaps_cons, ← ih, opensAfterBlanks_woven, cut_cons]
    split
    · rename_i h
      obtain ⟨rfl, hopens⟩ := h
      obtain ⟨b, after, hb, hfirst⟩ := opensAfterBlanks_iff.mp hopens
      -- The cut takes a `<` off the piece, and the tight link puts it back.
      rw [woven, woven, dropWhile_append_of_opensAfterBlanks hopens, hfirst,
        dropWhile_append_of_blank hb]
      simp [Link.chars_tight]
    · rfl

/-- A text woven from pieces without a boundary has only the gaps between them. -/
theorem closeGaps_woven {first : List Char} {links : List Link} (hfirst : ¬ HasBoundary first)
    (hlinks : ∀ l ∈ links, ¬ HasBoundary l.piece) :
    closeGaps (woven first links) = woven first ((links.map Link.piece).map Link.tight) := by
  rw [← woven_cut, cut_woven hfirst hlinks]

/-! ## Joining -/

theorem intercalate_eq_woven (first : List Char) (rest : List (List Char)) :
    List.intercalate ['>', '<'] (first :: rest) = woven first (rest.map Link.tight) := by
  induction rest generalizing first with
  | nil => simp [woven]
  | cons p rest ih =>
    rw [List.intercalate_cons_cons, ih]
    simp [woven, Link.chars_tight]

/-- **The pieces of a document, joined by `><`, are the minified document.** -/
theorem intercalate_pieces (s : List Char) : List.intercalate ['>', '<'] (pieces s) = minify s := by
  rw [pieces, intercalate_eq_woven, woven_cut, closeGaps_minify]

theorem not_hasBoundary_of_mem_pieces {s p : List Char} (hp : p ∈ pieces s) : ¬ HasBoundary p :=
  not_hasBoundary_of_mem_cut (minify s) p hp

/-- Texts that can be the pieces of a document: there is one, none of them has a
boundary, and there is no blank before the first one or after the last one. -/
structure AreTags (texts : List (List Char)) : Prop where
  nonempty : texts ≠ []
  solid : ∀ p ∈ texts, ¬ HasBoundary p
  first : ∀ p ∈ texts.head?, ¬ StartsBlank p
  last : ∀ p ∈ texts.getLast?, ¬ EndsBlank p

theorem getLast_suffix_intercalate {texts : List (List Char)} {p : List Char}
    (h : p ∈ texts.getLast?) : p <:+ List.intercalate ['>', '<'] texts := by
  induction texts with
  | nil => cases h
  | cons t texts ih =>
    cases texts with
    | nil =>
      obtain rfl : t = p := Option.some.inj h
      simp
    | cons u texts =>
      rw [List.intercalate_cons_cons]
      exact (ih h).trans (List.suffix_append _ _)

theorem areTags_pieces (s : List Char) : AreTags (pieces s) where
  nonempty := List.cons_ne_nil _ _
  solid := fun _ hp => not_hasBoundary_of_mem_pieces hp
  first := by
    intro p hp hblank
    obtain rfl : (cut (minify s)).1 = p := Option.some.inj hp
    have hwoven : woven (cut (minify s)).1 ((cut (minify s)).2.map Link.tight) = minify s := by
      rw [woven_cut, closeGaps_minify]
    have hprefix : (cut (minify s)).1 <+: minify s := ⟨_, hwoven⟩
    exact not_startsBlank_trim (closeGaps s) (hblank.of_isPrefix hprefix)
  last := by
    intro p hp hblank
    refine not_endsBlank_trim (closeGaps s) (hblank.of_isSuffix ?_)
    rw [← minify, ← intercalate_pieces]
    exact getLast_suffix_intercalate hp

/-- A join begins with a blank only if its first text does. -/
theorem startsBlank_of_intercalate {t : List Char} {texts : List (List Char)}
    (h : StartsBlank (List.intercalate ['>', '<'] (t :: texts))) : StartsBlank t := by
  cases texts with
  | nil => simpa using h
  | cons u texts =>
    rw [List.intercalate_cons_cons, List.append_assoc] at h
    exact h.of_append_cons isBlank_gt

/-- A join ends in a blank only if its last text does. -/
theorem endsBlank_of_intercalate {texts : List (List Char)}
    (h : EndsBlank (List.intercalate ['>', '<'] texts)) : ∃ p ∈ texts.getLast?, EndsBlank p := by
  induction texts with
  | nil =>
    obtain ⟨c, hc, _⟩ := h
    cases hc
  | cons t texts ih =>
    cases texts with
    | nil => exact ⟨t, rfl, by simpa using h⟩
    | cons u texts =>
      rw [List.intercalate_cons_cons, List.append_assoc] at h
      have htail : EndsBlank ('<' :: List.intercalate ['>', '<'] (u :: texts)) :=
        h.of_append_cons isBlank_gt
      exact ih (EndsBlank.of_append_cons (s := []) isBlank_lt htail)

/-- **A text woven from texts that can be the pieces of a document has these pieces**,
whatever blanks the boundaries between them have. -/
theorem pieces_woven {first : List Char} {links : List Link}
    (h : AreTags (first :: links.map Link.piece)) :
    pieces (woven first links) = first :: links.map Link.piece := by
  have hsolid := List.forall_mem_cons.mp h.solid
  have hclosed : closeGaps (woven first links) =
      List.intercalate ['>', '<'] (first :: links.map Link.piece) := by
    rw [closeGaps_woven hsolid.1 fun l hl => hsolid.2 _ (List.mem_map_of_mem hl),
      intercalate_eq_woven]
  have htrim : trim (List.intercalate ['>', '<'] (first :: links.map Link.piece)) =
      List.intercalate ['>', '<'] (first :: links.map Link.piece) := by
    refine trim_eq_self_iff.mpr ⟨fun hs => h.first first rfl (startsBlank_of_intercalate hs), ?_⟩
    intro he
    obtain ⟨p, hp, hblank⟩ := endsBlank_of_intercalate he
    exact h.last p hp hblank
  have htight : ∀ l ∈ (links.map Link.piece).map Link.tight, ¬ HasBoundary l.piece :=
    List.forall_mem_map.mpr hsolid.2
  rw [pieces, minify, hclosed, htrim, intercalate_eq_woven, cut_woven hsolid.1 htight,
    Link.pieces_tight]

/-- **Texts that can be the pieces of a document are the pieces of their join.** -/
theorem pieces_intercalate {texts : List (List Char)} (h : AreTags texts) :
    pieces (List.intercalate ['>', '<'] texts) = texts := by
  obtain ⟨first, rest, rfl⟩ := List.exists_cons_of_ne_nil h.nonempty
  rw [intercalate_eq_woven, pieces_woven (by rwa [Link.pieces_tight]), Link.pieces_tight]

end Chars

/-! ## Documents and their tags -/

/-- **The tags of a document and the minified document determine each other.**  The
tags of every document are texts that can be tags, and joined by `><` they are the
minified document; and all texts that can be tags are the tags of their join. -/
theorem tags_join (document : String) (texts : List String) :
    (Chars.AreTags ((tags document).map fun t => t.text.toList) ∧
      "><".intercalate ((tags document).map Tag.text) = minify document) ∧
    (Chars.AreTags (texts.map String.toList) →
      tags ("><".intercalate texts) = texts.map Tag.mk) := by
  have hchars : (tags document).map (fun t => t.text.toList) = Chars.pieces document.toList := by
    simp [tags, Function.comp_def]
  refine ⟨⟨?_, ?_⟩, ?_⟩
  · rw [hchars]
    exact Chars.areTags_pieces _
  · rw [← String.toList_inj, String.toList_intercalate, List.map_map]
    exact (congrArg _ hchars).trans
      ((Chars.intercalate_pieces _).trans (toList_minify document).symm)
  · intro h
    rw [tags, String.toList_intercalate]
    refine (congrArg _ (Chars.pieces_intercalate h)).trans ?_
    simp [Function.comp_def]

/-- Tags may be empty or blank, begin with a `<` or end in a `>`. -/
theorem tags_join_awkward :
    Chars.AreTags (["<a", " < ", "", "b> ", " ", ">"].map String.toList) ∧
      tags ("><".intercalate ["<a", " < ", "", "b> ", " ", ">"]) =
        ["<a", " < ", "", "b> ", " ", ">"].map Tag.mk := by
  have h : Chars.AreTags (["<a", " < ", "", "b> ", " ", ">"].map String.toList) := by
    constructor <;> decide
  exact ⟨h, (tags_join "" _).2 h⟩

end MarkupDesk.Markup
