import MarkupDesk.Markup.Spacing
import MarkupDesk.Proofs.Text.Edges

/-!
# Boundaries and gaps

Two tags of a document meet where a `>` is followed by a `<` with nothing but
blanks in between.  Such a place is a *boundary* (`HasBoundary`); where there is
at least one blank in between it is a *gap* (`HasGap`), and `closeGaps` turns it
into a boundary without blanks.

Both notions are about positions of the whole text.  What the functions of
`MarkupDesk.Markup` look at is the front of a tail (`opensAfterBlanks`), and
`hasBoundary_cons_iff` and `hasGap_cons_iff` lead from one to the other.

`closeGaps` leaves no gap (`not_hasGap_closeGaps`), and it leaves a text alone that
has none (`closeGaps_eq_self`).  Trimming cannot open a gap, so a minified text is
minified already (`minify_minify`).
-/
namespace MarkupDesk.Markup.Chars

open Text

/-- Somewhere in the text a `>` and a `<` have exactly these characters between them. -/
def Parts (between s : List Char) : Prop :=
  ∃ before after, s = before ++ '>' :: (between ++ '<' :: after)

/-- Somewhere in the text a `>` and a `<` have nothing but blanks between them. -/
def HasBoundary (s : List Char) : Prop :=
  ∃ between, between.all isBlank = true ∧ Parts between s

/-- Somewhere in the text a `>` and a `<` have blanks, and at least one, between them. -/
def HasGap (s : List Char) : Prop :=
  ∃ between, between ≠ [] ∧ between.all isBlank = true ∧ Parts between s

theorem Parts.of_isInfix {between s t : List Char} (h : s <:+: t) (hs : Parts between s) :
    Parts between t := by
  obtain ⟨p, q, rfl⟩ := h
  obtain ⟨before, after, rfl⟩ := hs
  exact ⟨p ++ before, after ++ q, by simp⟩

theorem HasBoundary.of_isInfix {s t : List Char} (h : s <:+: t) (hs : HasBoundary s) :
    HasBoundary t := by
  obtain ⟨between, hblank, hparts⟩ := hs
  exact ⟨between, hblank, hparts.of_isInfix h⟩

theorem HasGap.of_isInfix {s t : List Char} (h : s <:+: t) (hs : HasGap s) : HasGap t := by
  obtain ⟨between, hne, hblank, hparts⟩ := hs
  exact ⟨between, hne, hblank, hparts.of_isInfix h⟩

theorem not_parts_nil (between : List Char) : ¬ Parts between [] := by
  rintro ⟨before, after, h⟩
  simp at h

/-- A `>` and a `<` stand apart like this at the very front of a text, or after it. -/
theorem parts_cons_iff {between : List Char} {c : Char} {s : List Char} :
    Parts between (c :: s) ↔
      (c = '>' ∧ ∃ after, s = between ++ '<' :: after) ∨ Parts between s := by
  constructor
  · rintro ⟨before, after, h⟩
    cases before with
    | nil =>
      obtain ⟨rfl, rfl⟩ := List.cons.inj h
      exact .inl ⟨rfl, after, rfl⟩
    | cons d before =>
      obtain ⟨rfl, rfl⟩ := List.cons.inj h
      exact .inr ⟨before, after, rfl⟩
  · rintro (⟨rfl, after, rfl⟩ | h)
    · exact ⟨[], after, rfl⟩
    · exact h.of_isInfix (List.suffix_cons c s).isInfix

/-- What has no `>` in it does not matter in front. -/
theorem parts_append_left_iff {between s : List Char} (h : '>' ∉ s) (t : List Char) :
    Parts between (s ++ t) ↔ Parts between t := by
  induction s with
  | nil => rfl
  | cons c s ih =>
    rw [List.mem_cons, not_or] at h
    rw [List.cons_append, parts_cons_iff, ih h.2]
    exact or_iff_right fun hc => h.1 hc.1.symm

/-- What has no `<` in it does not matter at the end. -/
theorem parts_append_right_iff {between t : List Char} (h : '<' ∉ t) (s : List Char) :
    Parts between (s ++ t) ↔ Parts between s := by
  refine ⟨?_, Parts.of_isInfix (List.prefix_append s t).isInfix⟩
  rintro ⟨before, after, hs⟩
  have hsplit : s ++ t = (before ++ '>' :: between) ++ '<' :: after := by simpa using hs
  rcases List.append_eq_append_iff.mp hsplit with ⟨u, _, ht⟩ | ⟨u, rfl, hu⟩
  · exact absurd (ht ▸ by simp) h
  · cases u with
    | nil => exact absurd (by rw [← List.nil_append t, ← hu]; simp) h
    | cons c u =>
      obtain ⟨rfl, _⟩ := List.cons.inj hu
      exact ⟨before, u, by simp⟩

theorem hasBoundary_append_left_iff {s : List Char} (h : '>' ∉ s) (t : List Char) :
    HasBoundary (s ++ t) ↔ HasBoundary t := by
  simp only [HasBoundary, parts_append_left_iff h]

theorem hasBoundary_append_right_iff {t : List Char} (h : '<' ∉ t) (s : List Char) :
    HasBoundary (s ++ t) ↔ HasBoundary s := by
  simp only [HasBoundary, parts_append_right_iff h]

theorem hasBoundary_lt_cons_iff (s : List Char) : HasBoundary ('<' :: s) ↔ HasBoundary s :=
  hasBoundary_append_left_iff (s := ['<']) (by decide) s

/-! ## The front of a text -/

@[simp] theorem isBlank_lt : isBlank '<' = false := by decide

@[simp] theorem isBlank_gt : isBlank '>' = false := by decide

@[simp] theorem opensAfterBlanks_nil : opensAfterBlanks [] = false := rfl

@[simp] theorem opensAfterBlanks_lt (s : List Char) : opensAfterBlanks ('<' :: s) = true := by
  simp [opensAfterBlanks]

@[simp] theorem opensAfterBlanks_gt (s : List Char) : opensAfterBlanks ('>' :: s) = false := by
  simp [opensAfterBlanks]

theorem opensAfterBlanks_append_of_blank {b : List Char} (hb : b.all isBlank = true)
    (s : List Char) : opensAfterBlanks (b ++ s) = opensAfterBlanks s := by
  rw [opensAfterBlanks, dropWhile_append_of_blank hb, opensAfterBlanks]

/-- The blanks and the `<` that a text opens with. -/
theorem opensAfterBlanks_iff {s : List Char} :
    opensAfterBlanks s = true ↔ ∃ b after, b.all isBlank = true ∧ s = b ++ '<' :: after := by
  constructor
  · intro h
    rw [opensAfterBlanks, beq_iff_eq, List.head?_eq_some_iff] at h
    obtain ⟨after, hafter⟩ := h
    exact ⟨s.takeWhile isBlank, after, List.all_takeWhile,
      by rw [← hafter, List.takeWhile_append_dropWhile]⟩
  · rintro ⟨b, after, hb, rfl⟩
    rw [opensAfterBlanks_append_of_blank hb, opensAfterBlanks_lt]

/-- What follows a text that opens with blanks and a `<` does not matter for that. -/
theorem opensAfterBlanks_append {s : List Char} (h : opensAfterBlanks s = true) (t : List Char) :
    opensAfterBlanks (s ++ t) = true := by
  obtain ⟨b, after, hb, rfl⟩ := opensAfterBlanks_iff.mp h
  exact opensAfterBlanks_iff.mpr ⟨b, after ++ t, hb, by simp⟩

/-- Where the text goes on with something other than blanks and a `<`, it is the
first part alone that decides. -/
theorem opensAfterBlanks_append_eq {t : List Char} (ht : opensAfterBlanks t = false)
    (s : List Char) : opensAfterBlanks (s ++ t) = opensAfterBlanks s := by
  induction s with
  | nil => simpa using ht
  | cons c s ih =>
    by_cases hc : isBlank c = true
    · simpa [opensAfterBlanks, List.dropWhile_cons_of_pos hc] using ih
    · simp [opensAfterBlanks, List.dropWhile_cons_of_neg hc]

theorem dropWhile_append_of_opensAfterBlanks {s : List Char} (h : opensAfterBlanks s = true)
    (t : List Char) : (s ++ t).dropWhile isBlank = s.dropWhile isBlank ++ t := by
  obtain ⟨b, after, hb, rfl⟩ := opensAfterBlanks_iff.mp h
  rw [List.append_assoc, dropWhile_append_of_blank hb, dropWhile_append_of_blank hb]
  simp

/-! ## Boundaries and gaps from the front -/

theorem hasBoundary_cons_iff {c : Char} {s : List Char} :
    HasBoundary (c :: s) ↔ (c = '>' ∧ opensAfterBlanks s = true) ∨ HasBoundary s := by
  simp only [HasBoundary, parts_cons_iff, opensAfterBlanks_iff]
  constructor
  · rintro ⟨b, hb, ⟨hc, after, hs⟩ | h⟩
    · exact .inl ⟨hc, b, after, hb, hs⟩
    · exact .inr ⟨b, hb, h⟩
  · rintro (⟨hc, b, after, hb, hs⟩ | ⟨b, hb, h⟩)
    · exact ⟨b, hb, .inl ⟨hc, after, hs⟩⟩
    · exact ⟨b, hb, .inr h⟩

theorem hasGap_cons_iff {c : Char} {s : List Char} :
    HasGap (c :: s) ↔
      (c = '>' ∧ StartsBlank s ∧ opensAfterBlanks s = true) ∨ HasGap s := by
  simp only [HasGap, parts_cons_iff, opensAfterBlanks_iff]
  constructor
  · rintro ⟨b, hne, hb, ⟨hc, after, hs⟩ | h⟩
    · refine .inl ⟨hc, ?_, b, after, hb, hs⟩
      cases b with
      | nil => exact absurd rfl hne
      | cons d b => exact ⟨d, by rw [hs]; rfl, List.all_eq_true.mp hb d (List.mem_cons_self ..)⟩
    · exact .inr ⟨b, hne, hb, h⟩
  · rintro (⟨hc, ⟨d, hd, hblank⟩, b, after, hb, hs⟩ | ⟨b, hne, hb, h⟩)
    · refine ⟨b, ?_, hb, .inl ⟨hc, after, hs⟩⟩
      rintro rfl
      obtain rfl : '<' = d := Option.some.inj (by rw [← hd, hs]; rfl)
      simp at hblank
    · exact ⟨b, hne, hb, .inr h⟩

theorem not_hasBoundary_nil : ¬ HasBoundary [] :=
  fun ⟨between, _, h⟩ => not_parts_nil between h

theorem not_hasBoundary_of_gt_not_mem {s : List Char} (h : '>' ∉ s) : ¬ HasBoundary s := by
  rw [← List.append_nil s, hasBoundary_append_left_iff h]
  exact not_hasBoundary_nil

theorem not_hasBoundary_of_lt_not_mem {s : List Char} (h : '<' ∉ s) : ¬ HasBoundary s :=
  mt (hasBoundary_append_right_iff h []).mp not_hasBoundary_nil

theorem not_hasGap_nil : ¬ HasGap [] :=
  fun ⟨between, _, _, h⟩ => not_parts_nil between h

instance decidableHasBoundary : DecidablePred HasBoundary
  | [] => .isFalse not_hasBoundary_nil
  | c :: s =>
    have := decidableHasBoundary s
    decidable_of_iff ((c = '>' ∧ opensAfterBlanks s = true) ∨ HasBoundary s)
      hasBoundary_cons_iff.symm

/-! ## Closing gaps -/

theorem closeGaps_cons (c : Char) (s : List Char) :
    closeGaps (c :: s) =
      if c = '>' ∧ opensAfterBlanks (closeGaps s) = true then
        c :: (closeGaps s).dropWhile isBlank
      else c :: closeGaps s := rfl

/-- **Closing the gaps of a text leaves none.** -/
theorem not_hasGap_closeGaps (s : List Char) : ¬ HasGap (closeGaps s) := by
  induction s with
  | nil => exact not_hasGap_nil
  | cons c s ih =>
    rw [closeGaps_cons]
    split
    -- A gap here would begin with the blanks that have just been dropped.
    · rw [hasGap_cons_iff]
      rintro (⟨_, hstart, _⟩ | hgap)
      · exact not_startsBlank_dropWhile _ hstart
      · exact ih (hgap.of_isInfix (List.dropWhile_suffix _).isInfix)
    · rename_i h
      rw [hasGap_cons_iff]
      rintro (⟨hc, _, hopens⟩ | hgap)
      · exact h ⟨hc, hopens⟩
      · exact ih hgap

/-- **A text without gaps is left alone.** -/
theorem closeGaps_eq_self {s : List Char} (h : ¬ HasGap s) : closeGaps s = s := by
  induction s with
  | nil => rfl
  | cons c s ih =>
    rw [hasGap_cons_iff, not_or] at h
    rw [closeGaps_cons, ih h.2]
    split
    · rename_i hopens
      have hstart : ¬ StartsBlank s := fun hs => h.1 ⟨hopens.1, hs, hopens.2⟩
      rw [dropWhile_eq_self_iff.mpr hstart]
    · rfl

theorem closeGaps_of_blank_append {b : List Char} (hb : b.all isBlank = true) (s : List Char) :
    closeGaps (b ++ s) = b ++ closeGaps s := by
  induction b with
  | nil => rfl
  | cons c b ih =>
    rw [List.all_cons, Bool.and_eq_true] at hb
    have hc : c ≠ '>' := by rintro rfl; simp at hb
    rw [List.cons_append, closeGaps_cons_of_ne hc, ih hb.2, List.cons_append]

theorem closeGaps_append_of_blank {e : List Char} (he : e.all isBlank = true) (s : List Char) :
    closeGaps (s ++ e) = closeGaps s ++ e := by
  -- No gap ends in `e`, which has no `<`.
  have hshut : opensAfterBlanks e = false := by
    rw [← List.append_nil e, opensAfterBlanks_append_of_blank he, opensAfterBlanks_nil]
  induction s with
  | nil => simpa using closeGaps_of_blank_append he []
  | cons c s ih =>
    rw [List.cons_append, closeGaps_cons, ih, closeGaps_cons, opensAfterBlanks_append_eq hshut]
    split
    · rename_i h
      rw [dropWhile_append_of_opensAfterBlanks h.2, List.cons_append]
    · rfl

/-- Closing the gaps of a text leaves it blank, or leaves it something that is not blank. -/
theorem all_isBlank_closeGaps (s : List Char) :
    (closeGaps s).all isBlank = s.all isBlank := by
  induction s with
  | nil => rfl
  | cons c s ih =>
    by_cases hc : c = '>'
    · subst hc
      rw [closeGaps_cons]
      split <;> simp
    · rw [closeGaps_cons_of_ne hc, List.all_cons, ih, List.all_cons]

/-! ## Minifying -/

/-- Nothing is left of a document exactly when it is blank. -/
theorem minify_eq_nil_iff {s : List Char} : minify s = [] ↔ s.all isBlank = true := by
  rw [minify, trim_eq_nil_iff, all_isBlank_closeGaps]

theorem not_hasGap_minify (s : List Char) : ¬ HasGap (minify s) :=
  fun h => not_hasGap_closeGaps s (h.of_isInfix (trim_isInfix _))

@[simp] theorem closeGaps_minify (s : List Char) : closeGaps (minify s) = minify s :=
  closeGaps_eq_self (not_hasGap_minify s)

@[simp] theorem trim_minify (s : List Char) : trim (minify s) = minify s :=
  trim_trim (closeGaps s)

/-- **Minifying twice is minifying once.** -/
@[simp] theorem minify_minify (s : List Char) : minify (minify s) = minify s := by
  rw [minify, closeGaps_minify, trim_minify]

/-- Blanks around a document do not show once it is minified. -/
theorem minify_append_of_blank {b e : List Char} (hb : b.all isBlank = true)
    (he : e.all isBlank = true) (s : List Char) : minify (b ++ s ++ e) = minify s := by
  rw [minify, closeGaps_append_of_blank he, closeGaps_of_blank_append hb,
    trim_append_of_blank hb he, minify]

end MarkupDesk.Markup.Chars
