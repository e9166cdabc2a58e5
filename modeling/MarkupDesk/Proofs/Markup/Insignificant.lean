import MarkupDesk.Proofs.Markup.Boundary
import MarkupDesk.Proofs.Text.Positions

/-!
# What minifying removes

A blank is *insignificant* when the longest run of blanks around it touches an end of
the document or stands directly between a `>` and a `<` (`Insignificant`).  This says of
each position of the document whether its character goes or stays, and `minify` keeps
exactly the characters that stay (`minify_eq_keep`).

The two steps of minifying share the work.  Closing the gaps removes the blanks of the
runs between `>` and `<` (`closeGaps_eq_keep`), where the induction goes over the tails of
the text, and each `>` put in front of a tail turns the blanks that the tail begins with
into a gap, if a `<` follows them (`inGap_cons_succ`).  Trimming removes the runs at the
ends, and between these no run touches an end (`insignificant_core_iff`).
-/
namespace MarkupDesk.Markup
namespace Chars

open Text

/-- The character at this position is a blank, and the longest run of blanks around it
touches an end of the text or stands directly between a `>` and a `<`. -/
def Insignificant (s : List Char) (i : Nat) : Prop :=
  ∃ before run after, IsRunAt s i before run after ∧
    (before = [] ∨ after = [] ∨ before.getLast? = some '>' ∧ after.head? = some '<')

/-- The ends of the run need not be found: what counts are the first characters on either
side that are no blanks. -/
theorem insignificant_iff {s : List Char} {i : Nat} :
    Insignificant s i ↔
      s[i]?.any isBlank = true ∧
        (solidBefore? s i = none ∨ solidFrom? s i = none ∨
          solidBefore? s i = some '>' ∧ solidFrom? s i = some '<') := by
  constructor
  · rintro ⟨before, run, after, hrun, h⟩
    rw [hrun.solidBefore?_eq, hrun.solidFrom?_eq, List.getLast?_eq_none_iff, List.head?_eq_none_iff]
    exact ⟨hrun.isBlank_getElem?, h⟩
  · rintro ⟨hblank, h⟩
    obtain ⟨before, run, after, hrun⟩ := exists_isRunAt hblank
    rw [hrun.solidBefore?_eq, hrun.solidFrom?_eq, List.getLast?_eq_none_iff,
      List.head?_eq_none_iff] at h
    exact ⟨before, run, after, hrun, h⟩

instance (s : List Char) : DecidablePred (Insignificant s) :=
  fun _ => decidable_of_iff _ insignificant_iff.symm

/-! ## Gaps -/

/-- The character at this position is a blank in a gap. -/
def InGap (s : List Char) (i : Nat) : Prop :=
  s[i]?.any isBlank = true ∧ solidBefore? s i = some '>' ∧ solidFrom? s i = some '<'

instance (s : List Char) : DecidablePred (InGap s) :=
  fun i => inferInstanceAs (Decidable (_ ∧ solidBefore? s i = some '>' ∧ solidFrom? s i = some '<'))

theorem opensAfterBlanks_iff_solidFrom? {s : List Char} :
    opensAfterBlanks s = true ↔ solidFrom? s 0 = some '<' := by
  rw [opensAfterBlanks, head?_dropWhile_isBlank, beq_iff_eq]
  rfl

theorem not_inGap_zero (s : List Char) : ¬ InGap s 0 := by
  rintro ⟨_, hbefore, _⟩
  cases hbefore

/-- A character in front of a text opens a gap if it is a `>` and nothing but blanks come
before the position, and leaves the other gaps as they are. -/
theorem inGap_cons_succ {c : Char} {s : List Char} {i : Nat} :
    InGap (c :: s) (i + 1) ↔
      InGap s i ∨ c = '>' ∧ s[i]?.any isBlank = true ∧ solidBefore? s i = none ∧
        solidFrom? s i = some '<' := by
  have hbefore : solidBefore? (c :: s) (i + 1) = some '>' ↔
      solidBefore? s i = some '>' ∨ c = '>' ∧ solidBefore? s i = none := by
    rw [solidBefore?_cons_succ]
    cases h : solidBefore? s i with
    | some d => simp
    | none =>
      cases hc : isBlank c with
      | false => simp
      | true =>
        have hne : c ≠ '>' := by rintro rfl; simp at hc
        simp [hne]
  rw [InGap, InGap, hbefore, solidFrom?_cons_succ, List.getElem?_cons_succ]
  constructor
  · rintro ⟨hblank, hgt | ⟨hc, hnone⟩, hlt⟩
    · exact .inl ⟨hblank, hgt, hlt⟩
    · exact .inr ⟨hc, hblank, hnone, hlt⟩
  · rintro (⟨hblank, hgt, hlt⟩ | ⟨hc, hblank, hnone, hlt⟩)
    · exact ⟨hblank, .inl hgt, hlt⟩
    · exact ⟨hblank, .inr ⟨hc, hnone⟩, hlt⟩

/-! ## Closing gaps -/

theorem opensAfterBlanks_closeGaps (s : List Char) :
    opensAfterBlanks (closeGaps s) = opensAfterBlanks s := by
  induction s with
  | nil => rfl
  | cons c s ih =>
    by_cases hc : isBlank c = true
    · have hne : c ≠ '>' := by rintro rfl; simp at hc
      rw [closeGaps_cons_of_ne hne]
      simpa [opensAfterBlanks, List.dropWhile_cons_of_pos hc] using ih
    -- The text begins with its first character before and after.
    · rw [closeGaps_cons]
      split <;> simp [opensAfterBlanks, List.dropWhile_cons_of_neg hc]

section Front

variable {b : List Char} (hb : b.all isBlank = true) (after : List Char)

include hb

/-- The blanks that a text begins with are in no gap. -/
theorem keep_not_inGap_front :
    keep (fun i => ¬ InGap (b ++ '<' :: after) i) (b ++ '<' :: after) =
      b ++ keep (fun i => ¬ InGap (b ++ '<' :: after) (b.length + i)) ('<' :: after) := by
  have hfront : keep (fun i => ¬ InGap (b ++ '<' :: after) i) b = b := by
    refine keep_eq_self fun i hi hin => ?_
    have hbefore := hin.2.1
    rw [solidBefore?_eq_none_of_blank hb _ (Nat.le_of_lt hi)] at hbefore
    cases hbefore
  rw [keep_append, hfront]

/-- They are in a gap once a `>` stands in front of them. -/
theorem keep_not_inGap_gt_cons :
    keep (fun i => ¬ InGap ('>' :: (b ++ '<' :: after)) (i + 1)) (b ++ '<' :: after) =
      keep (fun i => ¬ InGap (b ++ '<' :: after) (b.length + i)) ('<' :: after) := by
  have hfront : keep (fun i => ¬ InGap ('>' :: (b ++ '<' :: after)) (i + 1)) b = [] := by
    refine keep_eq_nil fun i hi hnot => hnot (inGap_cons_succ.mpr (.inr ⟨rfl, ?_, ?_, ?_⟩))
    · rw [List.getElem?_append_left hi, any_isBlank_getElem? hb hi]
    · exact solidBefore?_eq_none_of_blank hb _ (Nat.le_of_lt hi)
    · rw [solidFrom?_of_solidBefore?_eq_none
        (solidBefore?_eq_none_of_blank hb _ (Nat.le_of_lt hi))]
      exact opensAfterBlanks_iff_solidFrom?.mp (opensAfterBlanks_iff.mpr ⟨b, after, hb, rfl⟩)
  rw [keep_append, hfront, List.nil_append]
  refine keep_congr fun i _ => not_congr ?_
  rw [inGap_cons_succ, or_iff_left]
  -- From the `<` on, it stands between the new `>` and every blank.
  rintro ⟨_, hblank, hbefore, _⟩
  rw [solidBefore?_of_blank_append hb] at hbefore
  cases i with
  | zero => simp at hblank
  | succ i =>
    rw [solidBefore?_cons_succ] at hbefore
    simp at hbefore

end Front

/-- **Closing the gaps removes the blanks in gaps, and nothing else.** -/
theorem closeGaps_eq_keep (s : List Char) : closeGaps s = keep (fun i => ¬ InGap s i) s := by
  induction s with
  | nil => rfl
  | cons c s ih =>
    rw [closeGaps_cons, keep_cons, if_pos (not_inGap_zero _), opensAfterBlanks_closeGaps]
    split
    · rename_i h
      obtain ⟨rfl, hopens⟩ := h
      obtain ⟨b, after, hb, rfl⟩ := opensAfterBlanks_iff.mp hopens
      have hlt : closeGaps ('<' :: after) = '<' :: closeGaps after :=
        closeGaps_cons_of_ne (by decide) after
      rw [keep_not_inGap_front hb, closeGaps_of_blank_append hb] at ih
      rw [keep_not_inGap_gt_cons hb, ← List.append_cancel_left ih, closeGaps_of_blank_append hb,
        dropWhile_append_of_blank hb, hlt, List.dropWhile_cons_of_neg (by simp)]
    -- No gap begins behind this character, which would have to be a `>` before blanks and a `<`.
    · rename_i h
      rw [ih]
      refine congrArg _ (keep_congr fun i _ => not_congr ?_)
      rw [inGap_cons_succ, iff_comm, or_iff_left]
      rintro ⟨hc, _, hnone, hlt⟩
      rw [solidFrom?_of_solidBefore?_eq_none hnone] at hlt
      exact h ⟨hc, opensAfterBlanks_iff_solidFrom?.mpr hlt⟩

/-! ## Minifying -/

theorem head?_closeGaps (s : List Char) : (closeGaps s).head? = s.head? := by
  cases s with
  | nil => rfl
  | cons c s =>
    rw [closeGaps_cons]
    split <;> rfl

theorem getLast?_closeGaps (s : List Char) : (closeGaps s).getLast? = s.getLast? := by
  induction s with
  | nil => rfl
  | cons c s ih =>
    rw [closeGaps_cons]
    split
    · rename_i h
      obtain ⟨b, after, hb, hclosed⟩ := opensAfterBlanks_iff.mp h.2
      rw [hclosed, List.getLast?_append, List.getLast?_cons, Option.some_or] at ih
      rw [hclosed, dropWhile_append_of_blank hb, List.dropWhile_cons_of_neg (by simp),
        List.getLast?_cons, List.getLast?_cons, List.getLast?_cons, ← ih]
    · rw [List.getLast?_cons, ih, List.getLast?_cons]

section Core

variable {b core e : List Char} (hb : b.all isBlank = true) (he : e.all isBlank = true)
  (hstart : ¬ StartsBlank core) (hend : ¬ EndsBlank core)

include hb he hstart hend

/-- Blanks around a text that has none at its ends are insignificant, and leave those in the
text as they are. -/
theorem insignificant_core_iff {i : Nat} (hi : i < core.length) :
    Insignificant (b ++ (core ++ e)) (b.length + i) ↔ InGap core i := by
  have hbefore : solidBefore? (b ++ (core ++ e)) (b.length + i) = solidBefore? core i := by
    rw [solidBefore?_of_blank_append hb, solidBefore?_append_of_le (Nat.le_of_lt hi)]
  have hfrom : solidFrom? (b ++ (core ++ e)) (b.length + i) = solidFrom? core i := by
    rw [solidFrom?_length_add, solidFrom?_append_of_blank he]
  have hget : (b ++ (core ++ e))[b.length + i]? = core[i]? := by
    rw [List.getElem?_append_right (Nat.le_add_right ..), Nat.add_sub_cancel_left,
      List.getElem?_append_left hi]
  rw [insignificant_iff, hbefore, hfrom, hget, InGap]
  refine and_congr_right fun hblank => ?_
  obtain ⟨before, run, after, hrun⟩ := exists_isRunAt hblank
  have hbefore_ne : solidBefore? core i ≠ none := by
    rw [hrun.solidBefore?_eq, ne_eq, List.getLast?_eq_none_iff]
    rintro rfl
    exact hstart hrun.startsBlank
  have hfrom_ne : solidFrom? core i ≠ none := by
    rw [hrun.solidFrom?_eq, ne_eq, List.head?_eq_none_iff]
    rintro rfl
    exact hend hrun.endsBlank
  simp [hbefore_ne, hfrom_ne]

theorem minify_eq_keep_of_core :
    minify (b ++ (core ++ e)) =
      keep (fun i => ¬ Insignificant (b ++ (core ++ e)) i) (b ++ (core ++ e)) := by
  have hminify : minify (b ++ (core ++ e)) = closeGaps core := by
    rw [← List.append_assoc, minify_append_of_blank hb he, minify, trim_eq_self_iff, StartsBlank,
      EndsBlank, head?_closeGaps, getLast?_closeGaps]
    exact ⟨hstart, hend⟩
  have hleft : keep (fun i => ¬ Insignificant (b ++ (core ++ e)) i) b = [] := by
    refine keep_eq_nil fun i hi hnot => hnot (insignificant_iff.mpr ⟨?_, .inl ?_⟩)
    · rw [List.getElem?_append_left hi, any_isBlank_getElem? hb hi]
    · exact solidBefore?_eq_none_of_blank hb _ (Nat.le_of_lt hi)
  have hright : keep (fun i => ¬ Insignificant (b ++ (core ++ e)) (b.length + (core.length + i)))
      e = [] := by
    refine keep_eq_nil fun i hi hnot => hnot (insignificant_iff.mpr ⟨?_, .inr (.inl ?_)⟩)
    · rw [List.getElem?_append_right (Nat.le_add_right ..), Nat.add_sub_cancel_left,
        List.getElem?_append_right (Nat.le_add_right ..), Nat.add_sub_cancel_left,
        any_isBlank_getElem? he hi]
    · rw [solidFrom?_length_add, solidFrom?_length_add, solidFrom?_eq_none_of_blank he]
  rw [hminify, keep_append, hleft, keep_append, hright, List.nil_append, List.append_nil,
    closeGaps_eq_keep]
  exact keep_congr fun i hi => not_congr (insignificant_core_iff hb he hstart hend hi).symm

end Core

/-- **Minifying removes the insignificant blanks, and nothing else.** -/
theorem minify_eq_keep (s : List Char) : minify s = keep (fun i => ¬ Insignificant s i) s := by
  obtain ⟨b, e, hb, he, hs⟩ := exists_trim s
  rw [List.append_assoc] at hs
  have h := minify_eq_keep_of_core hb he (not_startsBlank_trim s) (not_endsBlank_trim s)
  rwa [← hs] at h

example : (List.range 15).filter (fun i => Insignificant " <a> <b> x </b>".toList i) = [0, 4] := by
  decide

end Chars

/-- **Minifying a document removes exactly its insignificant blanks.**  All other
characters stay, in their order; what is left has no blank at either end and no gap, and
minifying it changes nothing. -/
theorem minify_removes_insignificant (document : String) :
    (minify document).toList =
        Text.keep (fun i => ¬ Chars.Insignificant document.toList i) document.toList ∧
      ¬ Text.StartsBlank (minify document).toList ∧ ¬ Text.EndsBlank (minify document).toList ∧
      ¬ Chars.HasGap (minify document).toList ∧ minify (minify document) = minify document := by
  rw [toList_minify]
  refine ⟨Chars.minify_eq_keep _, Text.not_startsBlank_trim _, Text.not_endsBlank_trim _,
    Chars.not_hasGap_minify _, ?_⟩
  rw [← String.toList_inj]
  simp

end MarkupDesk.Markup
