import MarkupDesk.Text.Blank

/-!
# The edges of a text

What `trim` leaves has no blank at either end (`not_startsBlank_trim`,
`not_endsBlank_trim`), and a text that has none is left alone (`trim_eq_self_iff`);
so trimming twice is trimming once.
-/
namespace MarkupDesk.Text

/-- The text has a leading blank. -/
def StartsBlank (s : List Char) : Prop := ∃ c ∈ s.head?, isBlank c = true

/-- The text has a trailing blank. -/
def EndsBlank (s : List Char) : Prop := ∃ c ∈ s.getLast?, isBlank c = true

instance (s : List Char) : Decidable (StartsBlank s) :=
  decidable_of_iff _ (Option.any_eq_true isBlank s.head?)

instance (s : List Char) : Decidable (EndsBlank s) :=
  decidable_of_iff _ (Option.any_eq_true isBlank s.getLast?)

theorem endsBlank_iff_startsBlank_reverse {s : List Char} :
    EndsBlank s ↔ StartsBlank s.reverse := by
  rw [EndsBlank, StartsBlank, List.head?_reverse]

theorem endsBlank_of_blank {s : List Char} (hne : s ≠ []) (h : s.all isBlank = true) :
    EndsBlank s :=
  ⟨s.getLast hne, List.getLast?_eq_some_getLast hne,
    List.all_eq_true.mp h _ (List.getLast_mem hne)⟩

theorem StartsBlank.of_isPrefix {s t : List Char} (h : s <+: t) (hs : StartsBlank s) :
    StartsBlank t := by
  obtain ⟨c, hc, hblank⟩ := hs
  obtain ⟨r, rfl⟩ := h
  cases s with
  | nil => cases hc
  | cons d s => exact ⟨c, hc, hblank⟩

theorem EndsBlank.of_isSuffix {s t : List Char} (h : s <:+ t) (hs : EndsBlank s) : EndsBlank t := by
  rw [endsBlank_iff_startsBlank_reverse] at hs ⊢
  exact hs.of_isPrefix (List.reverse_prefix.mpr h)

theorem startsBlank_append_iff {s : List Char} (hs : s ≠ []) (t : List Char) :
    StartsBlank (s ++ t) ↔ StartsBlank s := by
  obtain ⟨c, r, rfl⟩ := List.exists_cons_of_ne_nil hs
  rfl

theorem endsBlank_append_iff {t : List Char} (ht : t ≠ []) (s : List Char) :
    EndsBlank (s ++ t) ↔ EndsBlank t := by
  rw [endsBlank_iff_startsBlank_reverse, List.reverse_append,
    startsBlank_append_iff (List.reverse_ne_nil_iff.mpr ht), ← endsBlank_iff_startsBlank_reverse]

/-- A leading blank stands before the first character that is none. -/
theorem StartsBlank.of_append_cons {s t : List Char} {c : Char} (hc : isBlank c = false)
    (h : StartsBlank (s ++ c :: t)) : StartsBlank s := by
  obtain ⟨d, hd, hblank⟩ := h
  cases s with
  | nil =>
    obtain rfl : c = d := Option.some.inj hd
    rw [hc] at hblank
    cases hblank
  | cons e s => exact ⟨d, hd, hblank⟩

/-- A trailing blank stands after the last character that is none. -/
theorem EndsBlank.of_append_cons {s t : List Char} {c : Char} (hc : isBlank c = false)
    (h : EndsBlank (s ++ c :: t)) : EndsBlank t := by
  rw [endsBlank_iff_startsBlank_reverse, List.reverse_append, List.reverse_cons,
    List.append_assoc] at h
  exact endsBlank_iff_startsBlank_reverse.mpr (h.of_append_cons hc)

/-! ## Dropping blanks -/

theorem not_startsBlank_dropWhile (s : List Char) : ¬ StartsBlank (s.dropWhile isBlank) := by
  rintro ⟨c, hc, hblank⟩
  have h := List.head?_dropWhile_not isBlank s
  rw [Option.mem_def.mp hc] at h
  simp [hblank] at h

theorem dropWhile_eq_self_iff {s : List Char} : s.dropWhile isBlank = s ↔ ¬ StartsBlank s := by
  constructor
  · intro h
    rw [← h]
    exact not_startsBlank_dropWhile s
  · intro h
    cases s with
    | nil => rfl
    | cons c r =>
      have hc : ¬ isBlank c = true := fun hb => h ⟨c, rfl, hb⟩
      rw [List.dropWhile_cons_of_neg hc]

theorem dropWhile_append_of_blank {b : List Char} (hb : b.all isBlank = true) (s : List Char) :
    (b ++ s).dropWhile isBlank = s.dropWhile isBlank :=
  List.dropWhile_append_of_pos (List.all_eq_true.mp hb)

theorem dropWhile_append_of_not_startsBlank {t : List Char} (ht : ¬ StartsBlank t)
    (s : List Char) : (s ++ t).dropWhile isBlank = s.dropWhile isBlank ++ t := by
  rw [List.dropWhile_append, dropWhile_eq_self_iff.mpr ht]
  split
  · rename_i h
    rw [List.isEmpty_iff.mp h, List.nil_append]
  · rfl

/-! ## Trimming -/

theorem trimStart_append_of_blank {b : List Char} (hb : b.all isBlank = true) (s : List Char) :
    trimStart (b ++ s) = trimStart s :=
  dropWhile_append_of_blank hb s

theorem trimEnd_append_of_blank {b : List Char} (hb : b.all isBlank = true) (s : List Char) :
    trimEnd (s ++ b) = trimEnd s := by
  rw [trimEnd, List.reverse_append, dropWhile_append_of_blank (by rwa [List.all_reverse]), trimEnd]

theorem trimEnd_append_of_not_endsBlank {s : List Char} (hs : ¬ EndsBlank s) (t : List Char) :
    trimEnd (s ++ t) = s ++ trimEnd t := by
  rw [endsBlank_iff_startsBlank_reverse] at hs
  rw [trimEnd, List.reverse_append, dropWhile_append_of_not_startsBlank hs, List.reverse_append,
    List.reverse_reverse, ← trimEnd]

theorem trimEnd_eq_self {s : List Char} (h : ¬ EndsBlank s) : trimEnd s = s := by
  rw [endsBlank_iff_startsBlank_reverse, ← dropWhile_eq_self_iff] at h
  rw [trimEnd, h, List.reverse_reverse]

theorem trimEnd_isPrefix (s : List Char) : trimEnd s <+: s := by
  have h := List.dropWhile_suffix isBlank (l := s.reverse)
  rwa [← List.reverse_prefix, List.reverse_reverse] at h

/-- What trimming takes off at the end is blank. -/
theorem exists_trimEnd (s : List Char) :
    ∃ e, e.all isBlank = true ∧ s = trimEnd s ++ e := by
  refine ⟨(s.reverse.takeWhile isBlank).reverse, ?_, ?_⟩
  · rw [List.all_reverse, List.all_takeWhile]
  · rw [trimEnd, ← List.reverse_append, List.takeWhile_append_dropWhile, List.reverse_reverse]

/-- What trimming takes off at either end is blank. -/
theorem exists_trim (s : List Char) :
    ∃ b e, b.all isBlank = true ∧ e.all isBlank = true ∧ s = b ++ trim s ++ e := by
  obtain ⟨e, he, hend⟩ := exists_trimEnd (trimStart s)
  refine ⟨s.takeWhile isBlank, e, List.all_takeWhile, he, ?_⟩
  rw [trim, List.append_assoc, ← hend, trimStart, List.takeWhile_append_dropWhile]

theorem trim_isInfix (s : List Char) : trim s <:+: s :=
  (trimEnd_isPrefix _).isInfix.trans (List.dropWhile_suffix _).isInfix

theorem not_endsBlank_trimEnd (s : List Char) : ¬ EndsBlank (trimEnd s) := by
  rw [endsBlank_iff_startsBlank_reverse, trimEnd, List.reverse_reverse]
  exact not_startsBlank_dropWhile s.reverse

theorem not_startsBlank_trim (s : List Char) : ¬ StartsBlank (trim s) :=
  fun h => not_startsBlank_dropWhile s (h.of_isPrefix (trimEnd_isPrefix _))

theorem not_endsBlank_trim (s : List Char) : ¬ EndsBlank (trim s) :=
  not_endsBlank_trimEnd _

/-- **Trimming leaves exactly the texts alone that have no blank at either end.** -/
theorem trim_eq_self_iff {s : List Char} : trim s = s ↔ ¬ StartsBlank s ∧ ¬ EndsBlank s := by
  constructor
  · intro h
    rw [← h]
    exact ⟨not_startsBlank_trim s, not_endsBlank_trim s⟩
  · rintro ⟨hstart, hend⟩
    rw [trim, trimStart, dropWhile_eq_self_iff.mpr hstart, trimEnd_eq_self hend]

@[simp] theorem trim_trim (s : List Char) : trim (trim s) = trim s :=
  trim_eq_self_iff.mpr ⟨not_startsBlank_trim s, not_endsBlank_trim s⟩

/-- Blanks around a text do not show in what trimming leaves of it. -/
theorem trim_append_of_blank {b e : List Char} (hb : b.all isBlank = true)
    (he : e.all isBlank = true) (s : List Char) : trim (b ++ s ++ e) = trim s := by
  rw [trim, List.append_assoc, trimStart_append_of_blank hb]
  -- The blanks before a text that is blank itself run on into those after it.
  by_cases hs : s.all isBlank = true
  · have hse : (s ++ e).all isBlank = true := by rw [List.all_append, hs, he]; rfl
    rw [← trim, trim_eq_nil_iff.mpr hse, trim_eq_nil_iff.mpr hs]
  · have hne : (s.dropWhile isBlank).isEmpty = false := by
      rw [List.isEmpty_eq_false_iff, ne_eq, dropWhile_isBlank_eq_nil_iff]
      exact hs
    rw [trimStart, List.dropWhile_append, hne, if_neg Bool.false_ne_true,
      trimEnd_append_of_blank he, ← trimStart, ← trim]

end MarkupDesk.Text
