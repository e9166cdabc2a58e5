import MarkupDesk.Diagnosis
import MarkupDesk.Proofs.Text.Digits
import MarkupDesk.Proofs.Text.Search

/-!
# The first mention of a line

A text mentions a line where the word "line", in upper or lower case, has blanks and decimal
digits behind it (`Mentions`).  The digits of a mention are a whole run: they end where no digit
follows.  Blanks are no digits, so there is only one way to read a mention, and it is the way in
which `mention` reads it (`mention_eq_some_iff`).

The line of a diagnosis is what the leftmost mention says (`IsFirstMention`), and only this one:
a number that is not written in ASCII digits, or is too large, gives no line, and no later
mention takes its place (`line_first_mentioned`).
-/
namespace MarkupDesk.Diagnosis

open Text

/-- A text that begins with a mention of a line, and the digits of this mention: the word in any
case, blanks, and digits that no further digit follows. -/
inductive Mentions : List Char → List Char → Prop
  | intro {word blanks digits : List Char} (rest : List Char)
      (hword : word.map Char.toLower = "line".toList)
      (hblanks : blanks ≠ []) (hblank : ∀ c ∈ blanks, isBlank c = true)
      (hdigits : digits ≠ []) (hdigit : ∀ c ∈ digits, isDecimalDigit c = true)
      (hend : ∀ c ∈ rest.head?, isDecimalDigit c = false) :
      Mentions (word ++ (blanks ++ (digits ++ rest))) digits

/-- The digits of the leftmost mention in a text: no longer rest of the text begins with one. -/
def IsFirstMention (text digits : List Char) : Prop :=
  ∃ rest, rest <:+ text ∧ Mentions rest digits ∧
    ∀ other digits', other <:+ text → Mentions other digits' → other.length ≤ rest.length

/-- No part of the text mentions a line. -/
def Unmentioned (text : List Char) : Prop := ∀ rest digits, rest <:+ text → ¬ Mentions rest digits

/-! ## Reading a mention -/

/-- The word has four letters. -/
theorem exists_of_map_toLower {word : List Char} (h : word.map Char.toLower = "line".toList) :
    ∃ l i n e, word = [l, i, n, e] := by
  have hlength : word.length = 4 := by rw [← List.length_map, h]; rfl
  match word, hlength with
  | [l, i, n, e], _ => exact ⟨l, i, n, e, rfl⟩

theorem afterWordLine_eq_some_iff {s rest : List Char} :
    afterWordLine s = some rest ↔
      ∃ word : List Char, word.map Char.toLower = "line".toList ∧ s = word ++ rest := by
  constructor
  · intro h
    unfold afterWordLine at h
    split at h
    · rename_i l i n e tail
      split at h
      · rename_i hword
        obtain rfl := Option.some.inj h
        exact ⟨[l, i, n, e], hword, rfl⟩
      · cases h
    · cases h
  · rintro ⟨word, hword, rfl⟩
    obtain ⟨l, i, n, e, rfl⟩ := exists_of_map_toLower hword
    exact if_pos hword

/-- The blanks and the digits behind the word make up a mention, if there are any. -/
theorem mentions_append {word rest : List Char} (hword : word.map Char.toLower = "line".toList)
    (hblanks : rest.takeWhile isBlank ≠ [])
    (hdigits : (rest.dropWhile isBlank).takeWhile isDecimalDigit ≠ []) :
    Mentions (word ++ rest) ((rest.dropWhile isBlank).takeWhile isDecimalDigit) := by
  have hsplit : word ++ rest = word ++ (rest.takeWhile isBlank ++
      ((rest.dropWhile isBlank).takeWhile isDecimalDigit ++
        (rest.dropWhile isBlank).dropWhile isDecimalDigit)) := by
    rw [List.takeWhile_append_dropWhile, List.takeWhile_append_dropWhile]
  have hend : ∀ c ∈ ((rest.dropWhile isBlank).dropWhile isDecimalDigit).head?,
      isDecimalDigit c = false := by
    intro c hc
    have hstop := List.head?_dropWhile_not isDecimalDigit (rest.dropWhile isBlank)
    rwa [Option.mem_def.mp hc] at hstop
  rw [hsplit]
  exact .intro _ hword hblanks (List.all_eq_true.mp List.all_takeWhile) hdigits
    (List.all_eq_true.mp List.all_takeWhile) hend

/-- **Reading a mention reads the word, all blanks and all digits.** -/
theorem mention_eq_some_iff {s digits : List Char} :
    mention s = some digits ↔ Mentions s digits := by
  unfold mention
  constructor
  · intro h
    split at h
    · cases h
    · rename_i rest hrest
      obtain ⟨word, hword, rfl⟩ := afterWordLine_eq_some_iff.mp hrest
      dsimp only at h
      split at h
      · cases h
      · rename_i hne
        obtain rfl := Option.some.inj h
        simp only [Bool.or_eq_true, List.isEmpty_iff, not_or] at hne
        exact mentions_append hword hne.1 hne.2
  · rintro ⟨rest, hword, hblanks, hblank, hdigits, hdigit, hend⟩
    rename_i word blanks
    have hrest : afterWordLine (word ++ (blanks ++ (digits ++ rest))) =
        some (blanks ++ (digits ++ rest)) := afterWordLine_eq_some_iff.mpr ⟨word, hword, rfl⟩
    -- The blanks end where the digits begin, for no digit is a blank.
    have hstop : ∀ c ∈ (digits ++ rest).head?, isBlank c = false := by
      obtain ⟨d, others, rfl⟩ := List.exists_cons_of_ne_nil hdigits
      rintro c ⟨⟩
      exact isBlank_eq_false_of_isDecimalDigit (hdigit d List.mem_cons_self)
    rw [hrest]
    simp only [takeWhile_dropWhile_run hblank hstop, takeWhile_dropWhile_run hdigit hend]
    simp [hblanks, hdigits]

/-! ## The leftmost mention -/

theorem firstMention_cons (c : Char) (s : List Char) :
    firstMention (c :: s) = (mention (c :: s)).or (firstMention s) := by
  rw [firstMention]
  cases mention (c :: s) <;> rfl

theorem not_mentions_nil (digits : List Char) : ¬ Mentions [] digits := by
  rw [← mention_eq_some_iff]
  exact fun h => nomatch h

/-- A mention at the front of a text is the first. -/
theorem isFirstMention_iff_of_mentions {s digits : List Char} (h : Mentions s digits)
    (digits' : List Char) : IsFirstMention s digits' ↔ digits = digits' := by
  constructor
  · rintro ⟨rest, hrest, hmentions, hleftmost⟩
    obtain rfl := hrest.eq_of_length_le (hleftmost s digits (List.suffix_refl s) h)
    rw [← mention_eq_some_iff] at h hmentions
    exact Option.some.inj (h.symm.trans hmentions)
  · rintro rfl
    exact ⟨s, List.suffix_refl s, h, fun _ _ hother _ => hother.length_le⟩

/-- A character at which no mention begins can be left out. -/
theorem isFirstMention_cons_iff {c : Char} {s : List Char} (h : ∀ d, ¬ Mentions (c :: s) d)
    (digits : List Char) : IsFirstMention (c :: s) digits ↔ IsFirstMention s digits := by
  have hsuffix : ∀ rest d, rest <:+ c :: s → Mentions rest d → rest <:+ s := by
    intro rest d hrest hmentions
    rcases List.suffix_cons_iff.mp hrest with rfl | hrest
    · exact absurd hmentions (h d)
    · exact hrest
  constructor
  · rintro ⟨rest, hrest, hmentions, hleftmost⟩
    exact ⟨rest, hsuffix rest digits hrest hmentions, hmentions,
      fun other d hother => hleftmost other d (hother.trans (List.suffix_cons c s))⟩
  · rintro ⟨rest, hrest, hmentions, hleftmost⟩
    exact ⟨rest, hrest.trans (List.suffix_cons c s), hmentions,
      fun other d hother hm => hleftmost other d (hsuffix other d hother hm) hm⟩

/-- **The search finds the leftmost mention.** -/
theorem firstMention_eq_some_iff {s digits : List Char} :
    firstMention s = some digits ↔ IsFirstMention s digits := by
  induction s with
  | nil =>
    constructor
    · exact fun h => nomatch h
    · rintro ⟨rest, hrest, hmentions, _⟩
      obtain rfl := List.suffix_nil.mp hrest
      exact absurd hmentions (not_mentions_nil digits)
  | cons c s ih =>
    rw [firstMention_cons]
    cases hfront : mention (c :: s) with
    | some d =>
      rw [isFirstMention_iff_of_mentions (mention_eq_some_iff.mp hfront), Option.some_or,
        Option.some_inj]
    | none =>
      rw [isFirstMention_cons_iff, Option.none_or, ih]
      intro d hd
      rw [mention_eq_some_iff.mpr hd] at hfront
      cases hfront

/-- **It finds none only where there is none.** -/
theorem firstMention_eq_none_iff {s : List Char} : firstMention s = none ↔ Unmentioned s := by
  constructor
  · intro h
    induction s with
    | nil =>
      intro rest digits hrest
      obtain rfl := List.suffix_nil.mp hrest
      exact not_mentions_nil digits
    | cons c s ih =>
      rw [firstMention_cons, Option.or_eq_none_iff] at h
      intro rest digits hrest hmentions
      rcases List.suffix_cons_iff.mp hrest with rfl | hrest
      · rw [mention_eq_some_iff.mpr hmentions] at h
        cases h.1
      · exact ih h.2 rest digits hrest hmentions
  · intro h
    rw [Option.eq_none_iff_forall_ne_some]
    intro digits hdigits
    obtain ⟨rest, hrest, hmentions, _⟩ := firstMention_eq_some_iff.mp hdigits
    exact h rest digits hrest hmentions

theorem exists_isFirstMention_or_unmentioned (s : List Char) :
    (∃ digits, IsFirstMention s digits) ∨ Unmentioned s := by
  cases h : firstMention s with
  | some digits => exact .inl ⟨digits, firstMention_eq_some_iff.mp h⟩
  | none => exact .inr (firstMention_eq_none_iff.mp h)

/-! ## Words before the first mention -/

theorem Mentions.exists_cons_cons {s digits : List Char} (h : Mentions s digits) :
    ∃ l i rest, s = l :: i :: rest ∧ l.toLower = 'l' ∧ i.toLower = 'i' := by
  obtain ⟨rest, hword, _, _, _, _, _⟩ := h
  obtain ⟨l, i, n, e, rfl⟩ := exists_of_map_toLower hword
  obtain ⟨hl, htail⟩ := List.cons.inj hword
  exact ⟨l, i, _, rfl, hl, (List.cons.inj htail).1⟩

theorem mention_cons_of_ne {c : Char} (h : c.toLower ≠ 'l') (rest : List Char) :
    mention (c :: rest) = none := by
  rw [Option.eq_none_iff_forall_ne_some]
  intro digits hdigits
  obtain ⟨l, i, tail, heq, hl, _⟩ := (mention_eq_some_iff.mp hdigits).exists_cons_cons
  cases heq
  exact h hl

theorem mention_cons_cons_of_ne {i : Char} (h : i.toLower ≠ 'i') (l : Char) (rest : List Char) :
    mention (l :: i :: rest) = none := by
  rw [Option.eq_none_iff_forall_ne_some]
  intro digits hdigits
  obtain ⟨_, _, tail, heq, _, hi⟩ := (mention_eq_some_iff.mp hdigits).exists_cons_cons
  cases heq
  exact h hi

/-- No line is mentioned in words that have no l. -/
theorem firstMention_append {before : List Char} (h : ∀ c ∈ before, c.toLower ≠ 'l')
    (rest : List Char) : firstMention (before ++ rest) = firstMention rest := by
  induction before with
  | nil => rfl
  | cons c before ih =>
    obtain ⟨hc, hbefore⟩ := List.forall_mem_cons.mp h
    rw [List.cons_append, firstMention_cons, mention_cons_of_ne hc, Option.none_or]
    exact ih hbefore

/-- The boilerplate phrase mentions no line, not even together with what follows it. -/
theorem firstMention_boilerplate_append (text : List Char) :
    firstMention (boilerplate.toList ++ text) = firstMention text := by
  have hphrase : boilerplate.toList =
      "This page contains the fo".toList ++ 'l' :: 'l' :: 'o' :: "wing errors:".toList := by decide
  have hfront : ∀ c ∈ "This page contains the fo".toList, c.toLower ≠ 'l' := by simp
  have hback : ∀ c ∈ "wing errors:".toList, c.toLower ≠ 'l' := by simp
  rw [hphrase, List.append_assoc, firstMention_append hfront]
  simp only [List.cons_append, firstMention_cons]
  rw [mention_cons_cons_of_ne (by decide), mention_cons_cons_of_ne (by decide),
    mention_cons_of_ne (by decide), Option.none_or, Option.none_or, Option.none_or,
    firstMention_append hback]

/-! ## The line -/

theorem ofText_of_ne {text : String} (h : text ≠ "") :
    ofText text = ⟨lineOf text.toList,
      String.ofList (trim (removeFirst boilerplate.toList text.toList))⟩ := by
  rw [ofText, if_neg h]

/-- The number of the first mention is the line, if it has ASCII digits only and fits. -/
theorem lineOf_of_isFirstMention {text digits : List Char} (h : IsFirstMention text digits) :
    lineOf text =
      if digits.all Char.isDigit = true ∧ Nat.ofDigitChars 10 digits 0 < UInt32.size then
        Nat.ofDigitChars 10 digits 0
      else 0 := by
  have hne : digits ≠ [] := by
    obtain ⟨_, _, ⟨_, _, _, _, hdigits, _, _⟩, _⟩ := h
    exact hdigits
  have hread : ∀ n, readBelow UInt32.size digits = some n ↔
      digits.all Char.isDigit = true ∧ Nat.ofDigitChars 10 digits 0 = n ∧ n < UInt32.size := by
    intro n
    rw [readBelow_eq_some_iff, and_iff_right hne, List.all_eq_true]
    rfl
  rw [lineOf, firstMention_eq_some_iff.mpr h, Option.bind_some]
  split
  · rename_i hfits
    rw [(hread _).mpr ⟨hfits.1, rfl, hfits.2⟩, Option.getD_some]
  · rename_i hunfit
    have hnone : readBelow UInt32.size digits = none := by
      rw [Option.eq_none_iff_forall_ne_some]
      intro n hn
      obtain ⟨hdigits, rfl, hbound⟩ := (hread n).mp hn
      exact hunfit ⟨hdigits, hbound⟩
    rw [hnone, Option.getD_none]

/-- **The line is the number of the leftmost mention.**  A text that is not empty has a first
mention or none at all.  The line is the value of the whole run of digits in the first mention,
if they are ASCII digits and the value fits in 32 bits, and else it is 0, whatever is mentioned
later; and it is 0 if there is no mention.  The phrase that is left out of messages, put in front
of a text without it, does not change the diagnosis. -/
theorem line_first_mentioned {text : String} (hne : text ≠ "") :
    ((∃ digits, IsFirstMention text.toList digits) ∨ Unmentioned text.toList) ∧
    (∀ digits, IsFirstMention text.toList digits →
      (ofText text).line =
        if digits.all Char.isDigit = true ∧ Nat.ofDigitChars 10 digits 0 < UInt32.size then
          Nat.ofDigitChars 10 digits 0
        else 0) ∧
    (Unmentioned text.toList → (ofText text).line = 0) ∧
    (¬ boilerplate.toList <:+: text.toList → ofText (boilerplate ++ text) = ofText text) := by
  refine ⟨exists_isFirstMention_or_unmentioned _, ?_, ?_, ?_⟩
  · intro digits hfirst
    rw [ofText_of_ne hne]
    exact lineOf_of_isFirstMention hfirst
  · intro hunmentioned
    rw [ofText_of_ne hne]
    show lineOf text.toList = 0
    rw [lineOf, firstMention_eq_none_iff.mpr hunmentioned]
    rfl
  · intro hphrase
    have hlonger : boilerplate ++ text ≠ "" := by
      intro h
      exact hne (String.append_eq_empty_iff.mp h).2
    have hline : lineOf (boilerplate ++ text).toList = lineOf text.toList := by
      rw [String.toList_append, lineOf, firstMention_boilerplate_append, ← lineOf]
    have hmessage : removeFirst boilerplate.toList (boilerplate ++ text).toList =
        removeFirst boilerplate.toList text.toList := by
      rw [String.toList_append, removeFirst_append_self (by decide), removeFirst_eq_self hphrase]
    rw [ofText_of_ne hlonger, ofText_of_ne hne, hline, hmessage]

/-- Two words that are followed by something else are no mentions, and the second mention is not
looked at. -/
theorem line_first_mentioned_late :
    let text := "lines 4, line: 5, LiNe\t\u00a00042nd, line 7"
    IsFirstMention text.toList "0042".toList ∧ (ofText text).line = 42 ∧
      ¬ boilerplate.toList <:+: text.toList ∧ ofText (boilerplate ++ text) = ofText text := by
  intro text
  have hfirst : IsFirstMention text.toList "0042".toList :=
    firstMention_eq_some_iff.mp (by decide +kernel)
  have hphrase : ¬ boilerplate.toList <:+: text.toList := by decide +kernel
  have hne : text ≠ "" := by decide +kernel
  obtain ⟨_, hline, _, hboilerplate⟩ := line_first_mentioned hne
  exact ⟨hfirst, (hline _ hfirst).trans (by decide +kernel), hphrase, hboilerplate hphrase⟩

/-- Digits of another script, and a number that is too large, hide the mentions behind them. -/
example : lineOf "line ٣٤, line 5".toList = 0 ∧
    lineOf "line 4294967298, line 7".toList = 0 := by decide +kernel

end MarkupDesk.Diagnosis
