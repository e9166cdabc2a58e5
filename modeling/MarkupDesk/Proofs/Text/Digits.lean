import MarkupDesk.Text.Blank
import MarkupDesk.Text.Digit

/-!
# Numbers in digits

When a text writes a number: it has ASCII digits only, at least one, and their value is below
a bound.  A text that writes a number of 64 bits may begin with a plus sign (`WritesCount`), and
such texts are the ones that are read as one (`readCount_eq_some_iff`).  No digit of any script is
a blank.
-/
namespace MarkupDesk.Text

/-- The text writes this number of 64 bits: in ASCII digits, with or without a plus sign. -/
def WritesCount (s : String) (n : Nat) : Prop :=
  ∃ digits, (s.toList = digits ∨ s.toList = '+' :: digits) ∧ digits ≠ [] ∧
    (∀ c ∈ digits, c.isDigit = true) ∧ decimalValue digits = n ∧ n < UInt64.size

theorem isBlank_eq_false_of_isDecimalDigit {c : Char} (h : isDecimalDigit c = true) :
    isBlank c = false := by
  -- The runs of digits lie between the blanks.
  have hruns : ∀ start ∈ digitRuns, start = 0x30 ∨ (0x660 ≤ start ∧ start + 10 ≤ 0x1680) ∨
      (0x1680 < start ∧ start + 10 ≤ 0x2000) ∨ 0x3000 < start := by decide
  obtain ⟨start, hstart, hc⟩ := List.any_eq_true.mp h
  have hrun := hruns start hstart
  simp only [Bool.and_eq_true, decide_eq_true_eq] at hc
  simp only [isBlank, Bool.or_eq_false_iff, Bool.and_eq_false_iff, decide_eq_false_iff_not,
    beq_eq_false_iff_ne]
  omega

theorem readBelow_eq_some_iff {bound n : Nat} {digits : List Char} :
    readBelow bound digits = some n ↔
      digits ≠ [] ∧ (∀ c ∈ digits, c.isDigit = true) ∧ decimalValue digits = n ∧ n < bound := by
  unfold readBelow
  split
  · rename_i h
    simp only [Bool.and_eq_true, Bool.not_eq_true', List.isEmpty_eq_false_iff, List.all_eq_true,
      decide_eq_true_eq] at h
    constructor
    · rintro ⟨⟩
      exact ⟨h.1.1, h.1.2, rfl, h.2⟩
    · rintro ⟨_, _, rfl, _⟩
      rfl
  · rename_i h
    simp only [Bool.and_eq_true, Bool.not_eq_true', List.isEmpty_eq_false_iff, List.all_eq_true,
      decide_eq_true_eq] at h
    constructor
    · rintro ⟨⟩
    · rintro ⟨hnonempty, hdigits, rfl, hbound⟩
      exact absurd ⟨⟨hnonempty, hdigits⟩, hbound⟩ h

theorem readCount_eq_some_iff {s : String} {n : Nat} :
    readCount s = some n ↔ WritesCount s n := by
  unfold readCount WritesCount
  split
  · rename_i digits hs
    rw [readBelow_eq_some_iff, hs]
    constructor
    · exact fun h => ⟨digits, .inr rfl, h⟩
    · rintro ⟨digits', hplain | hsigned, h⟩
      · -- A plus sign is no digit.
        subst hplain
        exact absurd (h.2.1 '+' (List.mem_cons_self ..)) (by decide)
      · cases hsigned
        exact h
  · rename_i digits hplus
    rw [readBelow_eq_some_iff]
    constructor
    · exact fun h => ⟨s.toList, .inl rfl, h⟩
    · rintro ⟨digits', rfl | hsigned, h⟩
      · exact h
      · exact (hplus _ hsigned).elim

end MarkupDesk.Text
