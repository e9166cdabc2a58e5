import MarkupDesk.Proofs.Diagnosis.Mention

/-!
# The line of a diagnosis

A text that puts its place in front has the line of this place: where "line", a blank and a
number stand behind words without an l, they are the first mention of a line, and whatever
follows the number is not looked at (`lineOf_append`).  The number comes out as it was
written, if it fits (`readBelow_toDigits`).
-/
namespace MarkupDesk

namespace Text

theorem decimalValue_toDigits (n : Nat) : decimalValue (Nat.toDigits 10 n) = n :=
  Nat.ofDigitChars_toDigits (by decide) (by decide)

theorem isDigit_of_mem_toDigits {n : Nat} {c : Char} (h : c ∈ Nat.toDigits 10 n) :
    c.isDigit = true :=
  Nat.isDigit_of_mem_toDigits (by decide) (by decide) h

/-- **A number that is written out is read back**, if it is below the bound. -/
theorem readBelow_toDigits {bound n : Nat} (h : n < bound) :
    readBelow bound (Nat.toDigits 10 n) = some n :=
  readBelow_eq_some_iff.mpr ⟨Nat.toDigits_ne_nil, fun _ hc => isDigit_of_mem_toDigits hc,
    decimalValue_toDigits n, h⟩

end Text

namespace Diagnosis

open Text

/-- The word, a blank and digits are a mention, which ends with the digits. -/
theorem mention_line {digits rest : List Char} (hne : digits ≠ [])
    (hdigits : ∀ c ∈ digits, c.isDigit = true)
    (hrest : ∀ c ∈ rest.head?, isDecimalDigit c = false) :
    mention ('l' :: 'i' :: 'n' :: 'e' :: ' ' :: (digits ++ rest)) = some digits := by
  have hword : "line".toList.map Char.toLower = "line".toList := by decide
  have hblank : ∀ c ∈ [' '], isBlank c = true := List.forall_mem_singleton.mpr (by decide)
  rw [mention_eq_some_iff]
  exact @Mentions.intro "line".toList [' '] digits rest hword (List.cons_ne_nil _ _) hblank hne
    (fun c hc => isDecimalDigit_of_isDigit (hdigits c hc)) hrest

/-- **The number that the first mention writes is the line**, whatever follows it. -/
theorem lineOf_append {before rest : List Char} {n : Nat}
    (hbefore : ∀ c ∈ before, c.toLower ≠ 'l')
    (hrest : ∀ c ∈ rest.head?, isDecimalDigit c = false) (hn : n < UInt32.size) :
    lineOf (before ++ 'l' :: 'i' :: 'n' :: 'e' :: ' ' :: (Nat.toDigits 10 n ++ rest)) = n := by
  have hmention : mention ('l' :: 'i' :: 'n' :: 'e' :: ' ' :: (Nat.toDigits 10 n ++ rest)) =
      some (Nat.toDigits 10 n) :=
    mention_line Nat.toDigits_ne_nil (fun c hc => isDigit_of_mem_toDigits hc) hrest
  rw [lineOf, firstMention_append hbefore, firstMention, hmention]
  show (readBelow UInt32.size (Nat.toDigits 10 n)).getD 0 = n
  rw [readBelow_toDigits hn]
  rfl

end Diagnosis
end MarkupDesk
