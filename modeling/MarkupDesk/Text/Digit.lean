/-!
# Digits

Decimal digits of every script are the characters of the Unicode category
"decimal number" (Nd).  They come in runs of ten consecutive code points, one run
per script (and five runs in the block of mathematical digits), so the table holds
the first code point of each run.  Only the ASCII run has a value for this library:
a number written with any other digit is recognised as digits and then read as no
number.

Hexadecimal digits are the ASCII ones, in either case.
-/
namespace MarkupDesk.Text

/-- The code points at which a run of ten decimal digits starts. -/
def digitRuns : List Nat :=
  [0x30, 0x660, 0x6F0, 0x7C0, 0x966, 0x9E6, 0xA66, 0xAE6, 0xB66, 0xBE6, 0xC66, 0xCE6, 0xD66,
   0xDE6, 0xE50, 0xED0, 0xF20, 0x1040, 0x1090, 0x17E0, 0x1810, 0x1946, 0x19D0, 0x1A80, 0x1A90,
   0x1B50, 0x1BB0, 0x1C40, 0x1C50, 0xA620, 0xA8D0, 0xA900, 0xA9D0, 0xA9F0, 0xAA50, 0xABF0,
   0xFF10, 0x104A0, 0x10D30, 0x10D40, 0x11066, 0x110F0, 0x11136, 0x111D0, 0x112F0, 0x11450,
   0x114D0, 0x11650, 0x116C0, 0x116D0, 0x116DA, 0x11730, 0x118E0, 0x11950, 0x11BF0, 0x11C50,
   0x11D50, 0x11DA0, 0x11F50, 0x16130, 0x16A60, 0x16AC0, 0x16B50, 0x16D70, 0x1CCF0, 0x1D7CE,
   0x1D7D8, 0x1D7E2, 0x1D7EC, 0x1D7F6, 0x1E140, 0x1E2F0, 0x1E4F0, 0x1E5F1, 0x1E950, 0x1FBF0]

/-- A decimal digit of any script. -/
def isDecimalDigit (c : Char) : Bool :=
  digitRuns.any fun start => start ≤ c.toNat && c.toNat < start + 10

/-- The core library's digits are the first run of the table. -/
theorem isDecimalDigit_of_isDigit {c : Char} (h : c.isDigit = true) :
    isDecimalDigit c = true := by
  have h1 : 48 ≤ c.toNat ∧ c.toNat ≤ 57 := by
    simpa [Char.isDigit, UInt32.le_iff_toNat_le] using h
  simp only [isDecimalDigit, digitRuns, List.any_cons, Bool.or_eq_true, Bool.and_eq_true,
    decide_eq_true_eq]
  left
  omega

/-- The value of a run of ASCII digits, most significant first. -/
def decimalValue (digits : List Char) : Nat :=
  digits.foldl (fun n c => 10 * n + (c.toNat - 48)) 0

/-- Reads an unsigned number below `bound` that is written with ASCII digits
alone; leading zeros are allowed, the empty text is no number. -/
def readBelow (bound : Nat) (digits : List Char) : Option Nat :=
  if !digits.isEmpty && digits.all Char.isDigit && decimalValue digits < bound then
    some (decimalValue digits)
  else none

/-- Reads an unsigned number of 64 bits; a plus sign may stand in front. -/
def readCount (s : String) : Option Nat :=
  match s.toList with
  | '+' :: digits => readBelow UInt64.size digits
  | digits => readBelow UInt64.size digits

/-! ## Hexadecimal digits -/

/-- The value of a hexadecimal digit. -/
def hexValue? (c : Char) : Option Nat :=
  if c.isDigit then some (c.toNat - 48)
  else if 'a' ≤ c ∧ c ≤ 'f' then some (c.toNat - 87)
  else if 'A' ≤ c ∧ c ≤ 'F' then some (c.toNat - 55)
  else none

/-- The number that hexadecimal digits write. -/
def hexNumber? (digits : List Char) : Option Nat :=
  digits.foldlM (fun n c => (hexValue? c).map (16 * n + ·)) 0

example : isDecimalDigit '٣' = true ∧ readBelow 100 ['٣'] = none := by decide
example : readBelow UInt32.size "007".toList = some 7 := by decide

end MarkupDesk.Text
