/-!
# Blank characters

A character is **blank** when it has the Unicode property White_Space.  The
documents of this library are read with that notion throughout: the gaps
between tags, the blank input that an operation declines, and the edges that
`trim` takes off a text are all made of blank characters.

The core library has a class of its own for whitespace, which holds ASCII characters only.
-/
namespace MarkupDesk.Text

/-- The property White_Space: the ASCII controls from tab to carriage return,
space, next line, no-break space, and the spaces and separators of the other
blocks. -/
def isBlank (c : Char) : Bool :=
  let n := c.toNat
  (0x9 ≤ n && n ≤ 0xD) || n == 0x20 || n == 0x85 || n == 0xA0 || n == 0x1680 ||
    (0x2000 ≤ n && n ≤ 0x200A) || n == 0x2028 || n == 0x2029 || n == 0x202F ||
    n == 0x205F || n == 0x3000

/-! ## Trimming -/

/-- The text without its leading blanks. -/
def trimStart (s : List Char) : List Char := s.dropWhile isBlank

/-- The text without its trailing blanks. -/
def trimEnd (s : List Char) : List Char := (s.reverse.dropWhile isBlank).reverse

/-- The text without the blanks at either end. -/
def trim (s : List Char) : List Char := trimEnd (trimStart s)

/-- The string without the blanks at either end. -/
def trimmed (s : String) : String := String.ofList (trim s.toList)

/-- A string of blanks only, the empty string included. -/
def isBlankText (s : String) : Bool := s.toList.all isBlank

/-- Dropping blanks leaves nothing exactly when there is nothing else. -/
theorem dropWhile_isBlank_eq_nil_iff {s : List Char} :
    s.dropWhile isBlank = [] ↔ s.all isBlank = true := by
  induction s with
  | nil => simp
  | cons c r ih => cases h : isBlank c <;> simp [h, ih]

theorem trim_eq_nil_iff {s : List Char} : trim s = [] ↔ s.all isBlank = true := by
  have hrest : (trimStart s).all isBlank = true ↔ trimStart s = [] := by
    constructor
    · intro h
      cases hs : trimStart s with
      | nil => rfl
      | cons c r =>
        have hc : isBlank c = true := by simp [hs] at h; exact h.1
        have := List.head?_dropWhile_not isBlank s
        simp only [trimStart] at hs
        simp [hs, hc] at this
    · intro h; simp [h]
  rw [trim, trimEnd, List.reverse_eq_nil_iff, dropWhile_isBlank_eq_nil_iff, List.all_reverse,
    hrest, trimStart, dropWhile_isBlank_eq_nil_iff]

@[simp] theorem toList_trimmed (s : String) : (trimmed s).toList = trim s.toList := by
  simp [trimmed]

/-- A text is blank exactly when trimming leaves nothing. -/
theorem trimmed_eq_empty_iff {s : String} : trimmed s = "" ↔ isBlankText s = true := by
  rw [← String.toList_inj, toList_trimmed, isBlankText, ← trim_eq_nil_iff]
  simp

end MarkupDesk.Text
