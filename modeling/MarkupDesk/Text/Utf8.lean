/-!
# UTF-8

Strict decoding is the core library's (`decode?`).  This module adds what is
needed for bytes that are no UTF-8: where and how they go wrong (`firstFault`),
and the lossy reading in which every maximal ill-formed sequence becomes one
replacement character (`decodeLossy`).

Both rest on `next`, which reads one character from the front of a byte
sequence.  A lead byte restricts the byte after it (no overlong form, no
surrogate, nothing above U+10FFFF); an ill-formed sequence ends before the first
byte that cannot continue it.
-/
namespace MarkupDesk.Text.Utf8

/-- What a byte sequence starts with. -/
inductive Next where
  /-- Nothing: the sequence is empty. -/
  | done
  /-- A character, and the bytes after it. -/
  | char (c : Char) (rest : List UInt8)
  /-- Ill-formed bytes, and those after them. -/
  | illFormed (length : Nat) (rest : List UInt8)
  /-- The beginning of a character that the sequence does not finish. -/
  | cutShort

/-- A byte that continues a character. -/
def isContinuation (b : UInt8) : Bool := 0x80 ≤ b && b ≤ 0xBF

/-- The range of the second byte after this lead byte, for a character of two or
more bytes. -/
def secondRange (lead : UInt8) : Option (UInt8 × UInt8) :=
  if 0xC2 ≤ lead && lead ≤ 0xDF then some (0x80, 0xBF)
  else if lead == 0xE0 then some (0xA0, 0xBF)
  else if lead == 0xED then some (0x80, 0x9F)
  else if 0xE1 ≤ lead && lead ≤ 0xEF then some (0x80, 0xBF)
  else if lead == 0xF0 then some (0x90, 0xBF)
  else if 0xF1 ≤ lead && lead ≤ 0xF3 then some (0x80, 0xBF)
  else if lead == 0xF4 then some (0x80, 0x8F)
  else none

/-- The low six bits of a continuation byte. -/
def low (b : UInt8) : Nat := b.toNat % 64

/-- Reads one character. -/
def next : List UInt8 → Next
  | [] => .done
  | a :: rest =>
    if a < 0x80 then .char (Char.ofNat a.toNat) rest
    else
      match secondRange a, rest with
      | none, _ => .illFormed 1 rest
      | some _, [] => .cutShort
      | some (lo, hi), b :: rest₁ =>
        if !(lo ≤ b && b ≤ hi) then .illFormed 1 rest
        else if a < 0xE0 then
          .char (Char.ofNat (a.toNat % 32 * 64 + low b)) rest₁
        else
          match rest₁ with
          | [] => .cutShort
          | c :: rest₂ =>
            if !isContinuation c then .illFormed 2 rest₁
            else if a < 0xF0 then
              .char (Char.ofNat ((a.toNat % 16 * 64 + low b) * 64 + low c)) rest₂
            else
              match rest₂ with
              | [] => .cutShort
              | d :: rest₃ =>
                if !isContinuation d then .illFormed 3 rest₂
                else
                  .char (Char.ofNat (((a.toNat % 8 * 64 + low b) * 64 + low c) * 64 + low d))
                    rest₃

/-- How a byte sequence first departs from UTF-8: after how many well-formed bytes,
and how many bytes are ill-formed there, unless the sequence just ends too soon. -/
structure Fault where
  index : Nat
  length? : Option Nat
  deriving DecidableEq, Repr

/-- The wording of a fault. -/
def Fault.message (f : Fault) : String :=
  match f.length? with
  | some n => s!"invalid utf-8 sequence of {n} bytes from index {f.index}"
  | none => s!"incomplete utf-8 byte sequence from index {f.index}"

/-- Looks for a fault in bytes of which `index` have been read, reading at most
`fuel` characters. -/
def faultFrom : (fuel index : Nat) → List UInt8 → Option Fault
  | 0, _, _ => none
  | fuel + 1, index, bytes =>
    match next bytes with
    | .done => none
    | .char c rest => faultFrom fuel (index + c.utf8Size) rest
    | .illFormed n _ => some ⟨index, some n⟩
    | .cutShort => some ⟨index, none⟩

/-- The first fault of a byte sequence. -/
def firstFault (bytes : List UInt8) : Option Fault := faultFrom (bytes.length + 1) 0 bytes

/-- Reads at most `fuel` characters, the ill-formed sequences as replacement
characters. -/
def lossyFrom : (fuel : Nat) → List UInt8 → List Char
  | 0, _ => []
  | fuel + 1, bytes =>
    match next bytes with
    | .done => []
    | .char c rest => c :: lossyFrom fuel rest
    | .illFormed _ rest => '\uFFFD' :: lossyFrom fuel rest
    | .cutShort => ['\uFFFD']

/-- The lossy reading of a byte sequence. -/
def decodeLossy (bytes : List UInt8) : String :=
  String.ofList (lossyFrom (bytes.length + 1) bytes)

/-- The string that the bytes encode, if they are UTF-8. -/
def decode? (bytes : ByteArray) : Option String := String.fromUTF8? bytes

/-- The bytes of a string. -/
def encode (text : String) : ByteArray := text.toUTF8

@[simp] theorem decode?_encode (text : String) : decode? (encode text) = some text := by
  simp only [decode?, encode, String.fromUTF8?, String.toUTF8_eq_toByteArray,
    dif_pos text.isValidUTF8]
  rfl

example : decodeLossy [0x3C, 0xFF, 0xE2, 0x82, 0x3E] = "<\uFFFD\uFFFD>" := by decide
example : firstFault [0x3C, 0xC3] = some ⟨1, none⟩ := by decide

end MarkupDesk.Text.Utf8
