/-!
# UTF-16

A character above U+FFFF is written in UTF-16 as a pair of units, a high half and a
low half (`joined`); any other character is one unit.

`decodeLossy` reads bytes as units, two bytes to a unit in either order.  Half of a
pair that stands alone becomes one replacement character, and so does whatever is
unfinished where the bytes end.
-/
namespace MarkupDesk.Text.Utf16

/-- Whether a unit is the high half of a pair. -/
def isHighHalf (unit : Nat) : Bool := 0xD800 ≤ unit && unit < 0xDC00

/-- Whether a unit is the low half of a pair. -/
def isLowHalf (unit : Nat) : Bool := 0xDC00 ≤ unit && unit < 0xE000

/-- The character that a pair stands for. -/
def joined (high low : Nat) : Char :=
  Char.ofNat (0x10000 + (high - 0xD800) * 0x400 + (low - 0xDC00))

/-- Which byte of a unit comes first. -/
inductive ByteOrder where
  | highFirst
  | lowFirst
  deriving DecidableEq, Repr

/-- The unit that two bytes make. -/
def ByteOrder.unit (order : ByteOrder) (first second : UInt8) : Nat :=
  match order with
  | .highFirst => first.toNat * 256 + second.toNat
  | .lowFirst => second.toNat * 256 + first.toNat

/-- The units of a byte sequence, without a single byte at its end. -/
def units (order : ByteOrder) : List UInt8 → List Nat
  | a :: b :: rest => order.unit a b :: units order rest
  | _ => []

/-- The characters of units; `odd` says whether a single byte follows them. -/
def characters (odd : Bool) : List Nat → List Char
  | [] => if odd then ['\uFFFD'] else []
  | u :: rest =>
    if isHighHalf u then
      match rest with
      | [] => ['\uFFFD']
      | v :: tail =>
        if isLowHalf v then joined u v :: characters odd tail
        else '\uFFFD' :: characters odd (v :: tail)
    else (if isLowHalf u then '\uFFFD' else Char.ofNat u) :: characters odd rest

/-- The lossy reading of a byte sequence. -/
def decodeLossy (order : ByteOrder) (bytes : List UInt8) : String :=
  String.ofList (characters (bytes.length % 2 == 1) (units order bytes))

example : decodeLossy .highFirst [0xDC, 0, 0xD8, 0x3D, 0xDE, 0] = "\uFFFD😀" := by decide
example : decodeLossy .lowFirst [0x3D, 0xD8, 0x41, 0, 0x3D, 0xD8, 0] = "\uFFFDA\uFFFD" := by decide

end MarkupDesk.Text.Utf16
