import MarkupDesk.Number.Binary

/-!
# Data

The common shape of what a data file or a reply holds, whichever notation it was
written in.  A record keeps its fields in the order written, repeated ones
included: whether a repetition matters depends on who reads the record.

Some things that a notation can write are no data of the usual kind and are kept
as gaps: a text with half a surrogate pair in it (`text none`), and a number
beyond the range of 64-bit floating point (`real none`).  Only a reader that asks
for the value finds out.  What is `unreadable` is a hindrance even to a reader that
goes past it (`isPassable`).

`Datum.fields` reads a record by its field names.
-/
namespace MarkupDesk

open Number

/-- A value of a data file. -/
inductive Datum where
  | null
  | bool (value : Bool)
  | integer (value : Int)
  | real (value : Option Binary)
  | unreadable
  | text (value : Option String)
  | list (items : List Datum)
  | record (fields : List (Option String × Datum))

namespace Datum

/-- How a list is read where a record is wanted: its items are the fields in order.
Further items are refused or left out. -/
inductive Surplus where
  | refused
  | ignored
  deriving DecidableEq, Repr

mutual

/-- Whether a reader can go past a value that it does not ask for. -/
def isPassable : Datum → Bool
  | .unreadable => false
  | .list items => allPassable items
  | .record fields => fieldsPassable fields
  | _ => true

/-- Whether a reader can go past all items of a list. -/
def allPassable : List Datum → Bool
  | [] => true
  | d :: rest => d.isPassable && allPassable rest

/-- Whether a reader can go past all fields of a record. -/
def fieldsPassable : List (Option String × Datum) → Bool
  | [] => true
  | (_, d) :: rest => d.isPassable && fieldsPassable rest

end

/-- The value of the field with this name: none if it is missing, a failure if it is
given twice. -/
def field? (name : String) (fields : List (Option String × Datum)) : Option (Option Datum) :=
  match fields.filter (fun f => f.1 == some name) with
  | [] => some none
  | [f] => some (some f.2)
  | _ => none

/-- The values of the named fields, in the order of the names.  Fields with other
names are left out: every name has to be a text, and the reader has to get past the
values.  Items of a list that are left out are not looked at. -/
def fields (surplus : Surplus) (names : List String) : Datum → Option (List (Option Datum))
  | .record fs =>
    let others := fs.filter fun f => !f.1.any names.contains
    if fs.any (·.1.isNone) || !fieldsPassable others then none else names.mapM (field? · fs)
  | .list items =>
    if surplus = .refused ∧ names.length < items.length then none
    else some ((List.range names.length).map (items[·]?))
  | _ => none

/-! ## Reading single values -/

/-- Reads a text. -/
def text? : Datum → Option String
  | .text s => s
  | _ => none

/-- Reads a truth value. -/
def bool? : Datum → Option Bool
  | .bool b => some b
  | _ => none

/-- Reads a whole number from 0 up to, but not including, `bound`. -/
def below? (bound : Nat) : Datum → Option Nat
  | .integer i => if 0 ≤ i ∧ i < bound then some i.toNat else none
  | _ => none

/-- Reads a number as a single-precision one.  A whole number is rounded once, any
other number by way of double precision. -/
def single? : Datum → Option Binary
  | .integer i =>
    if -(UInt64.size / 2 : Nat) ≤ i ∧ i < UInt64.size then some (single.ofInt i) else none
  | .real value => value.map (Binary.inFormat single)
  | _ => none

/-- Reads a value that may also be null. -/
def optional? {α : Type} (read : Datum → Option α) : Datum → Option (Option α)
  | .null => some none
  | d => (read d).map some

/-- Reads a list. -/
def list? {α : Type} (read : Datum → Option α) : Datum → Option (List α)
  | .list items => items.mapM read
  | _ => none

/-- Reads a field that may be missing. -/
def orElse {α : Type} (absent : α) (read : Datum → Option α) : Option Datum → Option α
  | none => some absent
  | some d => read d

end Datum
end MarkupDesk
