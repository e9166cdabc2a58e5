import MarkupDesk.Data.Datum

/-!
# Tables of a TOML document

A TOML document defines its tables piece by piece, and may not define anything
twice.  How a table came about (its `Origin`) decides what may still be added to
it:

* one opened by its own header takes no dotted keys from elsewhere;
* one that is only implied by the header of a table inside it may get a header of
  its own, once;
* one made by a dotted key takes more dotted keys, but no header;
* one written in braces is complete as it stands.

The entries of a table are kept in the order of their definition.
-/
namespace MarkupDesk.Toml

/-- How a table came about. -/
inductive Origin where
  | header
  | implied
  | dotted
  | braces
  deriving DecidableEq, Repr

/-- What a key stands for. -/
inductive Item where
  /-- A single value. -/
  | single (value : Datum)
  /-- A list in brackets. -/
  | list (items : List Item)
  /-- A table. -/
  | table (origin : Origin) (entries : List (String × Item))
  /-- A sequence of tables with the same header, of which the latest is still open. -/
  | tables (earlier : List (List (String × Item))) (latest : List (String × Item))

/-- The entries of a table. -/
abbrev Entries := List (String × Item)

/-- Replaces the item of a key that has one. -/
def Entries.replace (key : String) (item : Item) (entries : Entries) : Entries :=
  entries.map fun e => if e.1 == key then (key, item) else e

/-- Adds a key that has no item yet. -/
def Entries.add (key : String) (item : Item) (entries : Entries) : Option Entries :=
  if (entries.lookup key).isSome then none else some (entries ++ [(key, item)])

/-- Gives an item to a dotted key.  The tables on the way are made if need be; the
last of them has to be one that dotted keys made, unless the key has one part. -/
def Entries.assign : List String → Item → Entries → Option Entries
  | [], _, _ => none
  | [key], item, entries => entries.add key item
  | key :: next :: rest, item, entries =>
    match entries.lookup key with
    | none => do
      let inner ← Entries.assign (next :: rest) item []
      some (entries ++ [(key, .table .dotted inner)])
    | some (.table origin inner) =>
      if origin = .dotted ∨ (origin = .implied ∧ rest ≠ []) then do
        let inner ← Entries.assign (next :: rest) item inner
        some (entries.replace key (.table origin inner))
      else none
    | some (.tables earlier latest) =>
      if rest = [] then none
      else do
        let latest ← Entries.assign (next :: rest) item latest
        some (entries.replace key (.tables earlier latest))
    | some _ => none

/-- Changes the table with this path by `change`, which is given the entries of its
parent and its key.  Tables on the way are implied if they are missing. -/
def Entries.openAt (change : String → Entries → Option Entries) :
    List String → Entries → Option Entries
  | [], _ => none
  | [key], entries => change key entries
  | key :: next :: rest, entries =>
    match entries.lookup key with
    | none => do
      let inner ← Entries.openAt change (next :: rest) []
      some (entries ++ [(key, .table .implied inner)])
    | some (.table origin inner) =>
      if origin = .braces then none
      else do
        let inner ← Entries.openAt change (next :: rest) inner
        some (entries.replace key (.table origin inner))
    | some (.tables earlier latest) => do
      let latest ← Entries.openAt change (next :: rest) latest
      some (entries.replace key (.tables earlier latest))
    | some _ => none

/-- Opens a table by its header. -/
def Entries.openTable (path : List String) (entries : Entries) : Option Entries :=
  Entries.openAt
    (fun key parent =>
      match parent.lookup key with
      | none => some (parent ++ [(key, .table .header [])])
      | some (.table .implied inner) => some (parent.replace key (.table .header inner))
      | some _ => none)
    path entries

/-- Opens the next table of a sequence by its header. -/
def Entries.openNext (path : List String) (entries : Entries) : Option Entries :=
  Entries.openAt
    (fun key parent =>
      match parent.lookup key with
      | none => some (parent ++ [(key, .tables [] [])])
      | some (.tables earlier latest) =>
        some (parent.replace key (.tables (earlier ++ [latest]) []))
      | some _ => none)
    path entries

/-- Changes the entries of the open table with this path. -/
def Entries.within (change : Entries → Option Entries) : List String → Entries → Option Entries
  | [], entries => change entries
  | key :: rest, entries =>
    match entries.lookup key with
    | some (.table origin inner) => do
      let inner ← Entries.within change rest inner
      some (entries.replace key (.table origin inner))
    | some (.tables earlier latest) => do
      let latest ← Entries.within change rest latest
      some (entries.replace key (.tables earlier latest))
    | _ => none

/-- The table that assignments in braces make. -/
def Item.ofAssignments (assignments : List (List String × Item)) : Option Item :=
  (assignments.foldlM (fun entries a => Entries.assign a.1 a.2 entries) []).map
    (Item.table .braces)

mutual

/-- The data that an item holds. -/
def Item.datum : Item → Datum
  | .single value => value
  | .list items => .list (itemData items)
  | .table _ entries => .record (entryData entries)
  | .tables earlier latest => .list (tableData earlier ++ [.record (entryData latest)])

/-- The data of the items of a list. -/
def itemData : List Item → List Datum
  | [] => []
  | i :: rest => i.datum :: itemData rest

/-- The fields of a table. -/
def entryData : List (String × Item) → List (Option String × Datum)
  | [] => []
  | (key, i) :: rest => (some key, i.datum) :: entryData rest

/-- The data of a sequence of tables. -/
def tableData : List (List (String × Item)) → List Datum
  | [] => []
  | entries :: rest => .record (entryData entries) :: tableData rest

end

end MarkupDesk.Toml
