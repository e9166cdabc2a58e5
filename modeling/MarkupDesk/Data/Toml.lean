import MarkupDesk.Data.Toml.Quoted
import MarkupDesk.Data.Toml.Table
import MarkupDesk.Data.Toml.Word

/-!
# TOML

`Toml.read` reads a TOML document as a record.  The document is a sequence of
lines, each of which assigns a value to a key of the table that is open, or opens
another table; `Entries` says which of these are allowed together.
-/
namespace MarkupDesk.Toml

/-- The text without blanks in front; line ends stay. -/
def skipSpace (s : List Char) : List Char := s.dropWhile fun c => c == ' ' || c == '\t'

/-- What follows a comment, if the text starts with one; the line end stays. -/
def afterComment? : List Char → Option (List Char)
  | '#' :: rest =>
    let isPart := fun c => c != '\n' && c != '\r'
    if (rest.takeWhile isPart).any isControl then none else some (rest.dropWhile isPart)
  | _ => none

/-- The text without blanks, line ends and comments in front. -/
def skipLines : (fuel : Nat) → List Char → List Char
  | 0, s => s
  | fuel + 1, s =>
    let s := skipSpace s
    match afterNewline? s with
    | some rest => skipLines fuel rest
    | none =>
      match afterComment? s with
      | some rest => skipLines fuel rest
      | none => s

/-- The text without everything in front that separates the parts of a value. -/
def skipAll (s : List Char) : List Char := skipLines (s.length + 1) s

/-- A character of a key without quotes. -/
def isKeyChar (c : Char) : Bool := c.isAlphanum || c == '_' || c == '-'

/-- Reads one part of a key. -/
def keyPart (s : List Char) : Option (String × List Char) :=
  let bare := s.takeWhile isKeyChar
  if bare.isEmpty then shortString s else some (String.ofList bare, s.dropWhile isKeyChar)

/-- Reads a key: parts with points between them. -/
def key : (fuel : Nat) → List Char → Option (List String × List Char)
  | 0, _ => none
  | fuel + 1, s => do
    let (part, rest) ← keyPart (skipSpace s)
    match skipSpace rest with
    | '.' :: more =>
      let (parts, after) ← key fuel more
      some (part :: parts, after)
    | after => some ([part], after)

/-- Reads a key and the equals sign after it; `skip` leaves out what may stand on either
side of the sign. -/
def keyOfAssignment (skip : List Char → List Char) (s : List Char) :
    Option (List String × List Char) := do
  let (path, rest) ← key (s.length + 1) s
  match skip rest with
  | '=' :: after => some (path, skip after)
  | _ => none

/-- How deep brackets and braces may be nested. -/
def nestingLimit : Nat := 80

mutual

/-- Reads a value in which brackets and braces are nested up to `depth`. -/
def value : (fuel depth : Nat) → List Char → Option (Item × List Char)
  | 0, _, _ => none
  | fuel + 1, depth, s =>
    match depth, s with
    | 0, '[' :: _ | 0, '\x7b' :: _ => none
    | inner + 1, '[' :: rest => do
      let (items, after) ← items fuel inner (skipAll rest)
      some (.list items, after)
    | inner + 1, '\x7b' :: rest => do
      let (assignments, after) ← assignments fuel inner (skipAll rest)
      let table ← Item.ofAssignments assignments
      some (table, after)
    | _, '"' :: _ | _, '\'' :: _ => do
      let (text, after) ← anyString s
      some (.single (.text (some text)), after)
    | _, _ => do
      let (word, after) := bareWord s
      let d ← wordValue word
      some (.single d, after)

/-- Reads the items of a list up to its closing bracket; a comma may follow the last. -/
def items : (fuel depth : Nat) → List Char → Option (List Item × List Char)
  | 0, _, _ => none
  | _, _, ']' :: after => some ([], after)
  | fuel + 1, depth, s => do
    let (first, rest) ← value fuel depth s
    match skipAll rest with
    | ',' :: more =>
      let (others, after) ← items fuel depth (skipAll more)
      some (first :: others, after)
    | ']' :: after => some ([first], after)
    | _ => none

/-- Reads the assignments of a table in braces up to its closing brace; a comma may
follow the last.  Lines may end anywhere but inside a key. -/
def assignments : (fuel depth : Nat) → List Char → Option (List (List String × Item) × List Char)
  | 0, _, _ => none
  | _, _, '\x7d' :: after => some ([], after)
  | fuel + 1, depth, s => do
    let (path, rest) ← keyOfAssignment skipAll s
    let (first, rest) ← value fuel depth rest
    match skipAll rest with
    | ',' :: more =>
      let (others, after) ← assignments fuel depth (skipAll more)
      some ((path, first) :: others, after)
    | '\x7d' :: after => some ([(path, first)], after)
    | _ => none

end

/-- A line of a document that says something. -/
inductive Statement where
  | assign (path : List String) (item : Item)
  | openTable (path : List String)
  | openNext (path : List String)

/-- Reads the statement at the front of a text. -/
def statement (s : List Char) : Option (Statement × List Char) :=
  match s with
  | '[' :: '[' :: rest => do
    let (path, rest) ← key (rest.length + 1) rest
    match rest with
    | ']' :: ']' :: after => some (.openNext path, after)
    | _ => none
  | '[' :: rest => do
    let (path, rest) ← key (rest.length + 1) rest
    match rest with
    | ']' :: after => some (.openTable path, after)
    | _ => none
  | _ => do
    let (path, rest) ← keyOfAssignment skipSpace s
    let (item, after) ← value (2 * rest.length + 2) nestingLimit rest
    some (.assign path item, after)

/-- What follows the end of a line: blanks, perhaps a comment, and a line end or the end
of the text. -/
def afterLine? (s : List Char) : Option (List Char) :=
  let s := skipSpace s
  let s := (afterComment? s).getD s
  if s.isEmpty then some [] else afterNewline? s

/-- Reads the statements of a document, one to a line. -/
def statements : (fuel : Nat) → List Char → Option (List Statement)
  | 0, _ => none
  | fuel + 1, s =>
    match skipAll s with
    | [] => some []
    | first => do
      let (st, rest) ← statement first
      let after ← afterLine? rest
      let others ← statements fuel after
      some (st :: others)

/-- A document while it is read: the path of the open table, and all entries. -/
structure Progress where
  path : List String
  entries : Entries

/-- Carries out a statement. -/
def Progress.step (p : Progress) : Statement → Option Progress
  | .assign path item => do
    let entries ← p.entries.within (Entries.assign path item) p.path
    some ⟨p.path, entries⟩
  | .openTable path => do
    let entries ← p.entries.openTable path
    some ⟨path, entries⟩
  | .openNext path => do
    let entries ← p.entries.openNext path
    some ⟨path, entries⟩

/-- Reads a document; a byte order mark in front of it is left out. -/
def read (text : String) : Option Datum := do
  let s :=
    match text.toList with
    | '\uFEFF' :: rest => rest
    | s => s
  let sts ← statements (s.length + 1) s
  let final ← sts.foldlM Progress.step ⟨[], []⟩
  some (.record (entryData final.entries))

end MarkupDesk.Toml
