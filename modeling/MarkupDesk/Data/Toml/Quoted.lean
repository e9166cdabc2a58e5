import MarkupDesk.Text.Digit

/-!
# The strings of a TOML document

A string stands in double quotes and has escapes, or in single quotes and has none;
with three quotes on either side it may go over several lines.  Each reader takes
what it reads off the front of a text and gives back the rest.
-/
namespace MarkupDesk.Toml

open Text

/-- A character that may not stand in a comment or a string: the ASCII controls except
tab.  Line ends are treated apart. -/
def isControl (c : Char) : Bool := (c.toNat < 0x20 && c != '\t') || c.toNat == 0x7F

/-- What follows a line end, if the text starts with one. -/
def afterNewline? : List Char → Option (List Char)
  | '\n' :: rest => some rest
  | '\r' :: '\n' :: rest => some rest
  | _ => none

/-- The character with this number, if there is one. -/
def scalar? (n : Nat) : Option Char := if n.isValidChar then some (Char.ofNat n) else none

/-- Reads the number of a character in as many hexadecimal digits as `count` says. -/
def hexEscape (count : Nat) (s : List Char) : Option (Char × List Char) := do
  let digits := s.take count
  if digits.length < count then none
  else
    let c ← (hexNumber? digits).bind scalar?
    some (c, s.drop count)

/-- Reads an escape after its backslash. -/
def escapeAfter : List Char → Option (Char × List Char)
  | [] => none
  | c :: rest =>
    match c with
    | 'b' => some ('\x08', rest)
    | 't' => some ('\t', rest)
    | 'n' => some ('\n', rest)
    | 'f' => some ('\x0C', rest)
    | 'r' => some ('\r', rest)
    | 'e' => some ('\x1B', rest)
    | '"' => some ('"', rest)
    | '\\' => some ('\\', rest)
    | 'x' => hexEscape 2 rest
    | 'u' => hexEscape 4 rest
    | 'U' => hexEscape 8 rest
    | _ => none

/-- Reads the rest of a string on one line, after its opening quote, with escapes. -/
def basicBody : (fuel : Nat) → List Char → Option (List Char × List Char)
  | 0, _ => none
  | _, [] => none
  | fuel + 1, c :: rest =>
    if c = '"' then some ([], rest)
    else if c = '\\' then do
      let (e, tail) ← escapeAfter rest
      let (cs, after) ← basicBody fuel tail
      some (e :: cs, after)
    else if isControl c then none
    else do
      let (cs, after) ← basicBody fuel rest
      some (c :: cs, after)

/-- Reads the rest of a string on one line, after its opening quote, without escapes. -/
def literalBody : List Char → Option (List Char × List Char)
  | [] => none
  | c :: rest =>
    if c = '\'' then some ([], rest)
    else if isControl c then none
    else do
      let (cs, after) ← literalBody rest
      some (c :: cs, after)

/-- The end of a string on several lines: three quotes, of which up to two more may
stand in front as part of the string.  Gives the number of those, and the rest. -/
def closingQuotes (quote : Char) (s : List Char) : Option (Nat × List Char) :=
  let run := (s.takeWhile (· == quote)).length
  if run < 3 then none else some (min (run - 3) 2, s.drop (min (run - 3) 2 + 3))

/-- The text without blanks and line ends in front.  A carriage return that ends no line
stays. -/
def dropBlankLines : List Char → List Char
  | ' ' :: rest | '\t' :: rest | '\n' :: rest | '\r' :: '\n' :: rest => dropBlankLines rest
  | s => s

/-- What follows a backslash at the end of a line, with the blanks and line ends that it
swallows. -/
def afterContinuation? (s : List Char) : Option (List Char) :=
  (afterNewline? (s.dropWhile fun c => c == ' ' || c == '\t')).map dropBlankLines

/-- Reads the rest of a string on several lines, with or without escapes. -/
def longBody (quote : Char) (escapes : Bool) :
    (fuel : Nat) → List Char → Option (List Char × List Char)
  | 0, _ => none
  | _, [] => none
  | fuel + 1, c :: rest => do
    match closingQuotes quote (c :: rest) with
    | some (extra, after) => some (List.replicate extra quote, after)
    | none =>
      if escapes ∧ c = '\\' then
        match afterContinuation? rest with
        | some tail => longBody quote escapes fuel tail
        | none =>
          let (e, tail) ← escapeAfter rest
          let (cs, after) ← longBody quote escapes fuel tail
          some (e :: cs, after)
      else
        match afterNewline? (c :: rest) with
        | some tail =>
          let (cs, after) ← longBody quote escapes fuel tail
          some ((c :: rest).take (rest.length + 1 - tail.length) ++ cs, after)
        | none =>
          if isControl c then none
          else
            let (cs, after) ← longBody quote escapes fuel rest
            some (c :: cs, after)

/-- The text without a line end directly after the opening quotes. -/
def dropFirstNewline (s : List Char) : List Char := (afterNewline? s).getD s

/-- Reads a string on one line. -/
def shortString (s : List Char) : Option (String × List Char) := do
  let (cs, after) ←
    match s with
    | '"' :: rest => basicBody (rest.length + 1) rest
    | '\'' :: rest => literalBody rest
    | _ => none
  some (String.ofList cs, after)

/-- Reads a string of any form. -/
def anyString (s : List Char) : Option (String × List Char) :=
  let long := fun quote escapes rest => do
    let body := dropFirstNewline rest
    let (cs, after) ← longBody quote escapes (body.length + 1) body
    some (String.ofList cs, after)
  match s with
  | '"' :: '"' :: '"' :: rest => long '"' true rest
  | '\'' :: '\'' :: '\'' :: rest => long '\'' false rest
  | _ => shortString s

end MarkupDesk.Toml
