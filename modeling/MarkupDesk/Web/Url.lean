import MarkupDesk.Text.Digit
import MarkupDesk.Text.Utf8

/-!
# Web addresses

An address is read into the parts that a request needs: whether the connection is
encrypted, the host with its port, and the target, which is the path and the query
as they are sent.  Reading follows the rules that browsers use: blanks around the
address and line ends in it are left out, backslashes count as slashes, the parts
`.` and `..` of the path are resolved, and characters that may not stand in a target
are replaced by the percent-encoded bytes of their UTF-8 form.  What follows a `#`
is not sent, but counts for the length that an address may have.
-/
namespace MarkupDesk.Web

open Text

/-- A web address. -/
structure Url where
  encrypted : Bool
  host : String
  port : Nat
  target : String
  deriving DecidableEq, Repr

namespace Url

/-- The percent-encoded bytes of a character, with capital letters for digits. -/
def percentEncode (c : Char) : List Char :=
  (Utf8.encode (String.singleton c)).data.toList.flatMap fun b =>
    ['%', (b.toNat / 16).digitChar.toUpper, (b.toNat % 16).digitChar.toUpper]

/-- A character that no part of an address may hold as it is. -/
def isUnsafe (c : Char) : Bool := c.toNat ≤ 0x20 || 0x7E < c.toNat || "\"<>".toList.contains c

/-- A character of a path that is percent-encoded. -/
def isUnsafeInPath (c : Char) : Bool := isUnsafe c || "#?\x60\x7b\x7d".toList.contains c

/-- A character of a query that is percent-encoded. -/
def isUnsafeInQuery (c : Char) : Bool := isUnsafe c || "#'".toList.contains c

/-- A character after the `#` that is percent-encoded. -/
def isUnsafeInFragment (c : Char) : Bool := isUnsafe c || c == '\x60'

/-- The text with the characters of a class percent-encoded. -/
def encodeWhere (isBad : Char → Bool) (s : List Char) : List Char :=
  s.flatMap fun c => if isBad c then percentEncode c else [c]

/-- The text with its percent-encoded points decoded. -/
def plainDots : List Char → List Char
  | [] => []
  | '%' :: '2' :: 'e' :: rest | '%' :: '2' :: 'E' :: rest => '.' :: plainDots rest
  | c :: rest => c :: plainDots rest

/-- Whether a part of a path names a drive: a letter and a colon or a bar. -/
def isDrive : List Char → Bool
  | [letter, mark] => letter.isAlpha && (mark == ':' || mark == '|')
  | _ => false

/-- The parts so far, the last one first, after the part `..`, which takes the last one
away unless that is a drive. -/
def goUp : List (List Char) → List (List Char)
  | [] => []
  | part :: before => if isDrive part then part :: before else before

/-- The parts of a path with `.` and `..` resolved; `done` holds the parts so far, the
last one first. -/
def resolve (done : List (List Char)) : List (List Char) → List (List Char)
  | [] => done.reverse
  | [part] =>
    if plainDots part = ['.'] then ([] :: done).reverse
    else if plainDots part = ['.', '.'] then ([] :: goUp done).reverse
    else (part :: done).reverse
  | part :: rest =>
    if plainDots part = ['.'] then resolve done rest
    else if plainDots part = ['.', '.'] then resolve (goUp done) rest
    else resolve (part :: done) rest

/-- The target of a path and a query. -/
def targetOf (path : List Char) (query : Option (List Char)) : String :=
  let slashed := path.map fun c => if c = '\\' then '/' else c
  let parts := resolve [] ((slashed.drop 1).splitOn '/')
  let written := parts.flatMap fun p => '/' :: encodeWhere isUnsafeInPath p
  let asked := match query with
    | none => []
    | some q => '?' :: encodeWhere isUnsafeInQuery q
  String.ofList (written ++ asked)

/-- The number of a port, from 0 to 65535. -/
def portOf? (fallback : Nat) (digits : List Char) : Option Nat :=
  if digits.isEmpty then some fallback else readBelow 65536 digits

/-- A character that no host may hold. -/
def isForbiddenInHost (c : Char) : Bool :=
  c.toNat ≤ 0x20 || c.toNat == 0x7F || "#%/:<>?@[\\]^|".toList.contains c

/-- The host and the port of an authority; what stands before an `@` is left out. -/
def hostOf? (fallback : Nat) (authority : List Char) : Option (String × Nat) := do
  let address := (authority.reverse.takeWhile (· != '@')).reverse
  match address with
  | '[' :: rest =>
    let inner := rest.takeWhile (· != ']')
    match rest.dropWhile (· != ']') with
    | [']'] => some (String.ofList ('[' :: inner ++ [']']), fallback)
    | ']' :: ':' :: digits => some (String.ofList ('[' :: inner ++ [']']), ← portOf? fallback digits)
    | _ => none
  | _ =>
    let name := address.takeWhile (· != ':')
    let port ← portOf? fallback ((address.dropWhile (· != ':')).drop 1)
    if name.isEmpty || name.any isForbiddenInHost then none
    else some (String.ofList (name.map Char.toLower), port)

/-- The text without the controls and blanks at its ends, and without line ends and
tabs anywhere. -/
def cleaned (s : List Char) : List Char :=
  let isEdge := fun c : Char => decide (c.toNat ≤ 0x20)
  let inner := ((s.dropWhile isEdge).reverse.dropWhile isEdge).reverse
  inner.filter fun c => c != '\n' && c != '\r' && c != '\t'

/-- The port that goes without saying. -/
def usualPort (encrypted : Bool) : Nat := if encrypted then 443 else 80

/-- The number of bytes that an address may have, what follows the `#` included. -/
def lengthLimit : Nat := 65534

/-- The text of an address, without what follows the `#`. -/
def text (u : Url) : String :=
  let port := if u.port = usualPort u.encrypted then "" else s!":{u.port}"
  (if u.encrypted then "https://" else "http://") ++ u.host ++ port ++ u.target

/-- Reads an address with one of the two schemes of the web. -/
def ofText? (input : String) : Option Url := do
  let s := cleaned input.toList
  let scheme := (s.takeWhile (· != ':')).map Char.toLower
  let rest := (s.dropWhile (· != ':')).drop 1
  let encrypted ←
    if scheme = "https".toList then some true
    else if scheme = "http".toList then some false
    else none
  let isSlash := fun c => c == '/' || c == '\\'
  let rest := rest.dropWhile isSlash
  let sent := rest.takeWhile (· != '#')
  let fragment := encodeWhere isUnsafeInFragment (rest.dropWhile (· != '#'))
  let authority := sent.takeWhile fun c => !isSlash c && c != '?'
  let tail := sent.dropWhile fun c => !isSlash c && c != '?'
  let (host, port) ← hostOf? (usualPort encrypted) authority
  let path := tail.takeWhile (· != '?')
  let query := match tail.dropWhile (· != '?') with
    | [] => none
    | _ :: q => some q
  let url : Url := ⟨encrypted, host, port, targetOf path query⟩
  if lengthLimit < url.text.utf8ByteSize + fragment.length then none else some url

example : resolve [] ["a".toList, "C:".toList, "..".toList, "x".toList] =
    ["a".toList, "C:".toList, "x".toList] := by decide

end Url
end MarkupDesk.Web
