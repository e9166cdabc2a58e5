import MarkupDesk.Text.Utf16
import MarkupDesk.Web.Status
import MarkupDesk.Web.Url

/-!
# Requests and replies

A request is what is sent to a server, a `Delivery` is what comes back: a whole
reply, or nothing that could be used.  A server is a function from the one to the
other.

A server sends a `Response`, whose head may promise another body than the one that
follows; `Response.delivery` says what the client is left with.
-/
namespace MarkupDesk.Web

/-- A request that posts a body.  The key goes into a header of its own. -/
structure Request where
  url : Url
  key : String
  contentType : String
  userAgent : String
  body : String
  deriving DecidableEq, Repr

/-- What comes back from a server. -/
inductive Delivery where
  /-- No connection, or one that broke off before the reply was complete. -/
  | broken
  /-- A reply with its status and the bytes of its body. -/
  | reply (status : Nat) (body : List UInt8)
  deriving DecidableEq, Repr

/-- A server, as seen from the client. -/
abbrev Server := Request → Delivery

/-- A response as the server sends it, before it closes the connection: the status, the
bytes after the head, and the length that the head declares for them. -/
structure Response where
  status : Nat
  body : List UInt8
  declared : Nat
  deriving DecidableEq, Repr

/-- Whether responses with this status end with their head. -/
def isBodiless (status : Nat) : Bool := status == 101 || status == 204 || status == 304

/-- What the client is left with after a response.  A status has three digits and does not
begin with zero.  One below 200 announces another response, except 101; here no other
response follows.  The body ends where the head says, and breaks off if there is less. -/
def Response.delivery (r : Response) : Delivery :=
  if r.status < 100 || 999 < r.status || (r.status < 200 && r.status != 101) then .broken
  else if isBodiless r.status then .reply r.status []
  else if r.body.length < r.declared then .broken
  else .reply r.status (r.body.take r.declared)

/-- Whether a text can stand in a header: it has no control characters but tabs. -/
def fitsHeader (value : String) : Bool :=
  value.toList.all fun c => c == '\t' || (0x20 ≤ c.toNat && c.toNat != 0x7F)

/-- The text of a body, lossily decoded.  A byte order mark in front of it tells the
encoding, which else is UTF-8, and is left out. -/
def bodyText (body : List UInt8) : String :=
  match body with
  | 0xEF :: 0xBB :: 0xBF :: rest => Text.Utf8.decodeLossy rest
  | 0xFE :: 0xFF :: rest => Text.Utf16.decodeLossy .highFirst rest
  | 0xFF :: 0xFE :: rest => Text.Utf16.decodeLossy .lowFirst rest
  | _ => Text.Utf8.decodeLossy body

end MarkupDesk.Web
