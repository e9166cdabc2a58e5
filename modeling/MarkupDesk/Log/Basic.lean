/-!
# The log

On standard error the program keeps a log of what it does, record by record.  A record has
an origin and a text.  The origin tells how severe it is, which part of the program it
comes from, and which fields it has; it is the same for all records that are written at
one place.  The time and the styles with which a record is shown are no part of it.

Which records are written is up to a `Filter`.  It goes by the origin of a record and not
by its text.
-/
namespace MarkupDesk.Log

/-- How severe a record is. -/
inductive Severity where
  | trace
  | debug
  | info
  | warn
  | error
  deriving DecidableEq, Repr

namespace Severity

/-- The word for a severity. -/
def name : Severity → String
  | .trace => "trace"
  | .debug => "debug"
  | .info => "info"
  | .warn => "warn"
  | .error => "error"

/-- The place of a severity among all, the least one first. -/
def rank : Severity → Nat
  | .trace => 0
  | .debug => 1
  | .info => 2
  | .warn => 3
  | .error => 4

end Severity

/-- Where a record comes from. -/
structure Origin where
  severity : Severity
  part : String
  fields : List String := ["message"]
  deriving DecidableEq, Repr

/-- A record of the log. -/
structure Record where
  origin : Origin
  text : String
  deriving DecidableEq, Repr

/-- Which records are written. -/
abbrev Filter := Origin → Bool

/-- All records from a severity on. -/
def Filter.atLeast (least : Severity) : Filter := fun o => least.rank ≤ o.severity.rank

end MarkupDesk.Log
