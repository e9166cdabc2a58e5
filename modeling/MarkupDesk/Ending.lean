import MarkupDesk.Console.Line
import MarkupDesk.Log.Event
import MarkupDesk.Web.Exchange

/-!
# Endings

What a run of the command leaves behind (`Ending`).  Standard error takes its lines from two
sides: notes for the user, and the records of the log.  They are kept in the order in which
they are written; the time of day that goes with a record is not kept.
-/
namespace MarkupDesk

/-- A line on standard error. -/
inductive Ending.Line where
  /-- A note for the user. -/
  | note (text : String)
  /-- The record of an event. -/
  | logged (event : Log.Event)
  /-- The time that the run took. -/
  | time
  deriving DecidableEq, Repr

/-- What a run leaves behind. -/
structure Ending where
  exitCode : Nat := 0
  /-- What is printed to standard output. -/
  output : String := ""
  /-- The lines that are printed to standard error. -/
  lines : List Ending.Line := []
  /-- The file that is saved: its path and its content. -/
  saved : Option (String × String) := none
  /-- The requests that are sent. -/
  requests : List Web.Request := []
  deriving DecidableEq, Repr

namespace Ending

/-- The note of a line. -/
def Line.note? : Line → Option String
  | .note text => some text
  | _ => none

/-- The notes for the user. -/
def notes (e : Ending) : List String := e.lines.filterMap Line.note?

/-- The ending with these notes at the end. -/
def withNotes (notes : List String) (e : Ending) : Ending :=
  { e with lines := e.lines ++ notes.map .note }

/-- The ending with the time at the end, if it is shown. -/
def withTime (shown : Bool) (e : Ending) : Ending :=
  { e with lines := e.lines ++ if shown then [.time] else [] }

/-- The ending with the records of these events in front. -/
def afterEvents (events : List Log.Event) (e : Ending) : Ending :=
  { e with lines := events.map .logged ++ e.lines }

/-- The ending with an error: its wording, followed by those of the causes behind it. -/
def failed (causes : List String) (before : Ending) : Ending :=
  { before.withNotes ["Error: " ++ ": ".intercalate causes] with exitCode := 1 }

/-! ## What is written -/

/-- Whether a line is written, with this filter for the log. -/
def Line.passes (filter : Log.Filter) : Line → Bool
  | .logged event => filter event.origin
  | _ => true

/-- The ending with the records that pass a filter. -/
def filtered (filter : Log.Filter) (e : Ending) : Ending :=
  { e with lines := e.lines.filter (Line.passes filter) }

/-- The ending without the log. -/
def withoutLog (e : Ending) : Ending := e.filtered fun _ => false

/-- The text of a line, with the records and the time as they are to be written. -/
def Line.text (shows : Char → Bool) (record : Log.Record → String) (time : String) :
    Line → String
  | .note text => text
  | .logged event => record (event.record shows)
  | .time => Console.timeLine time

/-- What is printed to standard error. -/
def errorText (shows : Char → Bool) (record : Log.Record → String) (time : String)
    (e : Ending) : String :=
  String.join (e.lines.map fun line => line.text shows record time ++ "\n")

/-! ## What is left without the log -/

section
variable (e : Ending) (events earlier : List Log.Event) (filter : Log.Filter)

theorem afterEvents_afterEvents :
    (e.afterEvents events).afterEvents earlier = e.afterEvents (earlier ++ events) := by
  rw [afterEvents, afterEvents, afterEvents, List.map_append, List.append_assoc]

theorem filtered_afterEvents : (e.afterEvents events).filtered filter =
    (e.filtered filter).afterEvents (events.filter fun event => filter event.origin) := by
  rw [filtered, afterEvents, List.filter_append, List.filter_map]
  rfl

@[simp] theorem withoutLog_afterEvents : (e.afterEvents events).withoutLog = e.withoutLog := by
  have hnone : (events.filter fun _ => false) = [] := List.filter_eq_nil_iff.mpr (by simp)
  rw [withoutLog, filtered_afterEvents, hnone]
  rfl

/-- A filter keeps back records only. -/
@[simp] theorem withoutLog_filtered : (e.filtered filter).withoutLog = e.withoutLog := by
  rw [withoutLog, withoutLog, filtered, filtered, filtered, List.filter_filter]
  congr 1
  refine List.filter_congr fun line _ => ?_
  cases line <;> rfl

@[simp] theorem exitCode_withoutLog : e.withoutLog.exitCode = e.exitCode := rfl
@[simp] theorem output_withoutLog : e.withoutLog.output = e.output := rfl
@[simp] theorem saved_withoutLog : e.withoutLog.saved = e.saved := rfl
@[simp] theorem requests_withoutLog : e.withoutLog.requests = e.requests := rfl

@[simp] theorem notes_withoutLog : e.withoutLog.notes = e.notes := by
  rw [Ending.notes, Ending.notes, withoutLog, filtered, List.filterMap_filter]
  congr 1
  funext line
  cases line <;> rfl

end

/-- The notes of an ending with an error end with that error. -/
theorem notes_failed (causes : List String) (e : Ending) :
    (e.failed causes).notes = e.notes ++ ["Error: " ++ ": ".intercalate causes] := by
  simp [Ending.notes, failed, withNotes, Line.note?]

end Ending
end MarkupDesk
