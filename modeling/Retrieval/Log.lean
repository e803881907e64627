/-
# Log lines

An event is logged as one line of JSON: its name, its severity and its fields in increasing order of
their keys, all of them texts.  Events below the level of the log are dropped; the others go to the
standard output, warnings and errors to the standard error.  A scope has the events in which a request
begins and ends.
-/
import Retrieval.Json.Writer
import Retrieval.Plan

namespace Retrieval

/-- How serious an event is. -/
inductive Severity where
  | trace
  | info
  | warn
  | error
deriving DecidableEq

namespace Severity

/-- The severity in a log line. -/
def label : Severity → String
  | trace => "TRACE"
  | info => "INFO"
  | warn => "WARN"
  | error => "ERROR"

/-- The name of the severity as the level of a log. -/
def name : Severity → String
  | trace => "trace"
  | info => "info"
  | warn => "warn"
  | error => "error"

/-- The severity of a name. -/
def ofName? (s : String) : Option Severity := [trace, info, warn, error].find? (·.name = s)

/-- The place of the severity among all, the least serious first. -/
def rank : Severity → Nat
  | trace => 0
  | info => 1
  | warn => 2
  | error => 3

/-- Whether an event of severity `s` is written at a level. -/
def enabledAt (s level : Severity) : Bool := level.rank ≤ s.rank

/-- Whether events of the severity go to the standard error. -/
def isAlarm (s : Severity) : Bool := warn.rank ≤ s.rank

theorem ofName?_name (s : Severity) : ofName? s.name = some s := by cases s <;> decide

end Severity

/-- Something that happened. -/
structure Event where
  severity : Severity
  name : String
  fields : List (String × String)
  /-- Whether the line tells how long the request took. -/
  timed : Bool := false
deriving DecidableEq

namespace Event

/-- The fields of the line, given the microseconds that the request took. -/
def allFields (e : Event) (elapsed : Nat) : List (String × String) :=
  Plan.sortByName (e.fields ++ if e.timed then [("elapsed_us", toString elapsed)] else [])

/-- The text of a field in a line. -/
def fieldChars (key value : String) : List Char :=
  ',' :: Json.quoted key ++ ':' :: Json.quoted value

/-- The line of the event, without the end of the line. -/
def chars (e : Event) (elapsed : Nat) : List Char :=
  '\x7b' :: Json.quoted "event" ++ ':' :: Json.quoted e.name ++
    fieldChars "severity" e.severity.label ++
    (e.allFields elapsed).flatMap (fun (key, value) => fieldChars key value) ++ ['\x7d']

/-- The line of the event, without the end of the line. -/
def text (e : Event) (elapsed : Nat) : String := String.ofList (e.chars elapsed)

/-- The line of the event. -/
def line (e : Event) (elapsed : Nat) : String := e.text elapsed ++ "\n"

end Event

/-- What a log writes to the standard output and to the standard error: whole lines, in order. -/
structure LogLines where
  toOutput : List String
  toAlarms : List String
deriving DecidableEq

namespace LogLines

/-- The lines of events at a level. -/
def of (level : Severity) (elapsed : Nat) (events : List Event) : LogLines :=
  let written := events.filter (·.severity.enabledAt level)
  { toOutput := (written.filter (!·.severity.isAlarm)).map (·.line elapsed)
    toAlarms := (written.filter (·.severity.isAlarm)).map (·.line elapsed) }

/-- What is read in a stream that lines were written to: everything up to a line break. -/
def readBack (lines : List String) : List String :=
  ((lines.flatMap String.toList).splitOn '\n').dropLast.map String.ofList

/-- The lines that are read in the standard output. -/
def output (l : LogLines) : List String := readBack l.toOutput

/-- The lines that are read in the standard error. -/
def alarms (l : LogLines) : List String := readBack l.toAlarms

end LogLines

/-- A request in the log. -/
structure Scope where
  name : String
  /-- Fields of every event of the request. -/
  fields : List (String × String)
deriving DecidableEq

namespace Scope

/-- The request begins. -/
def begins (s : Scope) : Event := ⟨.trace, s.name ++ "_BEGIN", s.fields, false⟩

/-- The request is answered. -/
def completes (s : Scope) (extra : List (String × String)) : Event :=
  ⟨.trace, s.name ++ "_COMPLETE", s.fields ++ extra, true⟩

/-- The request is refused. -/
def rejects (s : Scope) (code message : String) : Event :=
  ⟨.warn, s.name ++ "_REJECTED", s.fields ++ [("code", code), ("message", message)], false⟩

/-- The scope of the request is dropped before the request is answered or refused. -/
def breaksOff (s : Scope) : Event :=
  ⟨.warn, s.name ++ "_INCOMPLETE",
    s.fields ++ [("reason", "scope dropped without completion")], false⟩

end Scope

end Retrieval
