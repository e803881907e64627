/-
# Typing of literals

The text of a literal becomes a JSON value by the type of the attribute that it is compared with.
A date or an instant keeps its text, which only has to denote one.
-/
import Retrieval.Calendar.Reader
import Retrieval.Filter.Error
import Retrieval.Json

namespace Retrieval.ValueType

/-- An integer of the 64-bit signed range. -/
def readInt64? (s : String) : Option Int :=
  (readInteger? s.toList).filter fun n => -0x8000000000000000 ≤ n ∧ n < 0x8000000000000000

/-- The finite binary64 number that a decimal literal denotes. -/
def readFloat? (s : String) : Option Binary64 := (Decimal.read? s.toList).bind Decimal.nearest?

/-- The truth value that a text names. -/
def readBool? (s : String) : Option Bool :=
  if s = "true" then some true else if s = "false" then some false else none

/-- The value that an untyped text looks like: a truth value, an integer, a number, or a text. -/
def guess (s : String) : Json :=
  match readBool? s, readInt64? s, readFloat? s with
  | some b, _, _ => .bool b
  | none, some n, _ => .int n
  | none, none, some x => .number (.float x)
  | none, none, none => .string s

/-- The value of a text as a value of the type. -/
def read? (t : ValueType) (s : String) : Option Json :=
  match t with
  | string => some (.string s)
  | int => (readInt64? s).map .int
  | float => (readFloat? s).map fun x => .number (.float x)
  | bool => (readBool? s).map .bool
  | date => (Date.ofText? s).map fun _ => .string s
  | datetime => (Instant.ofText? s).map fun _ => .string s
  | any => some (guess s)

/-- The value of a text as a value of the type, for the attribute named `attr`. -/
def coerce (t : ValueType) (attr s : String) : Except QueryError Json :=
  match t.read? s with
  | some v => .ok v
  | none => .error (.invalidValue attr s (.value t))

/-- The operand of a test on an attribute of the type: an integer for a part of a date, the text
itself for a match of texts, and else a value of the type. -/
def coerceFor (t : ValueType) (test : Test) (attr s : String) : Except QueryError Json :=
  if test.isDatePart then
    if t.hasDateParts then int.coerce attr s
    else .error (.invalidValue attr s (.dateAttribute test t))
  else if test.isTextMatch then .ok (.string s)
  else t.coerce attr s

end Retrieval.ValueType

namespace Retrieval.Test

/-- The year, month or day of the date that a text denotes. -/
def datePart? (test : Test) (s : String) : Option Int :=
  (Date.ofDateOrInstant? s).bind fun d =>
    match test with
    | year => some d.year
    | month => some d.month
    | day => some d.day
    | _ => none

end Retrieval.Test
