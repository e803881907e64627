/-
# Tests

A test is what a comparison does with the values found under its path.  Operators of filters are
turned into tests, so that an inequality is a negated equality and a pattern one of three tests on
texts.
-/

namespace Retrieval

/-- What a comparison does with a value and an operand. -/
inductive Test where
  | equal
  | isNull
  | isNotNull
  | greater
  | greaterEqual
  | less
  | lessEqual
  | contains
  | startsWith
  | endsWith
  | oneOf
  | range
  | overlap
  | year
  | month
  | day
deriving DecidableEq

namespace Test

/-- The name of a test. -/
def name : Test → String
  | equal => "exact"
  | isNull => "is_null"
  | isNotNull => "is_not_null"
  | greater => "gt"
  | greaterEqual => "gte"
  | less => "lt"
  | lessEqual => "lte"
  | contains => "contains"
  | startsWith => "starts_with"
  | endsWith => "ends_with"
  | oneOf => "in"
  | range => "range"
  | overlap => "overlap"
  | year => "year"
  | month => "month"
  | day => "day"

/-- All tests. -/
def all : List Test :=
  [equal, isNull, isNotNull, greater, greaterEqual, less, lessEqual, contains, startsWith, endsWith,
    oneOf, range, overlap, year, month, day]

/-- The test of a name. -/
def ofName? (s : String) : Option Test := all.find? (·.name = s)

/-- Whether the test compares a part of a date with an integer. -/
def isDatePart : Test → Bool
  | year | month | day => true
  | _ => false

/-- Whether the test compares texts as they are written. -/
def isTextMatch : Test → Bool
  | contains | startsWith | endsWith => true
  | _ => false

/-- Whether the test asks only whether there is a value. -/
def isNullCheck : Test → Bool
  | isNull | isNotNull => true
  | _ => false

theorem ofName?_name (t : Test) : ofName? t.name = some t := by cases t <;> decide

end Test

end Retrieval
