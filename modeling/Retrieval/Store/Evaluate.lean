/-
# What predicates mean

A comparison holds if one of the values under its path passes its test.  Without a value only the
test for null is passed.
-/
import Retrieval.Filter.Coercion
import Retrieval.Filter.Predicate
import Retrieval.Json.Compare

namespace Retrieval

/-- Whether a text contains another one. -/
def containsText (whole part : List Char) : Bool :=
  match whole with
  | [] => part.isEmpty
  | c :: cs => part.isPrefixOf (c :: cs) || containsText cs part

namespace Test

/-- Whether two texts pass a test of texts. -/
def matchesText (match? : List Char → List Char → Bool) (actual expected : Json) : Bool :=
  match actual, expected with
  | .string a, .string e => match? a.toList e.toList
  | _, _ => false

/-- Whether a value is loosely equal to one in a list. -/
def isAmong (actual : Json) (values : List Json) : Bool := values.any (actual.looseEq ·)

/-- Whether a value is neither below the first nor above the second of two values. -/
def isBetween (actual low high : Json) : Bool :=
  (actual.order? low).any (· ≠ .lt) && (actual.order? high).any (· ≠ .gt)

/-- Whether a value passes the test with an operand. -/
def passes (t : Test) (actual expected : Json) : Bool :=
  match t with
  | equal => actual.looseEq expected
  | greater => actual.order? expected = some .gt
  | greaterEqual => (actual.order? expected).any (· ≠ .lt)
  | less => actual.order? expected = some .lt
  | lessEqual => (actual.order? expected).any (· ≠ .gt)
  | contains => matchesText containsText actual expected
  | startsWith => matchesText (fun a e => e.isPrefixOf a) actual expected
  | endsWith => matchesText (fun a e => e.isSuffixOf a) actual expected
  | oneOf =>
    match expected with
    | .array values => isAmong actual values
    | _ => false
  | range =>
    match expected with
    | .array [low, high] => isBetween actual low high
    | _ => false
  | overlap =>
    match actual, expected with
    | .array items, .array values => items.any (isAmong · values)
    | a, .array values => isAmong a values
    | _, _ => false
  | year | month | day =>
    match actual, expected.int64? with
    | .string s, some n => t.datePart? s = some n
    | _, _ => false
  | isNull => actual.isNull
  | isNotNull => !actual.isNull

end Test

/-- Whether the values under the path of a comparison make it hold. -/
def Comparison.holdsOf (c : Comparison) (values : List Json) : Bool :=
  let hit :=
    match c.test with
    | .isNull => values.isEmpty || values.any Json.isNull
    | .isNotNull => values.any fun v => !v.isNull
    | t => values.any (t.passes · c.value)
  hit != c.negated

namespace Predicate

mutual

/-- Whether a predicate holds, given the values under each path. -/
def holds (lookup : List String → List Json) : Predicate → Bool
  | .compare c => c.holdsOf (lookup c.path)
  | .and parts => allHold lookup parts
  | .or parts => someHolds lookup parts
  | .not part => !holds lookup part

/-- Whether all of several predicates hold. -/
def allHold (lookup : List String → List Json) : List Predicate → Bool
  | [] => true
  | p :: rest => holds lookup p && allHold lookup rest

/-- Whether some of several predicates holds. -/
def someHolds (lookup : List String → List Json) : List Predicate → Bool
  | [] => false
  | p :: rest => holds lookup p || someHolds lookup rest

end

end Predicate

end Retrieval
