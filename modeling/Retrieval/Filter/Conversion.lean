/-
# From operators to tests

An operator and its literal become a test, an operand that is still text, and whether the test is
negated.
-/
import Retrieval.Filter.Token

namespace Retrieval

/-- An operand before its type is known. -/
inductive Operand where
  | text (s : String)
  | flag (b : Bool)
  | list (items : List String)
  /-- The test has no operand. -/
  | none
deriving DecidableEq

/-- What an operator and its literal mean. -/
structure Conversion where
  test : Test
  operand : Operand
  negated : Bool := false
deriving DecidableEq

namespace Conversion

/-- The test and the text of a pattern: a star at an end stands for any text there.  A pattern
with stars but none at an end is looked for as it is written. -/
def ofPattern (pattern : String) : Test × String :=
  let cs := pattern.toList
  let starts := cs.head? == some '*'
  let ends := cs.getLast? == some '*'
  if !cs.contains '*' then (.equal, pattern)
  else if starts && ends && 2 ≤ cs.length then (.contains, String.ofList cs.tail.dropLast)
  else if starts then (.endsWith, String.ofList cs.tail)
  else if ends then (.startsWith, String.ofList cs.dropLast)
  else (.contains, pattern)

/-- What an operator means with a single value. -/
def ofScalar (o : Operator) (s : String) : Except QueryError Conversion :=
  match o with
  | .eq => .ok (if s = "null" then ⟨.isNull, .none, false⟩ else ⟨.equal, .text s, false⟩)
  | .neq => .ok (if s = "null" then ⟨.isNotNull, .none, false⟩ else ⟨.equal, .text s, true⟩)
  | .gt => .ok ⟨.greater, .text s, false⟩
  | .gte => .ok ⟨.greaterEqual, .text s, false⟩
  | .lt => .ok ⟨.less, .text s, false⟩
  | .lte => .ok ⟨.lessEqual, .text s, false⟩
  | .year => .ok ⟨.year, .text s, false⟩
  | .month => .ok ⟨.month, .text s, false⟩
  | .day => .ok ⟨.day, .text s, false⟩
  | .like =>
    let (test, text) := ofPattern s
    .ok ⟨test, .text text, false⟩
  | .is =>
    if s = "true" then .ok ⟨.equal, .flag true, false⟩
    else if s = "false" then .ok ⟨.equal, .flag false, false⟩
    else if s = "null" then .ok ⟨.isNull, .none, false⟩
    else .error (.invalidOperand o s .flagOrNull)
  | .oneOf => .ok ⟨.oneOf, .list [s], false⟩
  | .overlap => .ok ⟨.overlap, .list [s], false⟩
  | .between => .error (.invalidOperand o s .pair)

/-- What an operator means with a list of values. -/
def ofList (o : Operator) (items : List String) : Except QueryError Conversion :=
  match o with
  | .oneOf => .ok ⟨.oneOf, .list items, false⟩
  | .overlap => .ok ⟨.overlap, .list items, false⟩
  | .between =>
    if items.length = 2 then .ok ⟨.range, .list items, false⟩
    else .error (.invalidOperand o (Literal.list items).text .pair)
  | _ => .error (.invalidOperand o (Literal.list items).text .single)

/-- What the word for an operator and a literal mean. -/
def of (word : String) (value : Literal) : Except QueryError Conversion :=
  match Operator.ofName? word with
  | none => .error (.unknownOperator word value.text)
  | some o =>
    match value with
    | .scalar s => ofScalar o s
    | .list items => ofList o items

end Conversion

end Retrieval
