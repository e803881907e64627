/-
# Keywords of filters and orders

The words that mean something in a filter or an order: operators of comparisons, connectives of
groups and directions of order keys.
-/

namespace Retrieval

/-- An operator of a filter. -/
inductive Operator where
  | eq
  | neq
  | gt
  | gte
  | lt
  | lte
  | like
  | is
  | oneOf
  | between
  | overlap
  | year
  | month
  | day
deriving DecidableEq

namespace Operator

/-- The word for an operator. -/
def name : Operator → String
  | eq => "eq"
  | neq => "neq"
  | gt => "gt"
  | gte => "gte"
  | lt => "lt"
  | lte => "lte"
  | like => "like"
  | is => "is"
  | oneOf => "in"
  | between => "between"
  | overlap => "ov"
  | year => "year"
  | month => "month"
  | day => "day"

/-- All operators. -/
def all : List Operator :=
  [eq, neq, gt, gte, lt, lte, like, is, oneOf, between, overlap, year, month, day]

/-- The operator of a word. -/
def ofName? (s : String) : Option Operator := all.find? (·.name = s)

/-- Whether the operand may be a list in brackets. -/
def takesList : Operator → Bool
  | oneOf | between | overlap => true
  | _ => false

theorem ofName?_name (o : Operator) : ofName? o.name = some o := by cases o <;> decide

end Operator

/-- How the parts of a group are joined. -/
inductive Connective where
  | and
  | or
  /-- The negation of all parts together. -/
  | not
deriving DecidableEq

namespace Connective

/-- The word for a connective. -/
def name : Connective → String
  | and => "and"
  | or => "or"
  | not => "not"

/-- The connective of a word. -/
def ofName? (s : String) : Option Connective := [and, or, not].find? (·.name = s)

theorem ofName?_name (c : Connective) : ofName? c.name = some c := by cases c <;> decide

end Connective

/-- The direction of an order key. -/
inductive Direction where
  | ascending
  | descending
deriving DecidableEq

namespace Direction

/-- The word for a direction. -/
def name : Direction → String
  | ascending => "asc"
  | descending => "desc"

/-- The direction of a word. -/
def ofName? (s : String) : Option Direction := [ascending, descending].find? (·.name = s)

theorem ofName?_name (d : Direction) : ofName? d.name = some d := by cases d <;> decide

end Direction

/-- A word with a meaning in a filter or an order. -/
inductive Keyword where
  | operator (o : Operator)
  | connective (c : Connective)
  | direction (d : Direction)
deriving DecidableEq

namespace Keyword

/-- The word. -/
def name : Keyword → String
  | operator o => o.name
  | connective c => c.name
  | direction d => d.name

/-- The keyword that a word is. -/
def ofName? (s : String) : Option Keyword :=
  ((Operator.ofName? s).map operator).or
    (((Connective.ofName? s).map connective).or ((Direction.ofName? s).map direction))

end Keyword

end Retrieval
