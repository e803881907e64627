/-
# Parameters of requests

A request is described by texts under keys.  A key that is not given has its default, unknown keys
are ignored, and an unusable value is refused.
-/
import Retrieval.Error

namespace Retrieval

/-- The parameters of a request. -/
structure Parameters where
  /-- The filter; without one every record is selected. -/
  query : Option String
  order : Option String
  /-- The size of a page. -/
  limit : Nat
  /-- How many records come before the page. -/
  offset : Nat
  /-- Whether repeated records are wanted once; no record is ever repeated. -/
  distinct : Bool
  /-- The depth of relations. -/
  maxLevel : Int
deriving DecidableEq

namespace Parameters

/-- The largest page that can be asked for. -/
def maxLimit : Nat := 1000

/-- The parameters of a request that gives none. -/
def defaults (c : Configuration) : Parameters :=
  ⟨none, none, c.pageSize, 0, false, c.defaultMaxLevel⟩

/-! ### Values -/

/-- A text without blank space around it, if anything is left. -/
def nonBlank? (s : String) : Option String :=
  let t := Text.trimmed s
  if t.isEmpty then none else some t

/-- A natural number of 64 bits. -/
def count? (s : String) : Option Nat :=
  (readNatural? (Text.trim s.toList)).filter (· < 0x10000000000000000)

/-- The size of a page. -/
def limit? (s : String) : Option Nat := (count? s).filter fun n => 1 ≤ n ∧ n ≤ maxLimit

/-- A truth value, in letters of either case or as a digit. -/
def flag? (s : String) : Option Bool :=
  let t := (Text.trimmed s).map Char.toLower
  if t = "true" ∨ t = "1" then some true
  else if t = "false" ∨ t = "0" then some false
  else none

/-- A depth of relations. -/
def level? (s : String) : Option Int := ValueType.readInt64? (Text.trimmed s)

/-! ### Reading -/

/-- Ask for the records of a filter; a blank one selects every record. -/
def withQuery (p : Parameters) (filter : String) : Parameters :=
  { p with query := nonBlank? filter }

/-- Ask for an order; a blank one is none. -/
def withOrder (p : Parameters) (order : String) : Parameters :=
  { p with order := nonBlank? order }

/-- Set the parameter of a key; `none` if the value is unusable. -/
def set? (p : Parameters) (key value : String) : Option Parameters :=
  if key = "query" then some (p.withQuery value)
  else if key = "order" then some (p.withOrder value)
  else if key = "limit" then (limit? value).map fun n => { p with limit := n }
  else if key = "offset" then (count? value).map fun n => { p with offset := n }
  else if key = "distinct" then (flag? value).map fun b => { p with distinct := b }
  else if key = "max_level" then (level? value).map fun n => { p with maxLevel := n }
  else some p

/-- Set the parameters of several keys one after the other. -/
def setAll (p : Parameters) : List (String × String) → Except Error Parameters
  | [] => .ok p
  | (key, value) :: rest =>
    match p.set? key value with
    | some q => q.setAll rest
    | none => .error (.invalidParameter key value)

/-- The parameters of a request. -/
def ofEntries (c : Configuration) (entries : List (String × String)) : Except Error Parameters :=
  (defaults c).setAll entries

end Parameters

end Retrieval
