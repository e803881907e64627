/-
# Sorting by order keys

Rows are compared key by key from left to right; a descending key turns round its own comparison
only.  Rows that compare equal keep their order.
-/
import Retrieval.Filter.Order
import Retrieval.Json.Compare

namespace Retrieval

/-- The order of two rows by their values under each key. -/
def compareByKeys : List (OrderKey × Option Json × Option Json) → Ordering
  | [] => .eq
  | (k, a, b) :: rest =>
    let first := Json.rank? a b
    (if k.descending then first.swap else first).then (compareByKeys rest)

/-- The order of two rows, given the value of a row under a path. -/
def compareRows {α : Type} (keys : List OrderKey) (lookup : α → List String → Option Json)
    (a b : α) : Ordering :=
  compareByKeys (keys.map fun k => (k, lookup a k.path, lookup b k.path))

/-- Rows sorted by keys. -/
def sortRows {α : Type} (keys : List OrderKey) (lookup : α → List String → Option Json)
    (rows : List α) : List α :=
  rows.mergeSort fun a b => compareRows keys lookup a b ≠ .gt

end Retrieval
