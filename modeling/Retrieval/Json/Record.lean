/-
# Records and names in JSON

A record type has a fixed list of field names.  Its value is written as an object, whose other
members are ignored, or as an array that gives the fields in order.  A value of an enumeration is
written as its name, or as an object whose only member has that name and is `null`.
-/
import Retrieval.Json

namespace Retrieval.Json

/-- Whether no two members have the same one of the given names. -/
def distinctFields (names : List String) (members : List (String × Json)) : Bool :=
  names.all fun name => (members.filter (·.1 = name)).length ≤ 1

/-- The fields of a record by name.  In an array the first `required` fields must be given and none
beyond the last; in an object no field may be given twice. -/
def fields? (names : List String) (required : Nat) : Json → Option (String → Option Json)
  | object members =>
    if distinctFields names members then some (member? · members) else none
  | array items =>
    if required ≤ items.length ∧ items.length ≤ names.length then
      some (member? · (names.zip items))
    else none
  | _ => none

/-- The name of a value of an enumeration. -/
def enumerator? : Json → Option String
  | string name => some name
  | object [(name, null)] => some name
  | _ => none

/-- A field that may be absent or `null`. -/
def optional? {α : Type} (read? : Json → Option α) : Option Json → Option (Option α)
  | none => some none
  | some null => some none
  | some v => (read? v).map some

/-- A field with a value for its absence. -/
def withDefault? {α : Type} (read? : Json → Option α) (default : α) : Option Json → Option α
  | none => some default
  | some v => read? v

/-- All items of an array. -/
def list? {α : Type} (read? : Json → Option α) : Json → Option (List α)
  | array items => items.mapM read?
  | _ => none

/-- A member that is written only if there is a value. -/
def optionalMember (name : String) (value : Option Json) : List (String × Json) :=
  match value with
  | some v => [(name, v)]
  | none => []

/-- A value or `null`. -/
def orNull {α : Type} (write : α → Json) : Option α → Json
  | some a => write a
  | none => null

end Retrieval.Json
