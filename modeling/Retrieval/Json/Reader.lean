/-
# Reading JSON texts

The value of a JSON text is that of its tree, in which every numeral and every string must have a
value and containers may nest only so deep.  Objects are read as they are written, in order and with
repeated names; `Json.ofText?` puts the value into canonical form.
-/
import Retrieval.Json.Written

namespace Retrieval.Json

/-- How deep containers may nest. -/
def maxNesting : Nat := 127

namespace Written

mutual

/-- The value of a tree whose containers nest at most `depth` deep. -/
def value? (depth : Nat) : Written → Option Json
  | null => some .null
  | bool b => some (.bool b)
  | number n => n.value?.map .number
  | string parts => (stringText? parts).map .string
  | array items =>
    match depth with
    | 0 => none
    | depth + 1 => (itemValues? depth items).map .array
  | object members =>
    match depth with
    | 0 => none
    | depth + 1 => (memberValues? depth members).map .object

/-- The values of several trees. -/
def itemValues? (depth : Nat) : List Written → Option (List Json)
  | [] => some []
  | w :: rest => do
    let v ← value? depth w
    let vs ← itemValues? depth rest
    some (v :: vs)

/-- The names and values of several members. -/
def memberValues? (depth : Nat) : List (List StringPart × Written) → Option (List (String × Json))
  | [] => some []
  | (parts, w) :: rest => do
    let name ← stringText? parts
    let v ← value? depth w
    let members ← memberValues? depth rest
    some ((name, v) :: members)

end

end Written

/-- The value of a JSON text, its objects as they are written. -/
def parse? (s : String) : Option Json := (Written.ofText? s).bind (Written.value? maxNesting)

/-- The value of a JSON text in canonical form. -/
def ofText? (s : String) : Option Json := (parse? s).map canonical

/-- The value of a JSON text in which the members of an object that are not named in a list are left
out, whatever they hold. -/
def parseFields? (names : List String) (s : String) : Option Json := do
  match ← Written.ofText? s with
  | .object members => do
    let named ← members.mapM fun (parts, w) => (stringText? parts).map (·, w)
    let kept ← (named.filter fun (name, _) => names.contains name).mapM fun (name, w) =>
      (w.value? maxNesting).map (name, ·)
    some (.object kept)
  | w => w.value? maxNesting

/-- What stands for the reason why a text is refused, which the reader does not tell. -/
def refusal : String := "<reason>"

end Retrieval.Json
