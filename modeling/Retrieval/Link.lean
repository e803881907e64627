/-
# Links to related records

A link is the address of the records that a filter selects.  The detail link of a key selects the
record of that key, the list link of an owner's key the records that point at the owner.  A key that
a filter cannot express has no link.
-/
import Retrieval.Json.Writer
import Retrieval.PercentEncoding
import Retrieval.Schema.Graph

namespace Retrieval

/-- Where links start. -/
structure Links where
  /-- The start of every address, without slashes at its end. -/
  base : String
deriving DecidableEq

namespace Links

/-- Links that start with a text, less the slashes at its end. -/
def startingWith (text : String) : Links :=
  ⟨String.ofList (text.toList.reverse.dropWhile (· = '/')).reverse⟩

/-- The start of links where no other is configured. -/
def defaultBase : String := "/api"

/-- Whether a text can be the operand of an equality: it is not empty, it is not the word for null,
and it holds no comma and no bracket. -/
def isExpressible (s : String) : Bool :=
  !s.isEmpty && s != "null" && !s.toList.any fun c => c = ',' || c = '(' || c = ')'

/-- The text of a key in a filter. -/
def keyText? : Json → Option String
  | .string s => if isExpressible s then some s else none
  | .number n => some (String.ofList n.chars)
  | .bool b => some (if b then "true" else "false")
  | _ => none

/-- The address of the records of a schema whose attribute `attr` is equal to a key. -/
def address? {n : Nat} (l : Links) (target : Schema n) (kind attr : String) (key : Json) :
    Option String :=
  (keyText? key).map fun text =>
    l.base ++ "/" ++ target.route ++ "/" ++ kind ++ "?query=" ++ attr ++ ".eq." ++
      PercentEncoding.encode text

/-- The link to the record of a key. -/
def detail? {n : Nat} (l : Links) (target : Schema n) (key : Json) : Option String :=
  l.address? target "detail" target.primaryKey key

/-- The link to the records whose remote attribute holds an owner's key. -/
def list? {n : Nat} (l : Links) (target : Schema n) (remote : String) (ownerKey : Json) :
    Option String :=
  l.address? target "list" remote ownerKey

end Links

end Retrieval
