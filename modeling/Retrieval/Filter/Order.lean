/-
# Orders

An order is a list of paths, each with an optional direction behind it: `name,age.desc`.
-/
import Retrieval.Filter.Path
import Retrieval.Text

namespace Retrieval

/-- A path and the word for a direction. -/
structure OrderToken where
  path : List String
  direction : String
deriving DecidableEq

/-- A path to sort by. -/
structure OrderKey where
  path : List String
  descending : Bool
deriving DecidableEq

namespace OrderToken

/-- Split a direction off the end of some segments.  A single segment is a path, even if it is named
like a direction. -/
def splitDirection (segments : List String) : List String × String :=
  let last := segments.getLastD ""
  if 2 ≤ segments.length ∧ (Direction.ofName? last).isSome then (segments.dropLast, last)
  else (segments, Direction.ascending.name)

/-- The token of a piece of text that is trimmed and not empty. -/
def ofPiece (input : String) (piece : List Char) : Except QueryError OrderToken :=
  let (path, direction) := splitDirection ((piece.splitOn '.').map String.ofList)
  if piece.contains '(' || piece.contains ')' || path.any String.isEmpty then
    .error (.malformedToken (String.ofList piece) input)
  else .ok ⟨path, direction⟩

end OrderToken

/-- The tokens of an order. -/
def readOrder (input : String) : Except QueryError (List OrderToken) :=
  let pieces := (input.toList.splitOn ',').map Text.trim
  (pieces.filter fun piece => !piece.isEmpty).mapM (OrderToken.ofPiece input)

namespace OrderKey

/-- A key in words: the path, with a hyphen in front if it is descending. -/
def display (k : OrderKey) : String :=
  (if k.descending then "-" else "") ++ Text.joined "." k.path

/-- The JSON form of a key. -/
def toJson (k : OrderKey) : Json :=
  .ofMembers [("path", .array (k.path.map .string)), ("descending", .bool k.descending)]

/-- Read the JSON form of a key. -/
def ofJson? (v : Json) : Option OrderKey := do
  let field ← v.fields? ["path", "descending"] 2
  let path ← (field "path").bind (Json.list? Json.string?)
  let descending ← (field "descending").bind Json.bool?
  some ⟨path, descending⟩

/-- The key of a token, its path resolved from a schema. -/
def ofToken (g : Graph) (root : g.Id) (t : OrderToken) : Except QueryError OrderKey := do
  let p ← g.resolvePath root t.path
  match Direction.ofName? t.direction with
  | some d => .ok ⟨p.segments, d = .descending⟩
  | none => .error (.unknownOperator t.direction (Text.joined "." t.path))

/-- The keys of tokens. -/
def ofTokens (g : Graph) (root : g.Id) (ts : List OrderToken) :
    Except QueryError (List OrderKey) :=
  ts.mapM (ofToken g root)

end OrderKey

end Retrieval
