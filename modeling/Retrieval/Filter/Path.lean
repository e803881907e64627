/-
# Paths of attributes

A path names attributes one after the other: every one but the last is a relation and leads to the
schema on which the next is looked up.  The segment `pk` stands for the primary key of the schema
that it is looked up on.
-/
import Retrieval.Filter.Error
import Retrieval.Schema.Graph
import Retrieval.Text

namespace Retrieval

/-- A path that exists in a graph. -/
structure ResolvedPath (g : Graph) where
  /-- The names of the attributes. -/
  segments : List String
  /-- The schema of the last attribute. -/
  owner : g.Id
  /-- The type of values that are compared with the last attribute. -/
  type : ValueType
  /-- Whether the last attribute is a relation. -/
  isRelation : Bool

namespace ResolvedPath

variable {g : Graph}

/-- The segments with dots between them. -/
def dotted (p : ResolvedPath g) : String := Text.joined "." p.segments

/-- The name of the last attribute. -/
def terminal (p : ResolvedPath g) : String := p.segments.getLastD ""

/-- Put a segment in front. -/
def cons (name : String) (p : ResolvedPath g) : ResolvedPath g :=
  { p with segments := name :: p.segments }

end ResolvedPath

/-- The segment that stands for the primary key. -/
def primaryKeySegment : String := "pk"

/-- The name of the attribute that a segment means on a schema. -/
def Schema.segmentName {n : Nat} (s : Schema n) (segment : String) : String :=
  if segment = primaryKeySegment then s.primaryKey else segment

namespace Graph

/-- Follow a segment and those after it from a schema. -/
def follow (g : Graph) (i : g.Id) (segment : String) :
    List String → Except QueryError (ResolvedPath g)
  | [] =>
    let s := g.schema i
    let name := s.segmentName segment
    match s.attribute? name with
    | none => .error (.unknownAttribute segment s.name)
    | some a =>
      match a.kind with
      | .scalar t => .ok ⟨[name], i, t, false⟩
      | .relation r => .ok ⟨[name], i, (g.schema r.target).keyType, true⟩
  | next :: rest =>
    let s := g.schema i
    let name := s.segmentName segment
    match s.attribute? name with
    | none => .error (.unknownAttribute segment s.name)
    | some a =>
      match a.kind with
      | .scalar _ => .error (.notTraversable name s.name)
      | .relation r => do
        let p ← g.follow r.target next rest
        .ok (p.cons name)

/-- Resolve a path from a schema. -/
def resolvePath (g : Graph) (i : g.Id) : List String → Except QueryError (ResolvedPath g)
  | [] => .error (.malformedToken "" "")
  | segment :: rest => g.follow i segment rest

end Graph

end Retrieval
