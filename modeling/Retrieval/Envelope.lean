/-
# Envelopes

A relation of a rendered record is an envelope: what the relation leads to, if it is rendered, and a
link under which it can be asked for.
-/
import Retrieval.Json.Record

namespace Retrieval

/-- The rendered form of a relation. -/
structure Envelope where
  /-- The rendered record or records. -/
  content : Option Json
  link : Option String

namespace Envelope

/-- Nothing to render and nothing to point at. -/
def empty : Envelope := ⟨none, none⟩

/-- A relation that is not rendered. -/
def linkOnly (link : Option String) : Envelope := ⟨none, link⟩

/-- A rendered relation. -/
def expanded (content : Json) (link : Option String) : Envelope := ⟨some content, link⟩

/-- Whether the relation is rendered. -/
def isExpanded (e : Envelope) : Bool := e.content.isSome

/-- The JSON form of an envelope. -/
def toJson (e : Envelope) : Json :=
  .ofMembers [("self", e.content.getD .null), ("link", Json.orNull .string e.link)]

/-- Read the JSON form of an envelope. -/
def ofJson? (v : Json) : Option Envelope := do
  let field ← v.fields? ["self", "link"] 2
  let content ← Json.optional? some (field "self")
  let link ← Json.optional? Json.string? (field "link")
  some ⟨content, link⟩

end Envelope

end Retrieval
