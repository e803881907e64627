/-
# Schema graphs

A schema graph holds the schemas of a list of definitions with their relations resolved: a relation
knows its target by position, so schemas may point at each other in cycles.  Building a graph checks
that the definitions are consistent and reports the first one that is not.
-/
import Retrieval.Disk
import Retrieval.Json.Reader
import Retrieval.Schema.Definition

namespace Retrieval

/-- Why a file or a directory of definitions cannot be read. -/
inductive DefinitionFault where
  | directory (fault : AccessFault)
  | file (fault : AccessFault)
  /-- The text is not the JSON of definitions. -/
  | notDefinitions
deriving DecidableEq

/-- The text of a fault. -/
def DefinitionFault.message : DefinitionFault → String
  | directory fault => s!"Failed to read schema directory: {fault.message}"
  | file fault => s!"Failed to read file: {fault.message}"
  | notDefinitions => "Invalid JSON: " ++ Json.refusal

/-- Why definitions do not make a schema graph. -/
inductive SchemaError where
  | duplicateSchema (schema : String)
  | duplicateAttribute (schema attr : String)
  | missingPrimaryKey (schema attr : String)
  | missingTarget (schema attr : String)
  | unknownTarget (schema attr target : String)
  | missingRemote (schema attr : String)
  | unknownRemote (attr remote target : String)
  | malformed (path : String) (fault : DefinitionFault)
deriving DecidableEq

namespace SchemaError

/-- The code under which the error is reported. -/
def code : SchemaError → String
  | duplicateSchema .. => "SNATCH_SCHEMA_DUPLICATE"
  | duplicateAttribute .. => "SNATCH_SCHEMA_DUPLICATE_ATTRIBUTE"
  | missingPrimaryKey .. => "SNATCH_SCHEMA_MISSING_PRIMARY_KEY"
  | missingTarget .. => "SNATCH_SCHEMA_MISSING_TARGET"
  | unknownTarget .. => "SNATCH_SCHEMA_UNKNOWN_TARGET"
  | missingRemote .. => "SNATCH_SCHEMA_MISSING_REMOTE"
  | unknownRemote .. => "SNATCH_SCHEMA_UNKNOWN_REMOTE"
  | malformed .. => "SNATCH_SCHEMA_MALFORMED"

/-- The text of the error. -/
def message : SchemaError → String
  | duplicateSchema schema => s!"Schema '{schema}' is declared more than once"
  | duplicateAttribute schema attr =>
    s!"Attribute '{attr}' is declared more than once on schema '{schema}'"
  | missingPrimaryKey schema attr =>
    s!"Schema '{schema}' has no primary key attribute '{attr}'"
  | missingTarget schema attr =>
    s!"Relation '{attr}' on schema '{schema}' does not name a target"
  | unknownTarget schema attr target =>
    s!"Relation '{attr}' on schema '{schema}' targets unknown schema '{target}'"
  | missingRemote schema attr =>
    s!"To-many relation '{attr}' on schema '{schema}' must name its remote attribute"
  | unknownRemote attr remote target =>
    s!"Remote attribute '{remote}' of relation '{attr}' does not exist on schema '{target}'"
  | malformed path fault => s!"Malformed schema file '{path}': {fault.message}"

end SchemaError

/-- A relation of a schema in a graph of `n` schemas. -/
structure Relation (n : Nat) where
  cardinality : Cardinality
  nullable : Bool
  /-- The position of the schema that the relation points at. -/
  target : Fin n
  /-- The attribute of the target that points back. -/
  remote : Option String
deriving DecidableEq

/-- What an attribute holds. -/
inductive AttributeKind (n : Nat) where
  | scalar (type : ValueType)
  | relation (r : Relation n)
deriving DecidableEq

/-- An attribute of a schema in a graph of `n` schemas. -/
structure Attribute (n : Nat) where
  name : String
  kind : AttributeKind n
deriving DecidableEq

namespace Attribute

variable {n : Nat}

/-- The relation of a relation attribute. -/
def relation? (a : Attribute n) : Option (Relation n) :=
  match a.kind with
  | .relation r => some r
  | .scalar _ => none

/-- The type of a scalar attribute. -/
def type? (a : Attribute n) : Option ValueType :=
  match a.kind with
  | .scalar t => some t
  | .relation _ => none

end Attribute

/-- A schema in a graph of `n` schemas. -/
structure Schema (n : Nat) where
  name : String
  space : Option String
  primaryKey : String
  attributes : List (Attribute n)
deriving DecidableEq

namespace Schema

variable {n : Nat}

/-- The attribute of a name. -/
def attribute? (s : Schema n) (name : String) : Option (Attribute n) :=
  s.attributes.find? (·.name = name)

/-- The relation attributes by name, in order. -/
def relations (s : Schema n) : List (String × Relation n) :=
  s.attributes.filterMap fun a => a.relation?.map (a.name, ·)

/-- The part of a link that names the schema. -/
def route (s : Schema n) : String :=
  match s.space with
  | some space => space ++ "/" ++ s.name
  | none => s.name

/-- The type by which references to the schema's records are read: that of the primary key, or
`any` if the key is itself a relation. -/
def keyType (s : Schema n) : ValueType :=
  ((s.attribute? s.primaryKey).bind Attribute.type?).getD .any

end Schema

/-- The schemas of a list of definitions, in order. -/
structure Graph where
  /-- How many schemas there are. -/
  size : Nat
  schemas : Vector (Schema size) size
deriving DecidableEq

namespace Graph

/-- A schema of a graph by position. -/
abbrev Id (g : Graph) := Fin g.size

/-- The schema at a position. -/
def schema (g : Graph) (i : g.Id) : Schema g.size := g.schemas.get i

/-- The position of the schema of a name. -/
def find? (g : Graph) (name : String) : Option g.Id := g.schemas.findFinIdx? (·.name = name)

/-! ### Building -/

/-- The kind of an attribute, its target looked up among the definitions. -/
def resolveKind {n : Nat} (position? : String → Option (Fin n)) (schema : String)
    (a : Schema.AttributeDefinition) : Except SchemaError (AttributeKind n) :=
  match a.relation with
  | none => .ok (.scalar (a.type.getD .any))
  | some cardinality =>
    match a.target with
    | none => .error (.missingTarget schema a.name)
    | some name =>
      match position? name with
      | none => .error (.unknownTarget schema a.name name)
      | some target =>
        if cardinality = .toMany ∧ a.remote = none then .error (.missingRemote schema a.name)
        else .ok (.relation ⟨cardinality, a.nullable, target, a.remote⟩)

/-- The attributes of a schema, given the names of those before them. -/
def resolveAttributes {n : Nat} (position? : String → Option (Fin n)) (schema : String)
    (seen : List String) : List Schema.AttributeDefinition → Except SchemaError (List (Attribute n))
  | [] => .ok []
  | a :: rest =>
    if a.name ∈ seen then .error (.duplicateAttribute schema a.name)
    else do
      let kind ← resolveKind position? schema a
      let attributes ← resolveAttributes position? schema (a.name :: seen) rest
      .ok (⟨a.name, kind⟩ :: attributes)

/-- The schema of a definition. -/
def resolveSchema {n : Nat} (position? : String → Option (Fin n)) (d : Schema.Definition) :
    Except SchemaError (Schema n) := do
  let attributes ← resolveAttributes position? d.name [] d.attributes
  if d.attributes.any (·.name = d.primaryKey) then
    .ok ⟨d.name, d.space, d.primaryKey, attributes⟩
  else .error (.missingPrimaryKey d.name d.primaryKey)

/-- The first name in a list that stands before it already, given the names before the list. -/
def repeated? (seen : List String) : List String → Option String
  | [] => none
  | name :: rest => if name ∈ seen then some name else repeated? (name :: seen) rest

/-- The first relation whose remote attribute is not one of its target. -/
def badRemote? (g : Graph) : Option SchemaError :=
  (g.schemas.toList.flatMap Schema.relations).findSome? fun (attr, r) =>
    let target := g.schema r.target
    match r.remote with
    | none => none
    | some remote =>
      if (target.attribute? remote).isSome then none
      else some (.unknownRemote attr remote target.name)

/-- The graph of a list of definitions.  Repeated schema names are reported first, then what is
wrong with each definition in turn, and last what is wrong with remote attributes. -/
def build (definitions : List Schema.Definition) : Except SchemaError Graph :=
  match repeated? [] (definitions.map Schema.Definition.name) with
  | some name => .error (.duplicateSchema name)
  | none => do
    let ds : Vector Schema.Definition definitions.length := ⟨definitions.toArray, by simp⟩
    let schemas ← ds.mapM (resolveSchema fun name => ds.findFinIdx? (·.name = name))
    let g : Graph := ⟨definitions.length, schemas⟩
    match g.badRemote? with
    | some e => .error e
    | none => .ok g

end Graph

end Retrieval
