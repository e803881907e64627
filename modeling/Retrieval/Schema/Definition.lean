/-
# Schema definitions

A definition declares one kind of entity: its name, the name of its primary key and its attributes
in order.  An attribute is a scalar of some value type or a relation to another schema, which is
named but not yet looked up.
-/
import Retrieval.Json.Record

namespace Retrieval

/-- The type of the values of a scalar attribute. -/
inductive ValueType where
  | string
  | int
  | float
  | bool
  | date
  | datetime
  /-- Values of any type; an operand is read as what it looks like. -/
  | any
deriving DecidableEq

namespace ValueType

/-- The name of a value type. -/
def name : ValueType → String
  | string => "string"
  | int => "int"
  | float => "float"
  | bool => "bool"
  | date => "date"
  | datetime => "datetime"
  | any => "any"

/-- All value types. -/
def all : List ValueType := [string, int, float, bool, date, datetime, any]

/-- The value type of a name. -/
def ofName? (s : String) : Option ValueType := all.find? (·.name = s)

/-- Whether values have a year, a month and a day. -/
def hasDateParts : ValueType → Bool
  | date | datetime | any => true
  | _ => false

theorem ofName?_name (t : ValueType) : ofName? t.name = some t := by cases t <;> decide

end ValueType

/-- How many entities a relation points at. -/
inductive Cardinality where
  | toOne
  | toMany
deriving DecidableEq

namespace Cardinality

/-- The name of a cardinality. -/
def name : Cardinality → String
  | toOne => "to-one"
  | toMany => "to-many"

/-- The cardinality of a name. -/
def ofName? (s : String) : Option Cardinality := [toOne, toMany].find? (·.name = s)

theorem ofName?_name (c : Cardinality) : ofName? c.name = some c := by cases c <;> decide

end Cardinality

namespace Schema

/-- The definition of an attribute: a relation if it has a cardinality, else a scalar. -/
structure AttributeDefinition where
  name : String
  /-- The type of a scalar, `any` if not given. -/
  type : Option ValueType
  relation : Option Cardinality
  /-- The name of the schema that a relation points at. -/
  target : Option String
  nullable : Bool
  /-- The attribute of the target that points back. -/
  remote : Option String
deriving DecidableEq

/-- The definition of a schema. -/
structure Definition where
  name : String
  /-- The part of a route in front of the name. -/
  space : Option String
  /-- The name of the attribute that identifies a record. -/
  primaryKey : String
  attributes : List AttributeDefinition
deriving DecidableEq

namespace Definition

/-- The primary key of a definition that does not name one. -/
def defaultPrimaryKey : String := "id"

/-- A definition without attributes. -/
def ofName (name : String) : Definition := ⟨name, none, defaultPrimaryKey, []⟩

/-- Add an attribute at the end. -/
def add (d : Definition) (a : AttributeDefinition) : Definition :=
  { d with attributes := d.attributes ++ [a] }

/-- Add a scalar attribute. -/
def scalar (d : Definition) (name : String) (type : ValueType) : Definition :=
  d.add ⟨name, some type, none, none, false, none⟩

/-- Add a to-one relation. -/
def toOne (d : Definition) (name target : String) (nullable : Bool) : Definition :=
  d.add ⟨name, none, some .toOne, some target, nullable, none⟩

/-- Add a to-many relation to the records whose attribute `remote` points back. -/
def toMany (d : Definition) (name target remote : String) : Definition :=
  d.add ⟨name, none, some .toMany, some target, true, some remote⟩

end Definition

/-! ### JSON form -/

namespace AttributeDefinition

/-- The fields of the JSON form, in order. -/
def fieldNames : List String := ["name", "type", "relation", "target", "nullable", "remote"]

/-- Read the JSON form of an attribute. -/
def ofJson? (v : Json) : Option AttributeDefinition := do
  let field ← v.fields? fieldNames 1
  let name ← (field "name").bind Json.string?
  let type ← Json.optional? (fun t => t.enumerator?.bind ValueType.ofName?) (field "type")
  let relation ←
    Json.optional? (fun c => c.enumerator?.bind Cardinality.ofName?) (field "relation")
  let target ← Json.optional? Json.string? (field "target")
  let nullable ← Json.withDefault? Json.bool? false (field "nullable")
  let remote ← Json.optional? Json.string? (field "remote")
  some ⟨name, type, relation, target, nullable, remote⟩

/-- The JSON form of an attribute; what is not given is left out. -/
def toJson (a : AttributeDefinition) : Json :=
  .ofMembers <|
    [("name", .string a.name)] ++
    Json.optionalMember "type" (a.type.map fun t => .string t.name) ++
    Json.optionalMember "relation" (a.relation.map fun c => .string c.name) ++
    Json.optionalMember "target" (a.target.map .string) ++
    [("nullable", .bool a.nullable)] ++
    Json.optionalMember "remote" (a.remote.map .string)

end AttributeDefinition

namespace Definition

/-- The fields of the JSON form, in order. -/
def fieldNames : List String := ["name", "namespace", "primary_key", "attributes"]

/-- Read the JSON form of a definition. -/
def ofJson? (v : Json) : Option Definition := do
  let field ← v.fields? fieldNames 1
  let name ← (field "name").bind Json.string?
  let space ← Json.optional? Json.string? (field "namespace")
  let primaryKey ← Json.withDefault? Json.string? defaultPrimaryKey (field "primary_key")
  let attributes ←
    Json.withDefault? (Json.list? AttributeDefinition.ofJson?) [] (field "attributes")
  some ⟨name, space, primaryKey, attributes⟩

/-- The JSON form of a definition. -/
def toJson (d : Definition) : Json :=
  .ofMembers <|
    [("name", .string d.name)] ++
    Json.optionalMember "namespace" (d.space.map .string) ++
    [("primary_key", .string d.primaryKey),
     ("attributes", .array (d.attributes.map AttributeDefinition.toJson))]

/-- The definitions of a text in JSON: a definition, or else an array of them. -/
def allOfJson? (v : Json) : Option (List Definition) :=
  match ofJson? v with
  | some d => some [d]
  | none => Json.list? ofJson? v

end Definition

end Schema

end Retrieval
