/-
# Rendering records

A record is rendered by its schema: declared scalars are copied, every relation becomes an envelope,
and what is not declared is left out.  A to-one relation is rendered if the record embeds it and the
budget of levels is not used up; a to-many relation if the plan expands it.  Whatever does not have
the expected shape degrades to an envelope without content.
-/
import Retrieval.Envelope
import Retrieval.Link
import Retrieval.Plan

namespace Retrieval

namespace Render

variable {n : Nat}

/-- The planned relations behind a relation. -/
def childrenOf (nodes : Option (List (String × Plan.Node n))) (name : String) :
    Option (List (String × Plan.Node n)) :=
  (nodes.bind (·.lookup name)).bind Plan.Node.children?

/-- The envelope of a to-one relation that holds `raw`, an embedded record or a key. -/
def toOneEnvelope (links : Links) (target : Schema n) (budget : Nat) (raw : Json)
    (rendered : Unit → Json) : Envelope :=
  match raw with
  | .null => .empty
  | .object members =>
    let link := (Json.member? target.primaryKey members).bind (links.detail? target)
    if budget = 0 then .linkOnly link else .expanded (rendered ()) link
  | key => .linkOnly (links.detail? target key)

/-- The link of a to-many relation named `name` of the owner of a key. -/
def listLink? (links : Links) (target : Schema n) (name : String) (r : Relation n)
    (ownerKey : Option Json) : Option String :=
  ownerKey.bind (links.list? target (r.remote.getD name))

/-- The envelope of a to-many relation that holds `raw`, embedded records or anything else. -/
def toManyEnvelope (link : Option String) (isPlanned : Bool) (raw : Json)
    (rendered : Unit → Json) : Envelope :=
  match raw with
  | .null | .array [] => .empty
  | .array _ => if isPlanned then .expanded (rendered ()) link else .linkOnly link
  | _ => .linkOnly link

/-- The envelopes of to-many relations about which a record holds nothing. -/
def absentEnvelopes (g : Graph) (links : Links) (i : g.Id) (members : List (String × Json)) :
    List (String × Json) :=
  let ownerKey := Json.member? (g.schema i).primaryKey members
  (g.schema i).relations.filterMap fun (name, r) =>
    if r.cardinality = .toMany ∧ (Json.member? name members).isNone then
      some (name, (Envelope.linkOnly (listLink? links (g.schema r.target) name r ownerKey)).toJson)
    else none

mutual

/-- Render a record of a schema. -/
def entity (g : Graph) (links : Links) (i : g.Id)
    (nodes : Option (List (String × Plan.Node g.size))) (budget : Nat) : Json → Json
  | .object members =>
    let ownerKey := Json.member? (g.schema i).primaryKey members
    let rendered := declared g links i nodes budget ownerKey members
    .object ((absentEnvelopes g links i members).foldl
      (fun out (name, v) => Json.setMember name v out) rendered)
  | .null => .null
  | .bool b => .bool b
  | .number x => .number x
  | .string s => .string s
  | .array items => .array items

/-- Render the declared members of a record whose key is `ownerKey`. -/
def declared (g : Graph) (links : Links) (i : g.Id)
    (nodes : Option (List (String × Plan.Node g.size))) (budget : Nat) (ownerKey : Option Json) :
    List (String × Json) → List (String × Json)
  | [] => []
  | (name, raw) :: rest =>
    let others := declared g links i nodes budget ownerKey rest
    match (g.schema i).attribute? name with
    | none => others
    | some a =>
      match a.kind with
      | .scalar _ => (name, raw) :: others
      | .relation r =>
        let target := g.schema r.target
        let children := childrenOf nodes name
        let envelope :=
          match r.cardinality with
          | .toOne => toOneEnvelope links target budget raw fun _ =>
              entity g links r.target children (budget - 1) raw
          | .toMany => toManyEnvelope (listLink? links target name r ownerKey) children.isSome raw
              fun _ => each g links r.target children budget raw
        (name, envelope.toJson) :: others

/-- Render every item of an array as a record. -/
def each (g : Graph) (links : Links) (i : g.Id)
    (nodes : Option (List (String × Plan.Node g.size))) (budget : Nat) : Json → Json
  | .array items => .array (entities g links i nodes budget items)
  | .null => .null
  | .bool b => .bool b
  | .number x => .number x
  | .string s => .string s
  | .object members => .object members

/-- Render several records. -/
def entities (g : Graph) (links : Links) (i : g.Id)
    (nodes : Option (List (String × Plan.Node g.size))) (budget : Nat) : List Json → List Json
  | [] => []
  | v :: rest => entity g links i nodes budget v :: entities g links i nodes budget rest

end

end Render

namespace Plan

variable {g : Graph}

/-- Render a record of a schema by the plan; the record itself has no envelope. -/
def render (p : Plan g) (links : Links) (i : g.Id) (budget : Nat) (record : Json) : Json :=
  Render.entity g links i (some p.relations) budget record

end Plan

end Retrieval
