/-
# Stores of records

A store holds the records of every schema of a graph in the order of their insertion.  A record keeps
the key of what a to-one relation points at; what a to-many relation points at are the records of the
target whose remote attribute holds the owner's key.
-/
import Retrieval.Plan
import Retrieval.Store.Evaluate
import Retrieval.Store.Sort

namespace Retrieval

/-- Why a record or a list of records cannot be taken into a store. -/
inductive RecordFault where
  | missingKey (primaryKey : String)
  | nullKey (primaryKey : String)
  | duplicateKey (primaryKey key : String)
  /-- Records are given by schema names in an object. -/
  | notATable
  | notAList
deriving DecidableEq

/-- The text of a fault. -/
def RecordFault.message : RecordFault → String
  | missingKey primaryKey => s!"missing '{primaryKey}'"
  | nullKey primaryKey => s!"'{primaryKey}' is null"
  | duplicateKey primaryKey key => s!"duplicate {primaryKey} {key}"
  | notATable => "fixture must be an object of schema names"
  | notAList => "fixture rows must be an array"

/-- Why a store refuses a request. -/
inductive StoreError where
  | noFilterProvided (schema : String)
  | recordNotFound (schema : String)
  | multipleRecordsFound (schema : String) (count : Nat)
  | unknownSchema (schema : String)
  | invalidRecord (schema : String) (fault : RecordFault)
deriving DecidableEq

namespace StoreError

/-- The code under which the error is reported. -/
def code : StoreError → String
  | noFilterProvided .. => "SNATCH_STORE_NO_FILTER_PROVIDED"
  | recordNotFound .. => "SNATCH_STORE_RECORD_NOT_FOUND"
  | multipleRecordsFound .. => "SNATCH_STORE_MULTIPLE_RECORDS_FOUND"
  | unknownSchema .. => "SNATCH_STORE_UNKNOWN_SCHEMA"
  | invalidRecord .. => "SNATCH_STORE_INVALID_RECORD"

/-- The text of the error. -/
def message : StoreError → String
  | noFilterProvided schema => s!"A filter is required to retrieve a single '{schema}' record"
  | recordNotFound schema => s!"No '{schema}' record matches the filter"
  | multipleRecordsFound schema count =>
    s!"{count} '{schema}' records match the filter; expected exactly one"
  | unknownSchema schema => s!"Unknown schema '{schema}'"
  | invalidRecord schema fault => s!"Invalid '{schema}' record: {fault.message}"

/-- The status under which the error is answered. -/
def status : StoreError → Nat
  | noFilterProvided .. => 400
  | recordNotFound .. => 404
  | multipleRecordsFound .. => 400
  | unknownSchema .. => 404
  | invalidRecord .. => 500

end StoreError

/-- A record: the members of an object. -/
abbrev Record := List (String × Json)

/-- The records of every schema of a graph. -/
structure Store (g : Graph) where
  tables : Vector (List Record) g.size
deriving DecidableEq

/-- What a request asks of the records of a schema. -/
structure Selection (g : Graph) where
  /-- Which records; without a predicate all of them. -/
  predicate : Option Predicate
  order : List OrderKey
  /-- How many records to pass over. -/
  offset : Nat
  /-- How many records to take at most. -/
  limit : Option Nat
  /-- The related records to embed. -/
  plan : Option (Plan g)

namespace Store

variable {g : Graph}

/-- The store without records. -/
def empty : Store g := ⟨Vector.replicate g.size []⟩

/-- The records of a schema in the order of their insertion. -/
def rows (s : Store g) (i : g.Id) : List Record := s.tables.get i

/-- The schema that is asked for records. -/
def schemaNamed (g : Graph) (name : String) : Except StoreError g.Id :=
  match g.find? name with
  | some i => .ok i
  | none => .error (.unknownSchema name)

/-! ### Keys and relations -/

/-- Whether a member of a record is loosely equal to a value. -/
def hasMember (row : Record) (name : String) (value : Json) : Bool :=
  (Json.member? name row).any (·.looseEq value)

/-- The record of a key. -/
def findByKey? (s : Store g) (i : g.Id) (key : Json) : Option Record :=
  (s.rows i).find? (hasMember · (g.schema i).primaryKey key)

/-- The records that point at the owner of a key by the remote attribute of a relation. -/
def related (s : Store g) (r : Relation g.size) (ownerKey : Json) : List Record :=
  (s.rows r.target).filter (hasMember · (r.remote.getD "") ownerKey)

/-! ### Insertion -/

/-- What is wrong with a record to be inserted. -/
def fault? (s : Store g) (i : g.Id) (row : Record) : Option RecordFault :=
  let primaryKey := (g.schema i).primaryKey
  match Json.member? primaryKey row with
  | none => some (.missingKey primaryKey)
  | some .null => some (.nullKey primaryKey)
  | some key =>
    if (s.findByKey? i key).isSome then some (.duplicateKey primaryKey key.text) else none

/-- Insert a record, which has to be an object with a key of its own. -/
def insert (s : Store g) (schema : String) (row : Json) : Except StoreError (Store g) := do
  let i ← schemaNamed g schema
  match row with
  | .object members =>
    match s.fault? i members with
    | none => .ok ⟨s.tables.set i (s.rows i ++ [members])⟩
    | some fault => .error (.invalidRecord schema fault)
  | _ => .error (.invalidRecord schema (.missingKey (g.schema i).primaryKey))

/-- Insert several records one after the other. -/
def insertAll (s : Store g) (schema : String) : List Json → Except StoreError (Store g)
  | [] => .ok s
  | row :: rest => do
    let s ← s.insert schema row
    s.insertAll schema rest

/-- Insert the records of several schemas one after the other. -/
def insertTables (s : Store g) : List (String × Json) → Except StoreError (Store g)
  | [] => .ok s
  | (schema, .array rows) :: rest => do
    let s ← s.insertAll schema rows
    s.insertTables rest
  | (schema, _) :: _ => .error (.invalidRecord schema .notAList)

/-- The store of an object that gives lists of records by schema names. -/
def ofFixture (g : Graph) : Json → Except StoreError (Store g)
  | .object tables => (empty : Store g).insertTables tables
  | _ => .error (.invalidRecord "*" .notATable)

/-! ### Values under a path -/

/-- The records that a segment leads to from a record. -/
def step (s : Store g) (i : g.Id) (row : Record) (segment : String) : List (g.Id × Record) :=
  match ((g.schema i).attribute? segment).bind Attribute.relation? with
  | none => []
  | some r =>
    match r.cardinality with
    | .toOne =>
      let key := (Json.member? segment row).getD .null
      (s.findByKey? r.target key).toList.map (r.target, ·)
    | .toMany =>
      match Json.member? (g.schema i).primaryKey row with
      | some ownerKey => (s.related r ownerKey).map (r.target, ·)
      | none => []

/-- The values that the last segment of a path finds on a record: the value of a scalar, the key that
a to-one relation holds, the keys of the records that a to-many relation points at. -/
def values (s : Store g) (i : g.Id) (row : Record) (segment : String) : List Json :=
  match (g.schema i).attribute? segment with
  | none => []
  | some a =>
    match a.kind with
    | .scalar _ => [(Json.member? segment row).getD .null]
    | .relation r =>
      match r.cardinality with
      | .toOne => [(Json.member? segment row).getD .null]
      | .toMany =>
        match Json.member? (g.schema i).primaryKey row with
        | some ownerKey =>
          (s.related r ownerKey).map fun t =>
            (Json.member? (g.schema r.target).primaryKey t).getD .null
        | none => []

/-- All values that a path finds from a record. -/
def pathValues (s : Store g) (i : g.Id) (row : Record) : List String → List Json
  | [] => []
  | [segment] => s.values i row segment
  | segment :: next :: rest =>
    (s.step i row segment).flatMap fun (j, target) => s.pathValues j target (next :: rest)

/-! ### Embedding -/

mutual

/-- The value that embeds what a relation of a record leads to; `none` if the record keeps what it
holds. -/
def embedded? (s : Store g) (i : g.Id) (row : Record) (name : String) :
    Plan.Node g.size → Option Json
  | .closed _ => do
    let r ← ((g.schema i).attribute? name).bind Attribute.relation?
    match r.cardinality with
    | .toOne => do
      let key ← (Json.member? name row).filter (!·.isNull)
      let target ← s.findByKey? r.target key
      some (.object target)
    | .toMany => none
  | .expanded _ children => do
    let r ← ((g.schema i).attribute? name).bind Attribute.relation?
    match r.cardinality with
    | .toOne => do
      let key ← (Json.member? name row).filter (!·.isNull)
      let target ← s.findByKey? r.target key
      some (.object (embedAll s r.target target target children))
    | .toMany => do
      let ownerKey ← Json.member? (g.schema i).primaryKey row
      some (.array ((s.related r ownerKey).map fun t =>
        .object (embedAll s r.target t t children)))

/-- Embed what the planned relations of a record lead to, into a copy of it. -/
def embedAll (s : Store g) (i : g.Id) (row copy : Record) :
    List (String × Plan.Node g.size) → Record
  | [] => copy
  | (name, node) :: rest =>
    match embedded? s i row name node with
    | some v => embedAll s i row (Json.setMember name v copy) rest
    | none => embedAll s i row copy rest

end

/-- A record with the related records of a plan embedded. -/
def embed (s : Store g) (i : g.Id) (row : Record) (nodes : List (String × Plan.Node g.size)) :
    Record :=
  s.embedAll i row row nodes

/-! ### Reading -/

/-- Whether a record is selected. -/
def selects (s : Store g) (i : g.Id) (predicate : Option Predicate) (row : Record) : Bool :=
  match predicate with
  | none => true
  | some p => p.holds (s.pathValues i row)

/-- The selected records in the order of their insertion. -/
def matching (s : Store g) (i : g.Id) (predicate : Option Predicate) : List Record :=
  (s.rows i).filter (s.selects i predicate)

/-- The selected records in the requested order. -/
def ordered (s : Store g) (i : g.Id) (q : Selection g) : List Record :=
  sortRows q.order (fun row path => (s.pathValues i row path).head?) (s.matching i q.predicate)

/-- A page of the selected records with related records embedded. -/
def page (s : Store g) (i : g.Id) (q : Selection g) : List Record :=
  let rest := (s.ordered i q).drop q.offset
  let taken :=
    match q.limit with
    | some n => rest.take n
    | none => rest
  match q.plan with
  | some p => taken.map (s.embed i · p.relations)
  | none => taken

/-- The page of records that a selection asks of the schema of a name. -/
def fetch (s : Store g) (schema : String) (q : Selection g) : Except StoreError (List Record) := do
  let i ← schemaNamed g schema
  .ok (s.page i q)

/-- How many records of the schema of a name are selected, on all pages. -/
def count (s : Store g) (schema : String) (q : Selection g) : Except StoreError Nat := do
  let i ← schemaNamed g schema
  .ok (s.matching i q.predicate).length

/-- Whether there is a filter.  One that selects every record as it is written is none. -/
def requireFilter (schema : String) (predicate : Option Predicate) : Except StoreError Unit :=
  match predicate with
  | some p => if p.isAlways then .error (.noFilterProvided schema) else .ok ()
  | none => .error (.noFilterProvided schema)

/-- The only one of the selected records. -/
def only (schema : String) : List Record → Except StoreError Record
  | [] => .error (.recordNotFound schema)
  | [row] => .ok row
  | found => .error (.multipleRecordsFound schema found.length)

/-- The only record that a filter selects.  Without a filter nothing is read. -/
def fetchOne (s : Store g) (schema : String) (q : Selection g) : Except StoreError Record := do
  requireFilter schema q.predicate
  let found ← s.fetch schema { q with offset := 0, limit := none }
  only schema found

end Store

end Retrieval
