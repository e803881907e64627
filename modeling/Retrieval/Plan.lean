/-
# Relation plans

A plan says for every relation that a request reaches whether and how far it is loaded.  A to-one
relation is loaded with its owner and uses up one level of the requested depth; a to-many relation
is loaded separately and uses up none.  No chain of relations is longer than the ceiling, so plans
over cyclic graphs are finite.
-/
import Retrieval.Schema.Graph
import Retrieval.Text

namespace Retrieval

/-- Why a relation plan is refused. -/
inductive PlanError where
  | depthOutOfRange (requested : Int) (ceiling : Nat)
  | unknownSchema (schema : String)
deriving DecidableEq

namespace PlanError

/-- The code under which the error is reported. -/
def code : PlanError → String
  | depthOutOfRange .. => "SNATCH_PLAN_DEPTH_OUT_OF_RANGE"
  | unknownSchema .. => "SNATCH_PLAN_UNKNOWN_SCHEMA"

/-- The text of the error. -/
def message : PlanError → String
  | depthOutOfRange requested ceiling =>
    s!"Depth {requested} is out of range: expected 1..={ceiling}"
  | unknownSchema schema => s!"Unknown schema '{schema}'"

/-- The status under which the error is answered. -/
def status : PlanError → Nat
  | depthOutOfRange .. => 400
  | unknownSchema .. => 404

end PlanError

/-- How a relation is loaded. -/
inductive FetchMode where
  /-- Together with its owner. -/
  | join
  /-- By a read of its own. -/
  | separate
deriving DecidableEq

/-- The name of a way of loading. -/
def FetchMode.name : FetchMode → String
  | join => "JOIN"
  | separate => "SEPARATE"

namespace Plan

/-- What a plan says of a relation itself. -/
structure Step (n : Nat) where
  /-- The schema that the relation leads to. -/
  target : Fin n
  cardinality : Cardinality
  /-- The levels of depth that are left behind the relation. -/
  remaining : Nat
deriving DecidableEq

/-- How the relation is loaded. -/
def Step.mode {n : Nat} (s : Step n) : FetchMode :=
  match s.cardinality with
  | .toOne => .join
  | .toMany => .separate

/-- A relation in a plan. -/
inductive Node (n : Nat) where
  /-- The relations of the target are not loaded. -/
  | closed (step : Step n)
  /-- The relations of the target are planned, by name in increasing order. -/
  | expanded (step : Step n) (children : List (String × Node n))

namespace Node

variable {n : Nat}

/-- What the plan says of the relation itself. -/
def step : Node n → Step n
  | closed s => s
  | expanded s _ => s

/-- The planned relations of the target. -/
def children? : Node n → Option (List (String × Node n))
  | closed _ => none
  | expanded _ children => some children

/-- The node that a path of names leads to. -/
def at? (nodes : List (String × Node n)) : List String → Option (Node n)
  | [] => none
  | [name] => nodes.lookup name
  | name :: next :: rest => do
    let node ← nodes.lookup name
    let children ← node.children?
    at? children (next :: rest)

mutual

/-- The number of nodes from a node on. -/
def count : Node n → Nat
  | closed _ => 1
  | expanded _ children => 1 + countAll children

/-- The number of nodes from several nodes on. -/
def countAll : List (String × Node n) → Nat
  | [] => 0
  | (_, node) :: rest => count node + countAll rest

end

end Node

/-- Named things in increasing order of their names. -/
def sortByName {α : Type} (named : List (String × α)) : List (String × α) :=
  named.mergeSort fun a b => decide (a.1 ≤ b.1)

end Plan

/-- The plan of a request. -/
structure Plan (g : Graph) where
  root : g.Id
  /-- The requested depth. -/
  maxDepth : Nat
  /-- The length of the longest chain of relations. -/
  ceiling : Nat
  /-- The relations of the root, by name in increasing order. -/
  relations : List (String × Plan.Node g.size)

namespace Graph

/-- The relations of a schema, at most `steps` of them in a chain and `depth` levels deep. -/
def planLevel (g : Graph) : (steps depth : Nat) → g.Id → List (String × Plan.Node g.size)
  | 0, _, _ => []
  | steps + 1, depth, i =>
    Plan.sortByName <| (g.schema i).relations.map fun (name, r) =>
      let remaining :=
        match r.cardinality with
        | .toOne => depth - 1
        | .toMany => depth
      let step : Plan.Step g.size := ⟨r.target, r.cardinality, remaining⟩
      (name,
        if 0 < remaining ∧ 0 < steps then .expanded step (g.planLevel steps remaining r.target)
        else .closed step)

/-- The plan of a schema for a requested depth, which lies between one and the ceiling. -/
def plan (g : Graph) (root : g.Id) (requested : Int) (ceiling : Nat) : Except PlanError (Plan g) :=
  if 1 ≤ requested ∧ requested ≤ ceiling then
    let depth := requested.toNat
    .ok ⟨root, depth, ceiling, g.planLevel ceiling depth root⟩
  else .error (.depthOutOfRange requested ceiling)

/-- The plan of the schema of a name. -/
def planFor (g : Graph) (schema : String) (requested : Int) (ceiling : Nat) :
    Except PlanError (Plan g) :=
  match g.find? schema with
  | some root => g.plan root requested ceiling
  | none => .error (.unknownSchema schema)

end Graph

namespace Plan

variable {g : Graph}

/-- The node that a path of names leads to. -/
def node? (p : Plan g) (path : List String) : Option (Node g.size) := Node.at? p.relations path

/-- The number of nodes. -/
def nodeCount (p : Plan g) : Nat := Node.countAll p.relations

/-! ### Loaded paths -/

/-- A path behind another one. -/
def extendPath (base name : String) : String :=
  if base.isEmpty then name else base ++ "." ++ name

/-- Whether some node is loaded with its owner. -/
def Node.anyJoin {n : Nat} (nodes : List (String × Node n)) : Bool :=
  nodes.any fun (_, node) => node.step.mode = .join

mutual

/-- The paths that one read loads, from a node on: chains of joins to their ends, and separate
relations.  A path is marked as separate if a separate relation is on it. -/
def Node.loads {n : Nat} (path : String) (below : Bool) : Node n → List (FetchMode × String)
  | .closed s =>
    match s.mode with
    | .separate => [(.separate, path)]
    | .join => [(if below then .separate else .join, path)]
  | .expanded s children =>
    match s.mode with
    | .separate => (.separate, path) :: Node.loadsAll path true children
    | .join =>
      (if Node.anyJoin children then [] else [(if below then .separate else .join, path)]) ++
        Node.loadsAll path below children

/-- The paths that one read loads, from several nodes on. -/
def Node.loadsAll {n : Nat} (base : String) (below : Bool) :
    List (String × Node n) → List (FetchMode × String)
  | [] => []
  | (name, node) :: rest =>
    Node.loads (extendPath base name) below node ++ Node.loadsAll base below rest

end

/-- The paths that are loaded together with the root. -/
def joinPaths (p : Plan g) : List String :=
  (Node.loadsAll "" false p.relations).filterMap fun (mode, path) =>
    if mode = .join then some path else none

/-- The paths that need reads of their own. -/
def separatePaths (p : Plan g) : List String :=
  (Node.loadsAll "" false p.relations).filterMap fun (mode, path) =>
    if mode = .separate then some path else none

/-! ### JSON form -/

/-- The JSON form of a node with its step and the JSON form of the relations behind it. -/
def Step.toJson (g : Graph) (s : Step g.size) (children : Json) : Json :=
  .ofMembers
    [("fetch_mode", .string s.mode.name), ("remaining_depth", .int s.remaining),
      ("target", .string (g.schema s.target).name), ("cardinality", .string s.cardinality.name),
      ("children", children)]

mutual

/-- The JSON form of a node; what lies behind a closed one is `null`. -/
def Node.toJson (g : Graph) : Node g.size → Json
  | .closed s => s.toJson g .null
  | .expanded s children => s.toJson g (.object (Node.allToJson g children))

/-- The JSON forms of nodes by name. -/
def Node.allToJson (g : Graph) : List (String × Node g.size) → List (String × Json)
  | [] => []
  | (name, node) :: rest => (name, Node.toJson g node) :: Node.allToJson g rest

end

/-- The JSON form of a plan. -/
def toJson (p : Plan g) : Json :=
  .ofMembers
    [("root", .string (g.schema p.root).name), ("max_depth", .int p.maxDepth),
      ("ceiling", .int p.ceiling), ("relations", .object (Node.allToJson g p.relations))]

end Plan

end Retrieval
