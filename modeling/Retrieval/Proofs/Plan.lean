/-
# Levels of plans

A plan holds a node for every relation of a schema that it reaches, under the name of the relation,
and behind a node it holds either nothing or the whole next level, with the levels of depth that are
left there.
-/
import Retrieval.Plan
import Retrieval.Proofs.Schema.Names
import Retrieval.Render

namespace Retrieval

namespace Plan

lemma mem_sortByName {α : Type} {named : List (String × α)} {x : String × α} :
    x ∈ sortByName named ↔ x ∈ named := List.mem_mergeSort

lemma nodup_sortByName {α : Type} {named : List (String × α)} (h : (named.map Prod.fst).Nodup) :
    ((sortByName named).map Prod.fst).Nodup :=
  (((List.mergeSort_perm named _).map Prod.fst).nodup_iff).2 h

lemma Node.at?_cons {n : Nat} (nodes : List (String × Node n)) (name : String) {path : List String}
    (h : path ≠ []) :
    Node.at? nodes (name :: path) =
      ((nodes.lookup name).bind Node.children?).bind (Node.at? · path) := by
  obtain ⟨next, rest, rfl⟩ := List.exists_cons_of_ne_nil h
  rw [Node.at?]
  cases nodes.lookup name <;> rfl

end Plan

namespace Render

variable {n : Nat} (nodes : Option (List (String × Plan.Node n))) (name : String)

lemma childrenOf_eq_bind_at? :
    childrenOf nodes name = (nodes.bind (Plan.Node.at? · [name])).bind Plan.Node.children? := rfl

/-- What is planned behind a relation is found under the paths that begin with its name. -/
lemma bind_at?_cons {path : List String} (h : path ≠ []) :
    nodes.bind (Plan.Node.at? · (name :: path)) =
      (childrenOf nodes name).bind (Plan.Node.at? · path) := by
  cases nodes with
  | none => rfl
  | some nodes => exact Plan.Node.at?_cons nodes name h

end Render

/-- The levels of depth that are left behind a relation. -/
def Relation.depthBehind {n : Nat} (r : Relation n) (depth : Nat) : Nat :=
  match r.cardinality with
  | .toOne => depth - 1
  | .toMany => depth

namespace Graph

variable {g : Graph}

/-- The node of a relation in a level that has `steps` more levels behind it in a chain. -/
def planNode (g : Graph) (steps depth : Nat) (r : Relation g.size) : Plan.Node g.size :=
  let step : Plan.Step g.size := ⟨r.target, r.cardinality, r.depthBehind depth⟩
  if 0 < r.depthBehind depth ∧ 0 < steps then
    .expanded step (g.planLevel steps (r.depthBehind depth) r.target)
  else .closed step

lemma planLevel_succ (steps depth : Nat) (i : g.Id) :
    g.planLevel (steps + 1) depth i =
      Plan.sortByName ((g.schema i).relations.map fun (name, r) =>
        (name, g.planNode steps depth r)) := rfl

/-- Relations that stand in the order of their names are planned in this order. -/
lemma planLevel_succ_of_pairwise {i : g.Id}
    (h : (g.schema i).relations.Pairwise fun a b => a.1 ≤ b.1) (steps depth : Nat) :
    g.planLevel (steps + 1) depth i =
      (g.schema i).relations.map fun (name, r) => (name, g.planNode steps depth r) :=
  List.mergeSort_of_pairwise (List.pairwise_map.2 (h.imp fun hle => by simpa using hle))

/-- The names in a level are those of the relations, each of them once. -/
lemma nodup_planLevel {i : g.Id} (h : (g.schema i).Distinct) (steps depth : Nat) :
    ((g.planLevel steps depth i).map Prod.fst).Nodup := by
  cases steps with
  | zero => simp [planLevel]
  | succ steps =>
    rw [planLevel_succ]
    refine Plan.nodup_sortByName ?_
    rw [List.map_map]
    exact h.nodup_relations

lemma lookup_planLevel {i : g.Id} (h : (g.schema i).Distinct) (steps depth : Nat) {name : String}
    {r : Relation g.size} (hr : (name, r) ∈ (g.schema i).relations) :
    (g.planLevel (steps + 1) depth i).lookup name = some (g.planNode steps depth r) := by
  rw [lookup_eq_some_iff_mem (nodup_planLevel h _ _), planLevel_succ, Plan.mem_sortByName]
  exact List.mem_map.2 ⟨_, hr, rfl⟩

/-- A plan is made for a depth between one and the ceiling, and holds the level of its root. -/
lemma plan_eq_ok_iff {root : g.Id} {requested : Int} {ceiling : Nat} {plan : Plan g} :
    g.plan root requested ceiling = .ok plan ↔
      (1 ≤ requested ∧ requested ≤ ceiling) ∧
        plan = ⟨root, requested.toNat, ceiling, g.planLevel ceiling requested.toNat root⟩ := by
  rw [Graph.plan]
  split
  · next h => simp [h, eq_comm]
  · next h => simp [h]

/-- The plan of the schema of a name is made for that schema as its root. -/
lemma planFor_eq_ok_iff {schema : String} {requested : Int} {ceiling : Nat} {plan : Plan g} :
    g.planFor schema requested ceiling = .ok plan ↔
      g.find? schema = some plan.root ∧ g.plan plan.root requested ceiling = .ok plan := by
  rw [planFor]
  constructor
  · intro h
    split at h
    · next root hroot =>
      have hplan : plan.root = root := by rw [(plan_eq_ok_iff.1 h).2]
      rw [hplan]
      exact ⟨hroot, h⟩
    · cases h
  · rintro ⟨hroot, hplan⟩
    rw [hroot]
    exact hplan

end Graph

/-! ### Levels -/

namespace Plan

/-- What a plan holds behind a relation to a schema, if `depth` levels of depth are left there. -/
inductive Level {g : Graph} (i : g.Id) (depth : Nat) : Option (List (String × Node g.size)) → Prop
  where
  | closed : Level i depth none
  | expanded (steps : Nat) : 0 < depth → Level i depth (some (g.planLevel steps depth i))

namespace Level

variable {g : Graph} {i : g.Id} {depth : Nat} {nodes? : Option (List (String × Node g.size))}

lemma nodup (h : Level i depth nodes?) (hi : (g.schema i).Distinct) :
    ((nodes?.getD []).map Prod.fst).Nodup := by
  cases h with
  | closed => simp
  | expanded steps _ => exact Graph.nodup_planLevel hi steps depth

lemma depth_pos (h : Level i depth nodes?) (hsome : nodes?.isSome) : 0 < depth := by
  cases h with
  | closed => cases hsome
  | expanded _ hpos => exact hpos

variable {name : String} {r : Relation g.size}

/-- What lies behind a relation is a level again, with the depth that is left there. -/
lemma behind (h : Level i depth nodes?) (hi : (g.schema i).Distinct)
    (hr : (name, r) ∈ (g.schema i).relations) :
    Level r.target (r.depthBehind depth) (Render.childrenOf nodes? name) := by
  cases h with
  | closed => exact .closed
  | expanded steps _ =>
    cases steps with
    | zero => exact .closed
    | succ steps =>
      rw [Render.childrenOf, Option.bind_some, Graph.lookup_planLevel hi steps depth hr,
        Option.bind_some, Graph.planNode]
      split
      · next hopen => exact .expanded steps hopen.1
      · exact .closed

end Level

end Plan

end Retrieval
