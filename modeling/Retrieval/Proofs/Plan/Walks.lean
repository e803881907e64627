/-
# Plans are the walks of their graph

A plan has a node for each walk along relations from its root, as long as the walk is no longer
than the ceiling and has less to-one relations in front of its last relation than the requested
depth.  The node says where the walk leads, how its last relation is loaded and what depth is left
there, and the number of nodes is the number of these walks.  Graphs may be cyclic: what ends the
walks is the ceiling.
-/
import Mathlib.Data.List.Permutation
import Mathlib.Data.Set.Card
import Mathlib.Data.String.Basic
import Retrieval.Proofs.Plan
import Retrieval.Proofs.Schema.Walks

namespace Retrieval

/-! ### Paths of nodes -/

namespace Plan.Node

variable {n : Nat}

mutual

/-- The paths that go on behind a node. -/
def pathsBehind : Node n → List (List String)
  | closed _ => []
  | expanded _ children => paths children

/-- The paths that lead to nodes. -/
def paths : List (String × Node n) → List (List String)
  | [] => []
  | (name, node) :: rest => [name] :: (pathsBehind node).map (name :: ·) ++ paths rest

end

mutual

lemma length_pathsBehind (node : Node n) : (pathsBehind node).length + 1 = count node := by
  cases node with
  | closed s => rw [pathsBehind, count, List.length_nil]
  | expanded s children =>
    rw [pathsBehind, count, length_paths children, Nat.add_comm]

/-- There are as many paths as nodes. -/
lemma length_paths (nodes : List (String × Node n)) : (paths nodes).length = countAll nodes := by
  match nodes with
  | [] => rw [paths, countAll, List.length_nil]
  | (name, node) :: rest =>
    have hnode := length_pathsBehind node
    have hrest := length_paths rest
    rw [paths, countAll]
    simp only [List.cons_append, List.length_cons, List.length_append, List.length_map]
    omega

end

lemma ne_nil_of_mem_paths {nodes : List (String × Node n)} {path : List String}
    (h : path ∈ paths nodes) : path ≠ [] := by
  induction nodes with
  | nil =>
    rw [paths] at h
    cases h
  | cons named rest ih =>
    obtain ⟨name, node⟩ := named
    rw [paths, List.cons_append, List.mem_cons, List.mem_append, List.mem_map] at h
    rcases h with rfl | ⟨behind, -, rfl⟩ | h
    · simp
    · simp
    · exact ih h

lemma pathsBehind_eq (node : Node n) : pathsBehind node = (node.children?.map paths).getD [] := by
  cases node <;> rw [pathsBehind] <;> rfl

/-- A path leads to a node, or on from behind one. -/
lemma cons_mem_paths_iff {nodes : List (String × Node n)} (h : (nodes.map Prod.fst).Nodup)
    {name : String} {path : List String} :
    name :: path ∈ paths nodes ↔
      ∃ node, nodes.lookup name = some node ∧ (path = [] ∨ path ∈ pathsBehind node) := by
  induction nodes with
  | nil => simp [paths]
  | cons named rest ih =>
    obtain ⟨other, node⟩ := named
    obtain ⟨hnew, hrest⟩ := List.nodup_cons.1 h
    rw [paths, List.cons_append, List.mem_cons, List.mem_append, List.mem_map, ih hrest]
    by_cases hname : name = other
    · -- no later node has this name
      subst hname
      have hnone : rest.lookup name = none := lookup_eq_none_of_notMem hnew
      simp [hnone]
    · have hlookup : ((other, node) :: rest).lookup name = rest.lookup name := by
        rw [List.lookup_cons, beq_false_of_ne hname]
      simp [hlookup, hname, Ne.symm hname]

/-- Nodes of different names have different paths if no node repeats a path behind it. -/
lemma nodup_paths {nodes : List (String × Node n)} (h : (nodes.map Prod.fst).Nodup)
    (hbehind : ∀ named ∈ nodes, (pathsBehind named.2).Nodup) : (paths nodes).Nodup := by
  induction nodes with
  | nil => simp [paths]
  | cons named rest ih =>
    obtain ⟨name, node⟩ := named
    obtain ⟨hnew, hrest⟩ := List.nodup_cons.1 h
    have hnone : rest.lookup name = none := lookup_eq_none_of_notMem hnew
    -- the paths of the other nodes begin with other names
    have hother : ∀ path, name :: path ∉ paths rest := by
      intro path hpath
      obtain ⟨node', hnode', -⟩ := (cons_mem_paths_iff hrest).1 hpath
      rw [hnone] at hnode'
      cases hnode'
    have hnil : [] ∉ pathsBehind node := by
      intro hmem
      rw [pathsBehind_eq] at hmem
      cases hc : node.children? with
      | none => simp [hc] at hmem
      | some children =>
        rw [hc] at hmem
        exact ne_nil_of_mem_paths hmem rfl
    rw [paths, List.cons_append, List.nodup_cons, List.nodup_append]
    refine ⟨?_, (hbehind (name, node) (by simp)).map List.cons_injective, ih hrest fun named hmem =>
      hbehind named (by simp [hmem]), ?_⟩
    · rw [List.mem_append, List.mem_map]
      rintro (⟨path, hpath, heq⟩ | hmem)
      · cases heq
        exact hnil hpath
      · exact hother [] hmem
    · rintro path hpath path' hpath' rfl
      obtain ⟨behind, -, rfl⟩ := List.mem_map.1 hpath
      exact hother behind hpath'

end Plan.Node

/-! ### Levels -/

section Depth

variable {n : Nat} (name : String) (r : Relation n) (edges : List (String × Relation n))
  {depth : Nat}

/-- A walk may go on behind a relation as long as depth is left there. -/
lemma toOnes_cons_lt_iff :
    toOnes ((name, r) :: edges) < depth ↔ toOnes edges < r.depthBehind depth := by
  rw [toOnes_cons, Relation.depthBehind]
  cases r.cardinality
  · dsimp only
    omega
  · rw [Nat.zero_add]

lemma depthBehind_sub_toOnes :
    r.depthBehind depth - toOnes edges = depth - toOnes ((name, r) :: edges) := by
  rw [toOnes_cons, Relation.depthBehind]
  cases r.cardinality
  · exact Nat.sub_sub depth 1 _
  · rw [Nat.zero_add]

end Depth

namespace Graph

variable {g : Graph}

lemma children?_planNode (steps depth : Nat) (r : Relation g.size) :
    (g.planNode steps depth r).children? =
      if 0 < r.depthBehind depth ∧ 0 < steps then
        some (g.planLevel steps (r.depthBehind depth) r.target)
      else none := by
  rw [planNode]
  split <;> rfl

lemma step_planNode (steps depth : Nat) (r : Relation g.size) :
    (g.planNode steps depth r).step = ⟨r.target, r.cardinality, r.depthBehind depth⟩ := by
  rw [planNode]
  split <;> rfl

variable (hg : ∀ i, (g.schema i).Distinct)
include hg

lemma lookup_planLevel_eq_some_iff {steps depth : Nat} {i : g.Id} {name : String}
    {node : Plan.Node g.size} :
    (g.planLevel steps depth i).lookup name = some node ↔
      ∃ r, (name, r) ∈ (g.schema i).relations ∧ 0 < steps ∧
        node = g.planNode (steps - 1) depth r := by
  cases steps with
  | zero => simp [planLevel]
  | succ steps =>
    rw [lookup_eq_some_iff_mem (nodup_planLevel (hg i) _ _), planLevel_succ, Plan.mem_sortByName,
      List.mem_map]
    constructor
    · rintro ⟨⟨_, r⟩, hr, ⟨⟩⟩
      exact ⟨r, hr, by omega, rfl⟩
    · rintro ⟨r, hr, -, rfl⟩
      exact ⟨(name, r), hr, rfl⟩

/-- The nodes of a level, by the walks that lead to them. -/
lemma at?_planLevel_eq_some_iff {steps depth : Nat} (hdepth : 0 < depth) {i : g.Id}
    {path : List String} {node : Plan.Node g.size} :
    Plan.Node.at? (g.planLevel steps depth i) path = some node ↔
      ∃ edges j name r, g.Walk i edges j ∧ (name, r) ∈ (g.schema j).relations ∧
        path = edges.map Prod.fst ++ [name] ∧ edges.length < steps ∧ toOnes edges < depth ∧
        node = g.planNode (steps - 1 - edges.length) (depth - toOnes edges) r := by
  induction path generalizing steps depth i with
  | nil =>
    rw [Plan.Node.at?]
    simp
  | cons name path ih =>
    by_cases hpath : path = []
    · -- a single name is that of a relation of the schema itself
      subst hpath
      rw [Plan.Node.at?, lookup_planLevel_eq_some_iff hg]
      constructor
      · rintro ⟨r, hr, hsteps, rfl⟩
        exact ⟨[], i, name, r, .nil i, hr, rfl, hsteps, hdepth, rfl⟩
      · rintro ⟨edges, j, last, r, hwalk, hr, hpath, hlength, -, rfl⟩
        cases hwalk with
        | nil =>
          obtain rfl : name = last := by simpa using hpath
          exact ⟨r, hr, hlength, rfl⟩
        | cons => simp at hpath
    · -- behind its first relation a path is one of the level that is left there
      rw [Plan.Node.at?_cons _ _ hpath]
      simp only [Option.bind_eq_some_iff, lookup_planLevel_eq_some_iff hg]
      constructor
      · rintro ⟨children, ⟨first, ⟨q, hq, hsteps, rfl⟩, hchildren⟩, hnode⟩
        rw [children?_planNode] at hchildren
        split at hchildren
        · next hopen =>
          cases hchildren
          obtain ⟨edges, j, last, r, hwalk, hr, rfl, hlength, hones, rfl⟩ := (ih hopen.1).1 hnode
          refine ⟨(name, q) :: edges, j, last, r, .cons hq hwalk, hr, rfl, ?_,
            (toOnes_cons_lt_iff name q edges).2 hones, ?_⟩
          · rw [List.length_cons]
            omega
          · rw [depthBehind_sub_toOnes name, List.length_cons, Nat.add_comm edges.length,
              Nat.sub_sub _ 1 edges.length]
        · cases hchildren
      · rintro ⟨edges, j, last, r, hwalk, hr, heq, hlength, hones, rfl⟩
        cases hwalk with
        | nil =>
          obtain ⟨-, rfl⟩ : name = last ∧ path = [] := by simpa using heq
          exact absurd rfl hpath
        | @cons _ _ first q edges hq hwalk =>
          simp only [List.map_cons, List.cons_append, List.cons.injEq] at heq
          obtain ⟨rfl, rfl⟩ := heq
          rw [toOnes_cons_lt_iff] at hones
          rw [List.length_cons] at hlength
          have hbehind : 0 < q.depthBehind depth := by omega
          refine ⟨_, ⟨_, ⟨q, hq, by omega, rfl⟩, (children?_planNode _ _ _).trans
            (if_pos ⟨hbehind, by omega⟩)⟩, (ih hbehind).2 ⟨edges, j, last, r, hwalk, hr, rfl,
              by omega, hones, ?_⟩⟩
          rw [depthBehind_sub_toOnes name, List.length_cons, Nat.add_comm edges.length,
            Nat.sub_sub _ 1 edges.length]

/-! ### Counting -/

lemma mem_paths_planLevel_iff {steps depth : Nat} {i : g.Id} {path : List String} :
    path ∈ Plan.Node.paths (g.planLevel steps depth i) ↔
      (Plan.Node.at? (g.planLevel steps depth i) path).isSome := by
  induction path generalizing steps depth i with
  | nil =>
    rw [Plan.Node.at?]
    exact ⟨fun h => absurd rfl (Plan.Node.ne_nil_of_mem_paths h), fun h => by cases h⟩
  | cons name path ih =>
    rw [Plan.Node.cons_mem_paths_iff (nodup_planLevel (hg i) _ _)]
    by_cases hpath : path = []
    · subst hpath
      rw [Plan.Node.at?, Option.isSome_iff_exists]
      simp
    · rw [Plan.Node.at?_cons _ _ hpath]
      cases hnode : (g.planLevel steps depth i).lookup name with
      | none => simp
      | some node =>
        -- what lies behind the node is closed or a level itself
        obtain ⟨r, -, -, rfl⟩ := (lookup_planLevel_eq_some_iff hg).1 hnode
        simp only [Option.some.injEq, exists_eq_left', hpath, false_or, Option.bind_some,
          Plan.Node.pathsBehind_eq, children?_planNode]
        split
        · exact ih
        · simp

lemma nodup_paths_planLevel (steps depth : Nat) (i : g.Id) :
    (Plan.Node.paths (g.planLevel steps depth i)).Nodup := by
  induction steps generalizing depth i with
  | zero => simp [planLevel, Plan.Node.paths]
  | succ steps ih =>
    refine Plan.Node.nodup_paths (nodup_planLevel (hg i) _ _) ?_
    rintro ⟨name, node⟩ hnode
    rw [planLevel_succ, Plan.mem_sortByName, List.mem_map] at hnode
    obtain ⟨⟨_, r⟩, -, h⟩ := hnode
    cases h
    rw [Plan.Node.pathsBehind_eq, children?_planNode]
    split
    · exact ih _ _
    · simp

end Graph

/-! ### Plans -/

/-- Whether a walk is short enough for a ceiling and, in front of its last relation, shallow enough
for a requested depth. -/
structure WithinPlan {n : Nat} (requested : Int) (ceiling : Nat)
    (edges : List (String × Relation n)) : Prop where
  ne_nil : edges ≠ []
  length_le : edges.length ≤ ceiling
  toOnes_lt : (toOnes edges.dropLast : Int) < requested

/-- What the node at the end of a walk to a schema says. -/
structure EndsWalk {n : Nat} (node : Plan.Node n) (requested : Int) (ceiling : Nat)
    (edges : List (String × Relation n)) (target : Fin n) : Prop where
  target_eq : node.step.target = target
  cardinality_eq : ∀ edge ∈ edges.getLast?, node.step.cardinality = edge.2.cardinality
  mode_eq_join_iff : ∀ edge ∈ edges.getLast?,
    (node.step.mode = .join ↔ edge.2.cardinality = .toOne)
  remaining_eq : (node.step.remaining : Int) = requested - toOnes edges
  children_isSome_iff : ∀ edge ∈ edges.getLast?,
    (node.children?.isSome ↔
      edges.length < ceiling ∧ (edge.2.cardinality = .toMany ∨ 0 < node.step.remaining))

namespace Graph

variable {g : Graph}

variable (hg : ∀ i, (g.schema i).Distinct) {root : g.Id} {requested : Int} {ceiling : Nat}
  {plan : Plan g}
include hg

/-- The nodes of a plan, by the walks that lead to them. -/
lemma node?_eq_some_iff (h : g.plan root requested ceiling = .ok plan) {path : List String}
    {node : Plan.Node g.size} :
    plan.node? path = some node ↔
      ∃ edges j name r, g.Walk root edges j ∧ (name, r) ∈ (g.schema j).relations ∧
        path = (edges ++ [(name, r)]).map Prod.fst ∧
        WithinPlan requested ceiling (edges ++ [(name, r)]) ∧
        node = g.planNode (ceiling - 1 - edges.length) (requested.toNat - toOnes edges) r := by
  obtain ⟨⟨hpos, -⟩, rfl⟩ := plan_eq_ok_iff.1 h
  have hwithin : ∀ (edges : List (String × Relation g.size)) (edge : String × Relation g.size),
      WithinPlan requested ceiling (edges ++ [edge]) ↔
        edges.length < ceiling ∧ toOnes edges < requested.toNat := by
    intro edges edge
    constructor
    · rintro ⟨-, hlength, hones⟩
      rw [List.length_append, List.length_singleton] at hlength
      rw [List.dropLast_concat] at hones
      omega
    · rintro ⟨hlength, hones⟩
      refine ⟨by simp, by simpa using hlength, ?_⟩
      rw [List.dropLast_concat]
      omega
  rw [Plan.node?, at?_planLevel_eq_some_iff hg (by omega)]
  simp only [hwithin, List.map_append, List.map_cons, List.map_nil, and_assoc]

/-- A node says what the walk to it does. -/
lemma endsWalk_of_node? (h : g.plan root requested ceiling = .ok plan)
    {edges : List (String × Relation g.size)} {target : g.Id} (hwalk : g.Walk root edges target)
    {node : Plan.Node g.size} (hnode : plan.node? (edges.map Prod.fst) = some node) :
    EndsWalk node requested ceiling edges target := by
  obtain ⟨front, j, name, r, hfront, hr, hnames, hwithin, rfl⟩ := (node?_eq_some_iff hg h).1 hnode
  -- the names of the path leave no choice of another walk
  obtain ⟨rfl, rfl⟩ := hwalk.eq_of_names_eq hg (Walk.concat_iff.2 ⟨j, hfront, hr, rfl⟩) hnames
  have hlength := hwithin.length_le
  have hones := hwithin.toOnes_lt
  rw [List.length_append, List.length_singleton] at hlength
  rw [List.dropLast_concat] at hones
  have hlast : (front ++ [(name, r)]).getLast? = some (name, r) := List.getLast?_concat
  have hremaining :
      (r.depthBehind (requested.toNat - toOnes front) : Int) =
        requested - toOnes (front ++ [(name, r)]) := by
    rw [toOnes_append, toOnes_cons, toOnes_nil, Relation.depthBehind]
    cases r.cardinality <;> dsimp only <;> omega
  constructor
  · rw [step_planNode]
  · rintro _ hedge
    cases hlast.symm.trans hedge
    rw [step_planNode]
  · rintro _ hedge
    cases hlast.symm.trans hedge
    rw [step_planNode, Plan.Step.mode]
    cases r.cardinality <;> simp
  · rw [step_planNode]
    exact hremaining
  · rintro _ hedge
    cases hlast.symm.trans hedge
    rw [step_planNode, children?_planNode, List.length_append, List.length_singleton]
    have hmany : r.cardinality = .toMany → 0 < r.depthBehind (requested.toNat - toOnes front) := by
      intro hc
      rw [Relation.depthBehind, hc]
      dsimp only
      omega
    constructor
    · intro hopen
      split at hopen
      · next h => exact ⟨by omega, .inr h.1⟩
      · cases hopen
    · rintro ⟨hbelow, hc | hleft⟩
      · rw [if_pos ⟨hmany hc, by omega⟩, Option.isSome_some]
      · rw [if_pos ⟨hleft, by omega⟩, Option.isSome_some]

/-- The paths of nodes are those of the walks within the plan. -/
lemma node?_isSome_iff (h : g.plan root requested ceiling = .ok plan) (path : List String) :
    (plan.node? path).isSome ↔
      ∃ edges j, g.Walk root edges j ∧ path = edges.map Prod.fst ∧
        WithinPlan requested ceiling edges := by
  rw [Option.isSome_iff_exists]
  simp only [node?_eq_some_iff hg h]
  constructor
  · rintro ⟨_, edges, j, name, r, hwalk, hr, hpath, hwithin, -⟩
    exact ⟨_, _, Walk.concat_iff.2 ⟨j, hwalk, hr, rfl⟩, hpath, hwithin⟩
  · rintro ⟨edges, j, hwalk, hpath, hwithin⟩
    obtain ⟨front, ⟨name, r⟩, rfl⟩ := (List.eq_nil_or_concat' edges).resolve_left hwithin.ne_nil
    obtain ⟨k, hfront, hr, -⟩ := Walk.concat_iff.1 hwalk
    exact ⟨_, front, k, name, r, hfront, hr, hpath, hwithin, rfl⟩

/-- The number of nodes is the number of paths that lead to one. -/
lemma nodeCount_eq_encard (h : g.plan root requested ceiling = .ok plan) :
    (plan.nodeCount : ℕ∞) = Set.encard {path | (plan.node? path).isSome} := by
  obtain ⟨-, rfl⟩ := plan_eq_ok_iff.1 h
  have hset : {path | (Plan.Node.at? (g.planLevel ceiling requested.toNat root) path).isSome} =
      (Plan.Node.paths (g.planLevel ceiling requested.toNat root)).toFinset := by
    ext path
    simp [mem_paths_planLevel_iff hg]
  rw [Plan.nodeCount, ← Plan.Node.length_paths]
  simp only [Plan.node?]
  rw [hset, Set.encard_coe_eq_coe_finsetCard,
    List.toFinset_card_of_nodup (nodup_paths_planLevel hg _ _ _)]

end Graph

/-- **Plans are walks.**  For any graph that was built, cyclic or not, a plan is made exactly for a
depth between one and the ceiling.  It has a node under a path exactly if the path is a walk of
relations from the root that stays within the plan; the node says what the walk does; and there are
as many nodes as such walks. -/
theorem plan_node?_iff_walk {definitions : List Schema.Definition} {g : Graph}
    (hg : Graph.build definitions = .ok g) (root : g.Id) (requested : Int) (ceiling : Nat) :
    ((∃ plan, g.plan root requested ceiling = .ok plan) ↔
      1 ≤ requested ∧ requested ≤ ceiling) ∧
    ∀ plan, g.plan root requested ceiling = .ok plan →
      (∀ path, (plan.node? path).isSome ↔
        ∃ edges j, g.Walk root edges j ∧ path = edges.map Prod.fst ∧
          WithinPlan requested ceiling edges) ∧
      (∀ edges j node, g.Walk root edges j → plan.node? (edges.map Prod.fst) = some node →
        EndsWalk node requested ceiling edges j) ∧
      (plan.nodeCount : ℕ∞) = Set.encard
        {path | ∃ edges j, g.Walk root edges j ∧ path = edges.map Prod.fst ∧
          WithinPlan requested ceiling edges} := by
  have hdistinct := Graph.distinct_of_build hg
  refine ⟨?_, fun plan hplan => ⟨?_, ?_, ?_⟩⟩
  · constructor
    · rintro ⟨plan, hplan⟩
      exact (Graph.plan_eq_ok_iff.1 hplan).1
    · intro hrange
      exact ⟨_, Graph.plan_eq_ok_iff.2 ⟨hrange, rfl⟩⟩
  · exact Graph.node?_isSome_iff hdistinct hplan
  · intro edges j node hwalk hnode
    exact Graph.endsWalk_of_node? hdistinct hplan hwalk hnode
  · rw [Graph.nodeCount_eq_encard hdistinct hplan]
    simp only [Graph.node?_isSome_iff hdistinct hplan]

/-- Persons with mentors and pets, so that relations of both kinds lead back to where they come
from. -/
def shelterDefinitions : List Schema.Definition :=
  [Schema.Definition.ofName "Person" |>.scalar "id" .int |>.scalar "name" .string
    |>.toOne "mentor" "Person" true |>.toMany "pets" "Pet" "owner",
   Schema.Definition.ofName "Pet" |>.scalar "id" .int |>.scalar "name" .string
    |>.toOne "owner" "Person" true]

/-- The graph of these definitions. -/
def shelterGraph : Graph :=
  ⟨2, #v[⟨"Person", none, "id", [⟨"id", .scalar .int⟩, ⟨"name", .scalar .string⟩,
      ⟨"mentor", .relation ⟨.toOne, true, 0, none⟩⟩,
      ⟨"pets", .relation ⟨.toMany, true, 1, some "owner"⟩⟩]⟩,
    ⟨"Pet", none, "id", [⟨"id", .scalar .int⟩, ⟨"name", .scalar .string⟩,
      ⟨"owner", .relation ⟨.toOne, true, 0, none⟩⟩]⟩]⟩

lemma build_shelter : Graph.build shelterDefinitions = .ok shelterGraph := by decide +kernel

lemma find?_person_shelter : shelterGraph.find? "Person" = some ⟨0, by decide⟩ := by
  decide +kernel

lemma pairwise_relations_shelter (i : shelterGraph.Id) :
    (shelterGraph.schema i).relations.Pairwise fun a b => a.1 ≤ b.1 := by
  revert i
  decide

theorem plan_node?_iff_walk_shelter :
    ∃ root : shelterGraph.Id, shelterGraph.find? "Person" = some root ∧
    ∃ plan, shelterGraph.plan root 2 3 = .ok plan ∧
      (plan.node? ["pets", "owner", "mentor"]).isSome ∧
      (∀ path, (plan.node? path).isSome ↔
        ∃ edges j, shelterGraph.Walk root edges j ∧ path = edges.map Prod.fst ∧
          WithinPlan 2 3 edges) ∧
      (∀ edges j node, shelterGraph.Walk root edges j →
        plan.node? (edges.map Prod.fst) = some node → EndsWalk node 2 3 edges j) ∧
      (plan.nodeCount : ℕ∞) = Set.encard
        {path | ∃ edges j, shelterGraph.Walk root edges j ∧ path = edges.map Prod.fst ∧
          WithinPlan 2 3 edges} := by
  obtain ⟨hplans, hnodes⟩ := plan_node?_iff_walk build_shelter ⟨0, by decide⟩ 2 3
  obtain ⟨plan, hplan⟩ := hplans.2 (by decide)
  refine ⟨_, find?_person_shelter, plan, hplan, ?_, hnodes plan hplan⟩
  obtain ⟨-, rfl⟩ := Graph.plan_eq_ok_iff.1 hplan
  simp only [Graph.planLevel_succ_of_pairwise (pairwise_relations_shelter _), Graph.planNode]
  rfl

end Retrieval
