/-
# Chains of filled envelopes

Whatever record is rendered, it is rendered only so deep.  To-one relations are followed as far as
the budget goes, with or without a plan, and to-many relations as far as the plan goes, whatever is
left of the budget.  So however deeply a record is nested, a chain of filled envelopes is no longer
than the budget and the ceiling of the plan together.
-/
import Retrieval.Proofs.Plan.Walks
import Retrieval.Proofs.Render.Depth

namespace Retrieval

variable {g : Graph}

/-- A chain of filled envelopes in a rendered record of a schema, each of them in what the one
before it holds, by the relations under which they stand. -/
inductive FilledChain : g.Id → Json → List (String × Relation g.size) → Prop where
  | last {i : g.Id} {v : Json} {name : String} {r : Relation g.size} :
    (name, r) ∈ (g.schema i).relations → (v.content? name).isSome → FilledChain i v [(name, r)]
  | toOne {i : g.Id} {v content : Json} {name : String} {r : Relation g.size}
      {edges : List (String × Relation g.size)} :
    (name, r) ∈ (g.schema i).relations → r.cardinality = .toOne → v.content? name = some content →
      FilledChain r.target content edges → FilledChain i v ((name, r) :: edges)
  | toMany {i : g.Id} {v item : Json} {items : List Json} {name : String} {r : Relation g.size}
      {edges : List (String × Relation g.size)} :
    (name, r) ∈ (g.schema i).relations → r.cardinality = .toMany →
      v.content? name = some (.array items) → item ∈ items →
      FilledChain r.target item edges → FilledChain i v ((name, r) :: edges)

/-- Whether a chain stays within a budget, which its to-one relations use up, and within what is
planned, which has its to-many relations with what lies behind them. -/
structure WithinBounds {n : Nat} (nodes : Option (List (String × Plan.Node n))) (budget : Nat)
    (edges : List (String × Relation n)) : Prop where
  toOnes_le : toOnes edges ≤ budget
  toMany_planned : ∀ front name r rest, edges = front ++ (name, r) :: rest →
    r.cardinality = .toMany →
    ((nodes.bind (Plan.Node.at? · (front.map Prod.fst ++ [name]))).bind
      Plan.Node.children?).isSome

namespace WithinBounds

variable {n : Nat} {nodes : Option (List (String × Plan.Node n))} {budget : Nat} {name : String}
  {r : Relation n} {edges : List (String × Relation n)}

lemma nil : WithinBounds nodes budget [] := by
  refine ⟨Nat.zero_le _, fun front name r rest h => ?_⟩
  simp at h

/-- A chain begins with a relation and goes on in what is planned behind it. -/
lemma cons {left : Nat} (h : WithinBounds (Render.childrenOf nodes name) left edges)
    (hones : toOnes ((name, r) :: edges) ≤ budget)
    (hplanned : r.cardinality = .toMany → (Render.childrenOf nodes name).isSome) :
    WithinBounds nodes budget ((name, r) :: edges) := by
  refine ⟨hones, fun front other q rest heq hq => ?_⟩
  cases front with
  | nil =>
    cases heq
    rw [List.map_nil, List.nil_append, ← Render.childrenOf_eq_bind_at?]
    exact hplanned hq
  | cons first front =>
    cases heq
    rw [List.map_cons, List.cons_append, Render.bind_at?_cons _ _ (by simp)]
    exact h.toMany_planned front other q rest rfl hq

/-- A to-one relation uses up one level of the budget. -/
lemma toOne (hc : r.cardinality = .toOne) (hbudget : budget ≠ 0)
    (h : WithinBounds (Render.childrenOf nodes name) (budget - 1) edges) :
    WithinBounds nodes budget ((name, r) :: edges) := by
  have hones : toOnes ((name, r) :: edges) ≤ budget := by
    have hleft := h.toOnes_le
    rw [toOnes_cons, hc]
    dsimp only
    omega
  refine h.cons hones fun hmany => ?_
  rw [hc] at hmany
  cases hmany

/-- A to-many relation is planned together with what lies behind it. -/
lemma toMany (hc : r.cardinality = .toMany) (hplanned : (Render.childrenOf nodes name).isSome)
    (h : WithinBounds (Render.childrenOf nodes name) budget edges) :
    WithinBounds nodes budget ((name, r) :: edges) := by
  have hones : toOnes ((name, r) :: edges) ≤ budget := by
    have hleft := h.toOnes_le
    rw [toOnes_cons, hc]
    dsimp only
    omega
  exact h.cons hones fun _ => hplanned

end WithinBounds

/-- Whatever value is rendered, the chains in it stay within the budget and the plan. -/
lemma FilledChain.withinBounds (hg : ∀ i, (g.schema i).Distinct) {links : Links} {i : g.Id}
    {nodes : Option (List (String × Plan.Node g.size))} {budget : Nat} {raw : Json}
    {edges : List (String × Relation g.size)}
    (h : FilledChain i (Render.entity g links i nodes budget raw) edges) :
    WithinBounds nodes budget edges := by
  -- behind every envelope the nodes, the budget and the value are others
  generalize hv : Render.entity g links i nodes budget raw = v at h
  induction h generalizing nodes budget raw with
  | @last i v name r hr hfilled =>
    -- the last envelope is filled like any other one
    subst hv
    obtain ⟨content, hcontent⟩ := Option.isSome_iff_exists.1 hfilled
    cases hc : r.cardinality with
    | toOne =>
      obtain ⟨hbudget, -⟩ := Render.exists_of_content?_toOne (hg i) hr hc hcontent
      exact .toOne hc hbudget .nil
    | toMany =>
      obtain ⟨hplanned, -⟩ := Render.exists_of_content?_toMany (hg i) hr hc hcontent
      exact .toMany hc hplanned .nil
  | toOne hr hc hcontent _ ih =>
    subst hv
    obtain ⟨hbudget, target, rfl⟩ := Render.exists_of_content?_toOne (hg _) hr hc hcontent
    exact .toOne hc hbudget (ih rfl)
  | toMany hr hc hcontent hitem _ ih =>
    subst hv
    obtain ⟨hplanned, targets, hitems⟩ := Render.exists_of_content?_toMany (hg _) hr hc hcontent
    cases hitems
    obtain ⟨target, -, rfl⟩ := List.mem_map.1 hitem
    exact .toMany hc hplanned (ih rfl)

/-- Paths of a plan are no longer than its ceiling. -/
lemma Graph.length_le_of_node? (hg : ∀ i, (g.schema i).Distinct) {root : g.Id} {requested : Int}
    {ceiling : Nat} {plan : Plan g} (hplan : g.plan root requested ceiling = .ok plan)
    {path : List String} (h : (plan.node? path).isSome) : path.length ≤ plan.ceiling := by
  obtain ⟨edges, j, -, rfl, hwithin⟩ := (Graph.node?_isSome_iff hg hplan path).1 h
  rw [List.length_map, (Graph.plan_eq_ok_iff.1 hplan).2]
  exact hwithin.length_le

/-- **Rendering is bounded.**  Take any graph that was built and any plan for a root, and render any
value with any budget.  Then every chain of filled envelopes in it has at most as many to-one
relations as the budget says, its to-many relations are planned together with what lies behind them,
and it is no longer than the budget and the ceiling of the plan together. -/
theorem length_le_of_filledChain_render {definitions : List Schema.Definition}
    (hg : Graph.build definitions = .ok g) {root : g.Id} {requested : Int} {ceiling : Nat}
    {plan : Plan g} (hplan : g.plan root requested ceiling = .ok plan) (links : Links)
    (budget : Nat) (record : Json) {edges : List (String × Relation g.size)}
    (hchain : FilledChain root (plan.render links root budget record) edges) :
    toOnes edges ≤ budget ∧
      (∀ front name r rest, edges = front ++ (name, r) :: rest → r.cardinality = .toMany →
        ((plan.node? (front.map Prod.fst ++ [name])).bind Plan.Node.children?).isSome) ∧
      edges.length ≤ budget + plan.ceiling := by
  have hdistinct := Graph.distinct_of_build hg
  obtain ⟨hones, hplanned⟩ := hchain.withinBounds hdistinct
  refine ⟨hones, hplanned, ?_⟩
  have hfront : ∀ front name r rest, edges = front ++ (name, r) :: rest →
      r.cardinality = .toMany → front.length < plan.ceiling := by
    intro front name r rest heq hc
    have hnode : (plan.node? (front.map Prod.fst ++ [name])).isSome :=
      Option.isSome_of_isSome_bind (hplanned front name r rest heq hc)
    have hlength := Graph.length_le_of_node? hdistinct hplan hnode
    rw [List.length_append, List.length_map, List.length_singleton] at hlength
    omega
  calc edges.length ≤ toOnes edges + plan.ceiling := length_le_toOnes_add hfront
    _ ≤ budget + plan.ceiling := Nat.add_le_add_right hones _

/-- A person with a report, and with more managers of this report than any budget follows. -/
def personWithManagers : Json :=
  .object [("id", .int 2), ("reports", .array [.object [("id", .int 3), ("manager",
    .object [("id", .int 2), ("manager", .object [("id", .int 1), ("manager",
      .object [("id", .int 0)])])])]])]

/-- The manager of the manager of a report. -/
def managersOfReport : List (String × Relation staffGraph.size) :=
  [("reports", ⟨.toMany, true, ⟨0, by decide⟩, some "manager"⟩),
    ("manager", ⟨.toOne, true, ⟨0, by decide⟩, none⟩),
    ("manager", ⟨.toOne, true, ⟨0, by decide⟩, none⟩)]

theorem length_le_of_filledChain_render_staff :
    ∃ root : staffGraph.Id, staffGraph.find? "Person" = some root ∧
    ∃ plan, staffGraph.plan root 2 3 = .ok plan ∧
      FilledChain root (plan.render ⟨Links.defaultBase⟩ root 2 personWithManagers)
        managersOfReport ∧
      toOnes managersOfReport ≤ 2 ∧
      (∀ front name r rest, managersOfReport = front ++ (name, r) :: rest →
        r.cardinality = .toMany →
        ((plan.node? (front.map Prod.fst ++ [name])).bind Plan.Node.children?).isSome) ∧
      managersOfReport.length ≤ 2 + plan.ceiling := by
  have hsorted : ∀ i, (staffGraph.schema i).relations.Pairwise fun a b => a.1 ≤ b.1 := by decide
  obtain ⟨plan, hplan⟩ : ∃ plan, staffGraph.plan ⟨0, by decide⟩ 2 3 = .ok plan := ⟨_, rfl⟩
  have hchain : FilledChain ⟨0, by decide⟩
      (plan.render ⟨Links.defaultBase⟩ ⟨0, by decide⟩ 2 personWithManagers) managersOfReport := by
    obtain ⟨-, rfl⟩ := Graph.plan_eq_ok_iff.1 hplan
    simp only [Graph.planLevel_succ_of_pairwise (hsorted _), Graph.planNode]
    refine .toMany (by decide) rfl rfl (List.mem_singleton_self _) ?_
    refine .toOne (by decide) rfl rfl ?_
    exact .last (by decide) rfl
  exact ⟨_, find?_person_staff, plan, hplan, hchain,
    length_le_of_filledChain_render build_staff hplan ⟨Links.defaultBase⟩ 2 personWithManagers
      hchain⟩

end Retrieval
