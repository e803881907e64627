/-
# Filters see what embedding shows

The values under a path are looked for among stored records, one relation after the other.  The same
values stand in a record with others embedded, if the plan of the embedding follows the path: there
the path leads through nested objects and through the items of arrays, in the same order.
-/
import Retrieval.Proofs.Plan.Walks
import Retrieval.Proofs.Store.Embedding
import Retrieval.Proofs.Store.Insertion

namespace Retrieval

namespace Json

/-- What stands in a value to be walked through: a nested object or the items of an array.  Nothing
stands in a key. -/
def nested : Json → List Json
  | object members => [object members]
  | array items => items
  | _ => []

/-- The values that a path finds in a value; a last member that is missing counts as null. -/
def valuesAt : List String → Json → List Json
  | [], _ => []
  | [name], v => [(v.get? name).getD null]
  | name :: next :: rest, v => ((v.get? name).getD null).nested.flatMap (valuesAt (next :: rest))

example : valuesAt ["pets", "name"]
    (.object [("pets", .array [.object [("name", .string "Rex")], .object []])]) =
      [.string "Rex", .null] := rfl

/-- Whether a value is neither an object nor an array. -/
def isBare : Json → Bool
  | object _ | array _ => false
  | _ => true

lemma nested_eq_nil {v : Json} (h : v.isBare) : v.nested = [] := by
  cases v <;> first | rfl | cases h

lemma valuesAt_cons (name : String) {path : List String} (h : path ≠ []) (v : Json) :
    valuesAt (name :: path) v = ((v.get? name).getD null).nested.flatMap (valuesAt path) := by
  obtain ⟨next, rest, rfl⟩ := List.exists_cons_of_ne_nil h
  rw [valuesAt]

end Json

namespace Store

variable {g : Graph} {s : Store g} {i : g.Id} {row : Record} {name : String}
  {r : Relation g.size}

/-- The records of a store hold no objects and no arrays under their to-one relations. -/
def HoldsKeys (s : Store g) : Prop :=
  ∀ i, ∀ row ∈ s.rows i, ∀ named ∈ (g.schema i).relations, named.2.cardinality = .toOne →
    (Json.member? named.1 row).all Json.isBare

instance (s : Store g) : Decidable s.HoldsKeys :=
  decidable_of_iff ((List.finRange g.size).all fun i => (s.rows i).all fun row =>
    (g.schema i).relations.all fun named => named.2.cardinality = .toOne →
      (Json.member? named.1 row).all Json.isBare)
    (by simp [HoldsKeys, imp_iff_not_or])

/-! ### One relation -/

/-- The records that a relation of a record leads to. -/
def targets (s : Store g) (i : g.Id) (row : Record) (name : String) (r : Relation g.size) :
    List Record :=
  match r.cardinality with
  | .toOne => (s.referent? row name r).toList
  | .toMany => s.referring i row r

lemma stored_of_mem_targets {target : Record} (h : target ∈ s.targets i row name r) :
    target ∈ s.rows r.target := by
  rw [targets] at h
  split at h
  · exact s.stored_of_referent? (Option.mem_toList.1 h)
  · exact s.stored_of_mem_referring h

/-- What no record can have as its key may be looked for as well. -/
lemma referent?_eq (hs : s.Keyed) (row : Record) (name : String) (r : Relation g.size) :
    s.referent? row name r = s.findByKey? r.target ((Json.member? name row).getD .null) := by
  rw [referent?]
  cases Json.member? name row with
  | none => exact (hs.findByKey?_null _).symm
  | some key =>
    cases key with
    | null => exact (hs.findByKey?_null _).symm
    | _ => rfl

/-- A step of a path goes to the records that its relation leads to. -/
lemma step_eq (hs : s.Keyed) (ha : (g.schema i).attribute? name = some ⟨name, .relation r⟩) :
    s.step i row name = (s.targets i row name r).map (r.target, ·) := by
  rw [step, ha, Option.bind_some, Attribute.relation?, targets]
  cases hc : r.cardinality with
  | toOne =>
    simp only [hc, referent?_eq hs]
  | toMany =>
    simp only [hc, referring]
    cases Json.member? (g.schema i).primaryKey row <;> rfl

lemma pathValues_cons (hs : s.Keyed) (ha : (g.schema i).attribute? name = some ⟨name, .relation r⟩)
    {path : List String} (h : path ≠ []) :
    s.pathValues i row (name :: path) =
      (s.targets i row name r).flatMap fun target => s.pathValues r.target target path := by
  obtain ⟨next, rest, rfl⟩ := List.exists_cons_of_ne_nil h
  rw [pathValues, step_eq hs ha, List.flatMap_map]

/-- Embedding puts the records that a planned relation leads to under its name. -/
lemma nested_embed (hs : s.HoldsKeys) (hrow : row ∈ s.rows i)
    (hi : (g.schema i).Distinct) (hr : (name, r) ∈ (g.schema i).relations)
    (hkeyed : s.Keyed) {nodes : List (String × Plan.Node g.size)}
    (hnodes : (nodes.map Prod.fst).Nodup) {node : Plan.Node g.size}
    (hnode : nodes.lookup name = some node)
    (hmany : r.cardinality = .toMany → node.children?.isSome) :
    ((Json.member? name (s.embed i row nodes)).getD .null).nested =
      (s.targets i row name r).map fun target =>
        .object (s.embed r.target target (node.children?.getD [])) := by
  have ha := hi.attribute?_of_mem_relations hr
  rw [member?_embed hnodes, hnode, Option.bind_some, targets]
  cases hc : r.cardinality with
  | toOne =>
    rw [embedded?_toOne ha hc]
    cases s.referent? row name r with
    | some target => rfl
    | none =>
      -- the record keeps what it holds, which is a key or nothing
      have hkey := hs i row hrow (name, r) hr hc
      cases hmember : Json.member? name row with
      | none => rfl
      | some v =>
        rw [hmember] at hkey
        exact Json.nested_eq_nil (by simpa using hkey)
  | toMany =>
    obtain ⟨children, hchildren⟩ := Option.isSome_iff_exists.1 (hmany hc)
    obtain ⟨ownerKey, hkey, -⟩ := hkeyed.exists_key i row hrow
    rw [embedded?_toMany ha hc, hchildren, hkey, referring, hkey]
    rfl

end Store

/-! ### A chain of relations -/

namespace Plan.Level

variable {g : Graph} {i : g.Id} {depth : Nat} {nodes? : Option (List (String × Node g.size))}

/-- The node of a relation has its cardinality. -/
lemma cardinality_eq (hg : ∀ j, (g.schema j).Distinct) (h : Level i depth nodes?) {name : String}
    {r : Relation g.size} (hr : (name, r) ∈ (g.schema i).relations) {node : Node g.size}
    (hnode : (nodes?.getD []).lookup name = some node) :
    node.step.cardinality = r.cardinality := by
  cases h with
  | closed => cases hnode
  | expanded steps _ =>
    obtain ⟨r', hr', -, rfl⟩ := (Graph.lookup_planLevel_eq_some_iff hg).1 hnode
    have ha := (hg i).attribute?_of_mem_relations hr
    rw [(hg i).attribute?_of_mem_relations hr'] at ha
    cases ha
    rw [Graph.step_planNode]

end Plan.Level

/-- A level follows relations in a chain: it has a node for each, and where one leads to several
records, what lies behind is planned. -/
structure Plan.Follows {n : Nat} (nodes : List (String × Plan.Node n)) (path : List String) :
    Prop where
  node : path ≠ [] → (Node.at? nodes path).isSome
  children : ∀ front node, front <+: path → Node.at? nodes front = some node →
    node.step.cardinality = .toMany → node.children?.isSome

lemma Plan.Follows.cons {n : Nat} {nodes : List (String × Plan.Node n)} {name : String}
    {path : List String} (h : Plan.Follows nodes (name :: path)) :
    ∃ node, nodes.lookup name = some node ∧
      (node.step.cardinality = .toMany → node.children?.isSome) ∧
      Plan.Follows (node.children?.getD []) path := by
  have hbehind : ∀ rest, rest ≠ [] → Node.at? nodes (name :: rest) =
      ((nodes.lookup name).bind Node.children?).bind (Node.at? · rest) :=
    fun rest => Node.at?_cons nodes name
  cases hnode : nodes.lookup name with
  | none =>
    -- neither the name alone nor a longer path has a node
    have hnone := h.node (by simp)
    by_cases hpath : path = []
    · simp [hpath, Node.at?, hnode] at hnone
    · simp [hbehind path hpath, hnode] at hnone
  | some node =>
    have hat : ∀ rest, rest ≠ [] →
        Node.at? nodes (name :: rest) = Node.at? (node.children?.getD []) rest := by
      intro rest hrest
      rw [hbehind rest hrest, hnode, Option.bind_some]
      cases node.children? with
      | some children => rfl
      | none =>
        obtain ⟨next, rest, rfl⟩ := List.exists_cons_of_ne_nil hrest
        cases rest <;> rfl
    refine ⟨node, rfl, h.children [name] node (by simp) hnode, ?_, ?_⟩
    · intro hpath
      rw [← hat path hpath]
      exact h.node (by simp)
    · intro front node' hfront hnode'
      have hne : front ≠ [] := by
        rintro rfl
        cases hnode'
      exact h.children (name :: front) node' (by simpa using hfront) ((hat front hne).trans hnode')

section Chain

variable {g : Graph} {s : Store g} {name : String} {t : ValueType}

/-- Along relations that a level follows, a path finds the same values among the stored records and
in the record with others embedded. -/
lemma Store.pathValues_eq_valuesAt (hkeyed : s.Keyed) (hs : s.HoldsKeys)
    (hg : ∀ j, (g.schema j).Distinct) {i j : g.Id} {edges : List (String × Relation g.size)}
    (hwalk : g.Walk i edges j) (ha : (g.schema j).attribute? name = some ⟨name, .scalar t⟩)
    {row : Record} (hrow : row ∈ s.rows i) {depth : Nat}
    {nodes? : Option (List (String × Plan.Node g.size))} (hlevel : Plan.Level i depth nodes?)
    (hfollows : Plan.Follows (nodes?.getD []) (edges.map Prod.fst)) :
    s.pathValues i row (edges.map Prod.fst ++ [name]) =
      Json.valuesAt (edges.map Prod.fst ++ [name])
        (.object (s.embed i row (nodes?.getD []))) := by
  induction hwalk generalizing row depth nodes? with
  | nil i =>
    have hmember : Json.member? name (s.embed i row (nodes?.getD [])) = Json.member? name row :=
      member?_embed_scalar ha
    simp [pathValues, values, ha, Json.valuesAt, Json.get?, hmember]
  | @cons i j first r edges hr _ ih =>
    obtain ⟨node, hnode, hmany, hrest⟩ := hfollows.cons
    have hne : edges.map Prod.fst ++ [name] ≠ [] := by simp
    rw [List.map_cons, List.cons_append,
      pathValues_cons hkeyed ((hg i).attribute?_of_mem_relations hr) hne,
      Json.valuesAt_cons first hne]
    have hnested := nested_embed hs hrow (hg i) hr hkeyed (hlevel.nodup (hg i)) hnode
      (by rwa [← hlevel.cardinality_eq hg hr hnode])
    have hchildren : Render.childrenOf nodes? first = node.children? := by
      cases nodes? with
      | none => cases hnode
      | some nodes => exact congrArg (Option.bind · Plan.Node.children?) hnode
    rw [Json.get?, hnested, List.flatMap_map]
    refine List.flatMap_congr fun target htarget => ?_
    have hbehind := hlevel.behind (hg i) hr
    rw [hchildren] at hbehind
    exact ih ha (stored_of_mem_targets htarget) hbehind hrest

end Chain

/-- **Filters see what a response shows.**  Take any store that is filled over a graph that was
built and that holds no objects and no arrays under to-one relations.  Then the values that a
resolved path of relations and a scalar finds from a stored record are, in order, those that it
finds in the record with what a plan reaches embedded, if the plan has a node for the relations of
the path and nodes behind those that lead to several records. -/
theorem pathValues_eq_valuesAt_embed {definitions : List Schema.Definition} {g : Graph}
    (hg : Graph.build definitions = .ok g) {s : Store g} (hs : s.Reachable) (hkeys : s.HoldsKeys)
    {root : g.Id} {path : List String} {p : ResolvedPath g} (hp : g.resolvePath root path = .ok p)
    (hscalar : p.isRelation = false) {requested : Int} {ceiling : Nat} {plan : Plan g}
    (hplan : g.plan root requested ceiling = .ok plan)
    (hnode : (plan.node? p.segments.dropLast).isSome)
    (hmany : ∀ front node, front <+: p.segments.dropLast → plan.node? front = some node →
      node.step.cardinality = .toMany → node.children?.isSome)
    {row : Record} (hrow : row ∈ s.rows root) :
    s.pathValues root row p.segments =
      Json.valuesAt p.segments (.object (s.embed root row plan.relations)) := by
  have hdistinct := Graph.distinct_of_build hg
  obtain ⟨edges, name, a, hwalk, hsegments, ha, hrelation⟩ := Graph.exists_walk_of_resolvePath hp
  obtain ⟨⟨hpos, -⟩, rfl⟩ := Graph.plan_eq_ok_iff.1 hplan
  rw [hsegments, List.dropLast_concat] at hnode hmany
  obtain ⟨t, rfl⟩ : ∃ t, a = ⟨name, .scalar t⟩ := by
    have hname := ((hdistinct _).attribute?_eq_some_iff.1 ha).2
    obtain ⟨_, kind⟩ := a
    cases kind with
    | scalar t => exact ⟨t, by rw [← hname]⟩
    | relation r => simp [hscalar, Attribute.relation?] at hrelation
  rw [hsegments]
  exact Store.pathValues_eq_valuesAt hs.keyed hkeys hdistinct hwalk ha hrow
    (.expanded ceiling (by omega)) ⟨fun _ => hnode, hmany⟩

/-- A fixture with a mentor who is not there, a pet without a name and a person without a pet. -/
def shelterFixture : Json :=
  .object [("Person", .array [
      .object [("id", .int 1), ("mentor", .null), ("name", .string "Ann")],
      .object [("id", .int 2), ("mentor", .int 1), ("name", .string "Bob")],
      .object [("id", .int 3), ("mentor", .int 9)]]),
    ("Pet", .array [
      .object [("id", .int 1), ("name", .string "Rex"), ("owner", .int 2)],
      .object [("id", .int 2), ("owner", .int 2)],
      .object [("id", .int 3), ("name", .string "Tom"), ("owner", .int 1)]])]

/-- The store of this fixture. -/
def shelterStore : Store shelterGraph :=
  ⟨#v[[[("id", .int 1), ("mentor", .null), ("name", .string "Ann")],
      [("id", .int 2), ("mentor", .int 1), ("name", .string "Bob")],
      [("id", .int 3), ("mentor", .int 9)]],
    [[("id", .int 1), ("name", .string "Rex"), ("owner", .int 2)],
      [("id", .int 2), ("owner", .int 2)],
      [("id", .int 3), ("name", .string "Tom"), ("owner", .int 1)]]]⟩

lemma ofFixture_shelter : Store.ofFixture shelterGraph shelterFixture = .ok shelterStore := by
  decide +kernel

theorem pathValues_eq_valuesAt_embed_shelter :
    ∃ (root : shelterGraph.Id) (p : ResolvedPath shelterGraph) (plan : Plan shelterGraph),
      shelterGraph.find? "Person" = some root ∧
      Store.ofFixture shelterGraph shelterFixture = .ok shelterStore ∧
      shelterGraph.resolvePath root ["pets", "owner", "mentor", "name"] = .ok p ∧
      shelterGraph.plan root 2 3 = .ok plan ∧
      ∀ row ∈ shelterStore.rows root,
        shelterStore.pathValues root row p.segments =
          Json.valuesAt p.segments (.object (shelterStore.embed root row plan.relations)) := by
  have hkeys : shelterStore.HoldsKeys := by decide
  have hp : shelterGraph.resolvePath ⟨0, by decide⟩ ["pets", "owner", "mentor", "name"] =
      .ok ⟨["pets", "owner", "mentor", "name"], ⟨0, by decide⟩, .string, false⟩ := rfl
  obtain ⟨plan, hplan, hnode, hfront⟩ : ∃ plan, shelterGraph.plan ⟨0, by decide⟩ 2 3 = .ok plan ∧
      (plan.node? ["pets", "owner", "mentor"]).isSome = true ∧
      (["pets", "owner", "mentor"].inits.all fun front => (plan.node? front).all fun node =>
        node.step.cardinality = .toOne || node.children?.isSome) = true := by
    refine ⟨_, Graph.plan_eq_ok_iff.2 ⟨by decide, rfl⟩, ?_⟩
    simp only [Graph.planLevel_succ_of_pairwise (pairwise_relations_shelter _), Graph.planNode]
    decide +kernel
  refine ⟨_, _, plan, find?_person_shelter, ofFixture_shelter, hp, hplan, fun row hrow => ?_⟩
  refine pathValues_eq_valuesAt_embed build_shelter (Store.reachable_ofFixture ofFixture_shelter)
    hkeys hp rfl hplan hnode (fun front node hprefix hat hmany => ?_) hrow
  have hall := List.all_eq_true.1 hfront front ((List.mem_inits _ _).2 hprefix)
  rw [hat] at hall
  simpa [hmany] using hall

end Retrieval
