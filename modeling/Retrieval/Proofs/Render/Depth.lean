/-
# Plans, stores and rendering agree on depth

A plan says how deep relations are followed, a store embeds what the plan reaches, and rendering
counts a budget of its own.  The three stop at the same places: behind any path the budget that is
left is the depth that the plan has left there, so whatever is embedded is rendered, and nothing else
is.
-/
import Mathlib.Data.Option.Basic
import Retrieval.Proofs.Render.Content
import Retrieval.Proofs.Store.Embedding
import Retrieval.Proofs.Store.Page

namespace Retrieval

variable {g : Graph}

/-- Whether a record without embedded ones may hold a value, or nothing, under a relation. -/
def Relation.isFlat {n : Nat} (r : Relation n) (value : Option Json) : Bool :=
  match r.cardinality with
  | .toOne => value.all (!·.isObject)
  | .toMany => value.isNone

/-- The records of a store hold no objects under their to-one relations and nothing under their
to-many relations. -/
def Store.Flat (s : Store g) : Prop :=
  ∀ i, ∀ row ∈ s.rows i, ∀ named ∈ (g.schema i).relations,
    named.2.isFlat (Json.member? named.1 row)

instance (s : Store g) : Decidable s.Flat :=
  decidable_of_iff ((List.finRange g.size).all fun i => (s.rows i).all fun row =>
    (g.schema i).relations.all fun named => named.2.isFlat (Json.member? named.1 row))
    (by simp [Store.Flat])

namespace Store.Flat

variable {s : Store g} {i : g.Id} {row : Record} {name : String} {r : Relation g.size}

lemma member?_eq_none (hs : s.Flat) (hrow : row ∈ s.rows i)
    (hr : (name, r) ∈ (g.schema i).relations) (hc : r.cardinality = .toMany) :
    Json.member? name row = none := by
  have h := hs i row hrow (name, r) hr
  simpa [Relation.isFlat, hc] using h

end Store.Flat

/-- Whether what a record holds under a relation, if anything, cannot be taken for embedded records:
under a to-one relation it is no object, and under a to-many relation it is replaced by what is
embedded, as the record has a key. -/
def Relation.isUnnested {n : Nat} (r : Relation n) (key value : Option Json) : Bool :=
  match r.cardinality with
  | .toOne => value.all (!·.isObject)
  | .toMany => value.isNone || key.isSome

/-- What the records of a store hold under their relations cannot be taken for embedded records. -/
def Store.Unnested (s : Store g) : Prop :=
  ∀ i, ∀ row ∈ s.rows i, ∀ named ∈ (g.schema i).relations,
    named.2.isUnnested (Json.member? (g.schema i).primaryKey row) (Json.member? named.1 row)

namespace Store.Unnested

variable {s : Store g} {i : g.Id} {row : Record} {name : String} {r : Relation g.size}

lemma isObject_eq_false (hs : s.Unnested) (hrow : row ∈ s.rows i)
    (hr : (name, r) ∈ (g.schema i).relations) (hc : r.cardinality = .toOne) {v : Json}
    (hv : Json.member? name row = some v) : v.isObject = false := by
  have h := hs i row hrow (name, r) hr
  simpa [Relation.isUnnested, hc, hv] using h

lemma member?_eq_none (hs : s.Unnested) (hrow : row ∈ s.rows i)
    (hr : (name, r) ∈ (g.schema i).relations) (hc : r.cardinality = .toMany)
    (hkey : Json.member? (g.schema i).primaryKey row = none) : Json.member? name row = none := by
  have h := hs i row hrow (name, r) hr
  simpa [Relation.isUnnested, hc, hkey] using h

end Store.Unnested

lemma Store.Flat.unnested {s : Store g} (hs : s.Flat) : s.Unnested := by
  intro i row hrow ⟨name, r⟩ hr
  have h := hs i row hrow (name, r) hr
  rw [Relation.isFlat] at h
  rw [Relation.isUnnested]
  cases hc : r.cardinality with
  | toOne => simpa [hc] using h
  | toMany => simp_all

/-! ### What an output should show -/

/-- A value shows a stored record if it is a record with the same scalars. -/
def Shows (i : g.Id) (row : Record) (v : Json) : Prop :=
  v.isObject ∧ ∀ name t, (g.schema i).attribute? name = some ⟨name, .scalar t⟩ →
    v.get? name = Json.member? name row

/-- The records in a rendered record, each with the path of relations that leads to it, its schema
and the stored record that it shows. -/
inductive Shown (s : Store g) (root : g.Id) (row : Record) (output : Json) :
    List String → g.Id → Record → Json → Prop where
  | root : Shown s root row output [] root row output
  | toOne {path : List String} {i : g.Id} {owner target : Record} {v content : Json}
      {name : String} {r : Relation g.size} :
    Shown s root row output path i owner v → (name, r) ∈ (g.schema i).relations →
      r.cardinality = .toOne → v.content? name = some content →
      s.referent? owner name r = some target →
      Shown s root row output (path ++ [name]) r.target target content
  | toMany {path : List String} {i : g.Id} {owner target : Record} {v item : Json}
      {items : List Json} {name : String} {r : Relation g.size} :
    Shown s root row output path i owner v → (name, r) ∈ (g.schema i).relations →
      r.cardinality = .toMany → v.content? name = some (.array items) →
      (target, item) ∈ (s.referring i owner r).zip items →
      Shown s root row output (path ++ [name]) r.target target item

/-- A record behind a path shows a stored record as a plan says: a to-one relation is filled exactly
if it is planned and leads to a stored record, and a to-many relation exactly if what lies behind it
is planned and stored records refer to the owner, which are then shown in order. -/
structure FollowsPlan (s : Store g) (plan : Plan g) (path : List String) (i : g.Id) (owner : Record)
    (v : Json) : Prop where
  shows : Shows i owner v
  toOne_iff : ∀ name r, (name, r) ∈ (g.schema i).relations → r.cardinality = .toOne →
    ((v.content? name).isSome ↔
      (plan.node? (path ++ [name])).isSome ∧ (s.referent? owner name r).isSome)
  toOne_shows : ∀ name r, (name, r) ∈ (g.schema i).relations → r.cardinality = .toOne →
    ∀ content, v.content? name = some content →
      ∃ target, s.referent? owner name r = some target ∧ Shows r.target target content
  toMany_iff : ∀ name r, (name, r) ∈ (g.schema i).relations → r.cardinality = .toMany →
    ((v.content? name).isSome ↔
      ((plan.node? (path ++ [name])).bind Plan.Node.children?).isSome ∧
        s.referring i owner r ≠ [])
  toMany_shows : ∀ name r, (name, r) ∈ (g.schema i).relations → r.cardinality = .toMany →
    ∀ content, v.content? name = some content →
      ∃ items, content = .array items ∧
        List.Forall₂ (Shows r.target) (s.referring i owner r) items

/-! ### The level behind a path -/

/-- A record behind a path is a stored record, rendered together with what the level of a plan behind
the path embeds into it, and with the depth that is left there as its budget. -/
structure RenderedAt (s : Store g) (links : Links) (plan : Plan g) (path : List String) (i : g.Id)
    (row : Record) (v : Json) (nodes : Option (List (String × Plan.Node g.size))) (depth : Nat) :
    Prop where
  stored : row ∈ s.rows i
  level : Plan.Level i depth nodes
  node? : ∀ rest, rest ≠ [] → plan.node? (path ++ rest) = nodes.bind (Plan.Node.at? · rest)
  value : v = Render.entity g links i nodes depth (.object (s.embed i row (nodes.getD [])))

namespace RenderedAt

variable {s : Store g} {links : Links} {plan : Plan g} {path : List String} {i : g.Id}
  {row : Record} {v : Json} {nodes : Option (List (String × Plan.Node g.size))} {depth : Nat}
  {name : String} {r : Relation g.size}

lemma lookup_eq (h : RenderedAt s links plan path i row v nodes depth) (name : String) :
    plan.node? (path ++ [name]) = (nodes.getD []).lookup name := by
  rw [h.node? [name] (by simp)]
  cases nodes <;> rfl

lemma childrenOf_eq (h : RenderedAt s links plan path i row v nodes depth) (name : String) :
    Render.childrenOf nodes name =
      (plan.node? (path ++ [name])).bind Plan.Node.children? := by
  rw [h.lookup_eq]
  cases nodes <;> rfl

lemma shows (h : RenderedAt s links plan path i row v nodes depth)
    (hi : (g.schema i).Distinct) : Shows i row v := by
  rw [h.value]
  refine ⟨by rw [Render.entity]; rfl, fun name t ha => ?_⟩
  rw [Render.get?_entity_scalar hi ha, Store.member?_embed_scalar ha]

/-- A to-one relation is filled if it is planned and leads to a stored record, with that record. -/
lemma content?_toOne (h : RenderedAt s links plan path i row v nodes depth) (hs : s.Unnested)
    (hi : (g.schema i).Distinct) (hr : (name, r) ∈ (g.schema i).relations)
    (hc : r.cardinality = .toOne) :
    v.content? name =
      (plan.node? (path ++ [name])).bind fun _ => (s.referent? row name r).map fun target =>
        Render.entity g links r.target (Render.childrenOf nodes name) (depth - 1)
          (.object (s.embed r.target target ((Render.childrenOf nodes name).getD []))) := by
  rw [h.value, Render.content?_toOne hi hr hc, Store.member?_embed (h.level.nodup hi), h.lookup_eq]
  -- a record holds no object of its own here, so whatever is not embedded is not rendered
  have hkey : ((Json.member? name row).bind fun raw =>
      if raw.isObject ∧ depth ≠ 0 then
        some (Render.entity g links r.target (Render.childrenOf nodes name) (depth - 1) raw)
      else none) = none := by
    cases hmember : Json.member? name row with
    | none => rfl
    | some raw => simp [hs.isObject_eq_false h.stored hr hc hmember]
  cases hnode : (nodes.getD []).lookup name with
  | none => simpa using hkey
  | some node =>
    have ha := hi.attribute?_of_mem_relations hr
    -- where the plan goes on, some depth is left
    have hdepth : depth ≠ 0 := by
      cases nodes with
      | none => cases hnode
      | some nodes => exact Nat.ne_of_gt (h.level.depth_pos rfl)
    have hchildren : Render.childrenOf nodes name = node.children? := by
      rw [h.childrenOf_eq, h.lookup_eq, hnode, Option.bind_some]
    rw [Option.bind_some, Option.bind_some, Store.embedded?_toOne ha hc, hchildren]
    cases s.referent? row name r with
    | none => simpa [hchildren] using hkey
    | some target => simp [Json.isObject, hdepth]

/-- What is embedded under a to-many relation: the records that refer to the owner, if what lies
behind the relation is planned. -/
lemma member?_toMany (h : RenderedAt s links plan path i row v nodes depth)
    (hi : (g.schema i).Distinct) (hr : (name, r) ∈ (g.schema i).relations)
    (hc : r.cardinality = .toMany) :
    Json.member? name (s.embed i row (nodes.getD [])) =
      ((Render.childrenOf nodes name).bind fun children =>
        (Json.member? (g.schema i).primaryKey row).map fun ownerKey =>
          .array ((s.related r ownerKey).map fun target =>
            .object (s.embed r.target target children))).or (Json.member? name row) := by
  rw [Store.member?_embed (h.level.nodup hi), h.childrenOf_eq, h.lookup_eq]
  cases (nodes.getD []).lookup name with
  | none => rfl
  | some node =>
    exact congrArg (Option.or · _)
      (Store.embedded?_toMany (hi.attribute?_of_mem_relations hr) hc node)

/-- A to-many relation is filled if what lies behind it is planned and records refer to the owner,
with these records. -/
lemma content?_toMany (h : RenderedAt s links plan path i row v nodes depth) (hs : s.Unnested)
    (hi : (g.schema i).Distinct) (hr : (name, r) ∈ (g.schema i).relations)
    (hc : r.cardinality = .toMany) :
    v.content? name =
      ((plan.node? (path ++ [name])).bind Plan.Node.children?).bind fun children =>
        if s.referring i row r = [] then none
        else some (.array ((s.referring i row r).map fun target =>
          Render.entity g links r.target (some children) depth
            (.object (s.embed r.target target children)))) := by
  rw [h.value, Render.content?_toMany hi hr hc, h.member?_toMany hi hr hc, ← h.childrenOf_eq,
    Store.referring]
  cases Render.childrenOf nodes name with
  | none =>
    -- what the record holds itself is not rendered without a plan for it
    cases (Json.member? name row).bind Json.array? <;> simp_all
  | some children =>
    cases hkey : Json.member? (g.schema i).primaryKey row with
    | none => simp [hs.member?_eq_none h.stored hr hc hkey]
    | some ownerKey =>
      simp only [Option.bind_some, Option.map_some, Option.some_or, Option.getD_some, Json.array?,
        Option.isSome_some, and_true, ne_eq, List.map_eq_nil_iff, List.map_map, Function.comp_def,
        ite_not]

/-- Behind the name of a relation the plan goes on with what lies behind its node. -/
lemma node?_append (h : RenderedAt s links plan path i row v nodes depth) (name : String)
    {rest : List String} (hrest : rest ≠ []) :
    plan.node? (path ++ [name] ++ rest) =
      (Render.childrenOf nodes name).bind (Plan.Node.at? · rest) := by
  rw [List.append_assoc, List.singleton_append, h.node? (name :: rest) (by simp)]
  exact Render.bind_at?_cons nodes name hrest

/-- Behind a to-one relation the target is rendered with one level less. -/
lemma toOne (h : RenderedAt s links plan path i row v nodes depth) (hs : s.Unnested)
    (hi : (g.schema i).Distinct) (hr : (name, r) ∈ (g.schema i).relations)
    (hc : r.cardinality = .toOne) {content : Json} {target : Record}
    (hcontent : v.content? name = some content) (htarget : s.referent? row name r = some target) :
    RenderedAt s links plan (path ++ [name]) r.target target content
      (Render.childrenOf nodes name) (depth - 1) := by
  have hlevel := h.level.behind hi hr
  rw [Relation.depthBehind, hc] at hlevel
  refine ⟨s.stored_of_referent? htarget, hlevel, fun rest => h.node?_append name, ?_⟩
  rw [h.content?_toOne hs hi hr hc, htarget, Option.bind_eq_some_iff] at hcontent
  obtain ⟨-, -, hcontent⟩ := hcontent
  exact (Option.some.inj hcontent).symm

/-- Behind a to-many relation every record that refers to the owner is rendered with the same
depth. -/
lemma toMany (h : RenderedAt s links plan path i row v nodes depth) (hs : s.Unnested)
    (hi : (g.schema i).Distinct) (hr : (name, r) ∈ (g.schema i).relations)
    (hc : r.cardinality = .toMany) {items : List Json} {target : Record} {item : Json}
    (hcontent : v.content? name = some (.array items))
    (htarget : (target, item) ∈ (s.referring i row r).zip items) :
    RenderedAt s links plan (path ++ [name]) r.target target item
      (Render.childrenOf nodes name) depth := by
  have hlevel := h.level.behind hi hr
  rw [Relation.depthBehind, hc] at hlevel
  refine ⟨s.stored_of_mem_referring (List.of_mem_zip htarget).1, hlevel,
    fun rest => h.node?_append name, ?_⟩
  rw [h.content?_toMany hs hi hr hc, ← h.childrenOf_eq] at hcontent
  obtain ⟨children, hchildren, hcontent⟩ := Option.bind_eq_some_iff.1 hcontent
  split at hcontent
  · cases hcontent
  · cases hcontent
    -- the item at the place of a record is what that record is rendered as
    rw [← List.map_prod_left_eq_zip] at htarget
    obtain ⟨_, -, h⟩ := List.mem_map.1 htarget
    cases h
    rw [hchildren]
    rfl

/-- A record that is rendered with the level behind its path follows the plan. -/
lemma followsPlan (h : RenderedAt s links plan path i row v nodes depth) (hs : s.Unnested)
    (hg : ∀ j, (g.schema j).Distinct) : FollowsPlan s plan path i row v where
  shows := h.shows (hg i)
  toOne_iff name r hr hc := by
    rw [h.content?_toOne hs (hg i) hr hc]
    cases plan.node? (path ++ [name]) <;> simp
  toOne_shows name r hr hc content hcontent := by
    have hcontent' := hcontent
    rw [h.content?_toOne hs (hg i) hr hc] at hcontent'
    obtain ⟨-, -, hcontent'⟩ := Option.bind_eq_some_iff.1 hcontent'
    obtain ⟨target, htarget, -⟩ := Option.map_eq_some_iff.1 hcontent'
    exact ⟨target, htarget, (h.toOne hs (hg i) hr hc hcontent htarget).shows (hg _)⟩
  toMany_iff name r hr hc := by
    rw [h.content?_toMany hs (hg i) hr hc]
    cases (plan.node? (path ++ [name])).bind Plan.Node.children? with
    | none => simp
    | some children => by_cases hnil : s.referring i row r = [] <;> simp [hnil]
  toMany_shows name r hr hc content hcontent := by
    have hcontent' := hcontent
    rw [h.content?_toMany hs (hg i) hr hc] at hcontent'
    obtain ⟨children, -, hcontent'⟩ := Option.bind_eq_some_iff.1 hcontent'
    split at hcontent'
    · cases hcontent'
    · cases hcontent'
      refine ⟨_, rfl, List.forall₂_iff_zip.2 ⟨by simp, fun hitem => ?_⟩⟩
      exact (h.toMany hs (hg i) hr hc hcontent hitem).shows (hg _)

end RenderedAt

/-- Whatever record is shown in an output is rendered with the level behind its path. -/
lemma Shown.renderedAt {s : Store g} {links : Links} {plan : Plan g} {root : g.Id} {row : Record}
    {output : Json} (hs : s.Unnested) (hg : ∀ j, (g.schema j).Distinct)
    (hroot : RenderedAt s links plan [] root row output (some plan.relations) plan.maxDepth)
    {path : List String} {i : g.Id} {owner : Record} {v : Json}
    (h : Shown s root row output path i owner v) :
    ∃ nodes depth, RenderedAt s links plan path i owner v nodes depth := by
  induction h with
  | root => exact ⟨_, _, hroot⟩
  | toOne _ hr hc hcontent htarget ih =>
    obtain ⟨nodes, depth, ih⟩ := ih
    exact ⟨_, _, ih.toOne hs (hg _) hr hc hcontent htarget⟩
  | toMany _ hr hc hcontent htarget ih =>
    obtain ⟨nodes, depth, ih⟩ := ih
    exact ⟨_, _, ih.toMany hs (hg _) hr hc hcontent htarget⟩

/-! ### Reading and rendering -/

lemma renderedAt_root {s : Store g} (links : Links) {plan : Plan g} {root : g.Id} {row : Record}
    (hrow : row ∈ s.rows root)
    (hlevel : Plan.Level root plan.maxDepth (some plan.relations)) :
    RenderedAt s links plan [] root row
      (plan.render links root plan.maxDepth (.object (s.embed root row plan.relations)))
      (some plan.relations) plan.maxDepth :=
  ⟨hrow, hlevel, fun _ _ => rfl, rfl⟩

/-- A stored record that is read and rendered with a plan is rendered with the plan's first level. -/
lemma renderedAt_of_plan {s : Store g} (links : Links) {plan : Plan g} {root : g.Id} {row : Record}
    {requested : Int} {ceiling : Nat} (hplan : g.plan root requested ceiling = .ok plan)
    (hrow : row ∈ s.rows root) :
    RenderedAt s links plan [] root row
      (plan.render links root plan.maxDepth (.object (s.embed root row plan.relations)))
      (some plan.relations) plan.maxDepth := by
  obtain ⟨⟨hpos, -⟩, rfl⟩ := Graph.plan_eq_ok_iff.1 hplan
  exact renderedAt_root links hrow (.expanded _ (by dsimp only; omega))

/-- **Plans, stores and rendering cut at the same depth.**  Take a store over a graph that was built,
whose records hold keys under their to-one relations and nothing under their to-many relations, and
fetch any of its records with a plan and render them with the depth of the plan as budget.  Then
every record that is shown, behind whatever path of relations, follows the plan. -/
theorem render_fetch_followsPlan {definitions : List Schema.Definition}
    (hg : Graph.build definitions = .ok g) {s : Store g} (hs : s.Flat) (links : Links)
    {schema : String} {root : g.Id} (hroot : g.find? schema = some root) {depth : Int}
    {ceiling : Nat} (hpos : 1 ≤ depth) (hle : depth ≤ ceiling) :
    ∃ plan : Plan g,
      g.plan root depth ceiling = .ok plan ∧
      s.fetch schema ⟨none, [], 0, none, none⟩ = .ok (s.rows root) ∧
      ∀ q : Selection g, ∃ rows records : List Record,
        s.fetch schema { q with plan := none } = .ok rows ∧
        s.fetch schema { q with plan := some plan } = .ok records ∧
        List.Forall₂ (fun row record => ∀ path i owner v,
          Shown s root row (plan.render links root plan.maxDepth (.object record)) path i owner v →
          FollowsPlan s plan path i owner v) rows records := by
  have hdistinct := Graph.distinct_of_build hg
  refine ⟨_, if_pos ⟨hpos, hle⟩, s.fetch_all hroot, fun q => ?_⟩
  refine ⟨_, _, s.fetch_eq _ hroot, s.fetch_eq _ hroot, ?_⟩
  rw [Store.page_plan, List.forall₂_map_right_iff, List.forall₂_same]
  intro row hrow path i owner v hshown
  have hlevel : 0 < depth.toNat := by omega
  obtain ⟨nodes, left, hrendered⟩ := hshown.renderedAt hs.unnested hdistinct
    (renderedAt_root links (s.stored_of_mem_page q hrow) (.expanded ceiling hlevel))
  exact hrendered.followsPlan hs.unnested hdistinct

/-- Persons with managers and reports, so that relations lead back to where they come from. -/
def staffDefinitions : List Schema.Definition :=
  [Schema.Definition.ofName "Person" |>.scalar "id" .int |>.toOne "manager" "Person" true
    |>.toMany "reports" "Person" "manager"]

/-- The graph of these definitions. -/
def staffGraph : Graph :=
  ⟨1, #v[⟨"Person", none, "id", [⟨"id", .scalar .int⟩,
    ⟨"manager", .relation ⟨.toOne, true, 0, none⟩⟩,
    ⟨"reports", .relation ⟨.toMany, true, 0, some "manager"⟩⟩]⟩]⟩

/-- A store of three persons. -/
def staffStore : Store staffGraph :=
  ⟨#v[[[("id", .int 1), ("manager", .null)], [("id", .int 2), ("manager", .int 1)],
    [("id", .int 3), ("manager", .int 2)]]]⟩

lemma build_staff : Graph.build staffDefinitions = .ok staffGraph := by decide +kernel

lemma find?_person_staff : staffGraph.find? "Person" = some ⟨0, by decide⟩ := by decide +kernel

theorem render_fetch_followsPlan_staff :
    ∃ root : staffGraph.Id, staffGraph.find? "Person" = some root ∧ staffStore.Flat ∧
    ∃ plan : Plan staffGraph,
      staffGraph.plan root 2 3 = .ok plan ∧
      staffStore.fetch "Person" ⟨none, [], 0, none, none⟩ = .ok (staffStore.rows root) ∧
      ∀ q : Selection staffGraph, ∃ rows records : List Record,
        staffStore.fetch "Person" { q with plan := none } = .ok rows ∧
        staffStore.fetch "Person" { q with plan := some plan } = .ok records ∧
        List.Forall₂ (fun row record => ∀ path i owner v,
          Shown staffStore root row
            (plan.render ⟨Links.defaultBase⟩ root plan.maxDepth (.object record)) path i owner v →
          FollowsPlan staffStore plan path i owner v) rows records := by
  have hs : staffStore.Flat := by decide
  exact ⟨_, find?_person_staff, hs,
    render_fetch_followsPlan build_staff hs ⟨Links.defaultBase⟩ find?_person_staff (by decide)
      (by decide)⟩

end Retrieval
