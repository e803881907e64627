/-
# More levels tell more

Two pages of the same request that differ in the depth of relations hold the same records in the same
order.  Their plans nest: wherever the shallower one goes on, the deeper one does too.  So a relation
that is filled at the lower depth is filled at the higher one, with the same link and with records
that tell at least as much, and no scalar is changed.
-/
import Retrieval.Proofs.Plan.Walks
import Retrieval.Proofs.Render.Links
import Retrieval.Proofs.Service.Pages

namespace Retrieval

variable {g : Graph}

/-! ### Telling more -/

mutual

/-- Whether a rendered record tells what another one tells of the same stored record, and possibly
more: it agrees in all that is no relation, and its relations tell at least as much. -/
inductive Reveals (s : Store g) : g.Id → Record → Json → Json → Prop where
  | record {i : g.Id} {row : Record} {v w : Json} :
    v.isObject → w.isObject →
      (∀ name, (∀ r, (name, r) ∉ (g.schema i).relations) → v.get? name = w.get? name) →
      (∀ name r, (name, r) ∈ (g.schema i).relations →
        RevealsRelation s i row name r (v.get? name) (w.get? name)) →
      Reveals s i row v w

/-- Whether what a rendered record holds under a relation tells what another one holds there, and
possibly more. -/
inductive RevealsRelation (s : Store g) :
    g.Id → Record → String → Relation g.size → Option Json → Option Json → Prop where
  | same {i : g.Id} {row : Record} {name : String} {r : Relation g.size} {e : Option Json} :
    RevealsRelation s i row name r e e
  /-- The same record is filled in, under the same link. -/
  | toOne {i : g.Id} {row target : Record} {name : String} {r : Relation g.size} {v w : Json}
      {link : Option String} :
    r.cardinality = .toOne → s.referent? row name r = some target → Reveals s r.target target v w →
      RevealsRelation s i row name r (some (Envelope.expanded v link).toJson)
        (some (Envelope.expanded w link).toJson)
  /-- The same records are filled in, under the same link. -/
  | toMany {i : g.Id} {row : Record} {name : String} {r : Relation g.size} {vs ws : List Json}
      {link : Option String} :
    r.cardinality = .toMany → RevealsEach s r.target (s.referring i row r) vs ws →
      RevealsRelation s i row name r (some (Envelope.expanded (.array vs) link).toJson)
        (some (Envelope.expanded (.array ws) link).toJson)
  /-- What only was a link is filled. -/
  | opened {i : g.Id} {row : Record} {name : String} {r : Relation g.size} {w : Json}
      {link : Option String} :
    w.isNull = false →
      RevealsRelation s i row name r (some (Envelope.linkOnly link).toJson)
        (some (Envelope.expanded w link).toJson)
  /-- What only was a link turns out to lead to nothing. -/
  | nothing {i : g.Id} {row : Record} {name : String} {r : Relation g.size}
      {link : Option String} :
    r.cardinality = .toMany → s.referring i row r = [] →
      RevealsRelation s i row name r (some (Envelope.linkOnly link).toJson)
        (some Envelope.empty.toJson)

/-- Whether rendered records tell, one by one, what others tell of the same stored records, and
possibly more. -/
inductive RevealsEach (s : Store g) : g.Id → List Record → List Json → List Json → Prop where
  | nil {i : g.Id} : RevealsEach s i [] [] []
  | cons {i : g.Id} {row : Record} {v w : Json} {rows : List Record} {vs ws : List Json} :
    Reveals s i row v w → RevealsEach s i rows vs ws →
      RevealsEach s i (row :: rows) (v :: vs) (w :: ws)

end

lemma RevealsEach.map {s : Store g} {i : g.Id} {rows : List Record} {f f' : Record → Json}
    (h : ∀ row ∈ rows, Reveals s i row (f row) (f' row)) :
    RevealsEach s i rows (rows.map f) (rows.map f') := by
  induction rows with
  | nil => exact .nil
  | cons row rows ih =>
    rw [List.forall_mem_cons] at h
    exact .cons h.1 (ih h.2)

/-! ### Plans of two depths -/

/-- What the plans of two depths have behind the same relation, with at most `steps` more relations
in a chain: nothing in the first one, or the whole level in both. -/
inductive Plan.Nests (i : g.Id) (steps : Nat) :
    Option (List (String × Node g.size)) → Option (List (String × Node g.size)) → Prop where
  | closed (nodes? : Option (List (String × Node g.size))) : Nests i steps none nodes?
  | expanded {depth depth' : Nat} : depth ≤ depth' →
    Nests i steps (some (g.planLevel steps depth i)) (some (g.planLevel steps depth' i))

namespace Plan.Nests

variable {i : g.Id} {steps : Nat} {nodes nodes' : Option (List (String × Node g.size))}
  {name : String} {r : Relation g.size}

lemma isSome_lookup (h : Nests i steps nodes nodes') (hi : (g.schema i).Distinct)
    (hr : (name, r) ∈ (g.schema i).relations)
    (hsome : ((nodes.getD []).lookup name).isSome) : ((nodes'.getD []).lookup name).isSome := by
  cases h with
  | closed => cases hsome
  | expanded =>
    cases steps with
    | zero => cases hsome
    | succ steps =>
      rw [Option.getD_some, Graph.lookup_planLevel hi _ _ hr]
      rfl

lemma isSome (h : Nests i steps nodes nodes') (hsome : nodes.isSome) : nodes'.isSome := by
  cases h with
  | closed => cases hsome
  | expanded => rfl

/-- What lies behind a relation nests again. -/
lemma behind (h : Nests i (steps + 1) nodes nodes') (hi : (g.schema i).Distinct)
    (hr : (name, r) ∈ (g.schema i).relations) :
    Nests r.target steps (Render.childrenOf nodes name) (Render.childrenOf nodes' name) := by
  cases h with
  | closed => exact .closed _
  | @expanded depth depth' hle =>
    have hbehind : r.depthBehind depth ≤ r.depthBehind depth' := by
      rw [Relation.depthBehind, Relation.depthBehind]
      cases r.cardinality <;> dsimp only <;> omega
    simp only [Render.childrenOf, Option.bind_some, Graph.lookup_planLevel hi _ _ hr,
      Graph.children?_planNode]
    split
    · next hopen =>
      rw [if_pos ⟨by omega, hopen.2⟩]
      exact .expanded hbehind
    · exact .closed _

lemma lookup_eq_none (h : Nests i 0 nodes nodes') (name : String) :
    (nodes.getD []).lookup name = none := by
  cases h with
  | closed => rfl
  | expanded => rfl

lemma isSome_childrenOf (h : Nests i steps nodes nodes') (hi : (g.schema i).Distinct)
    (hr : (name, r) ∈ (g.schema i).relations) (hsome : (Render.childrenOf nodes name).isSome) :
    (Render.childrenOf nodes' name).isSome := by
  cases steps with
  | zero =>
    cases h with
    | closed => cases hsome
    | expanded => cases hsome
  | succ steps => exact (h.behind hi hr).isSome hsome

end Plan.Nests

lemma Graph.nests_of_plan {root : g.Id} {level level' : Int} {ceiling : Nat} {plan plan' : Plan g}
    (h : g.plan root level ceiling = .ok plan) (h' : g.plan root level' ceiling = .ok plan')
    (hle : level ≤ level') :
    Plan.Nests root ceiling (some plan.relations) (some plan'.relations) := by
  obtain ⟨-, rfl⟩ := plan_eq_ok_iff.1 h
  obtain ⟨-, rfl⟩ := plan_eq_ok_iff.1 h'
  exact .expanded (Int.toNat_le_toNat hle)

/-! ### Renderings of two depths -/

lemma Json.get?_of_get?_toJson {v : Json} {name : String} {e : Envelope}
    (h : v.get? name = some e.toJson) :
    v.get? name = some (Envelope.toJson ⟨v.content? name, e.link⟩) := by
  have hcontent : v.content? name = e.content.filter (!·.isNull) := by
    rw [content?, h, Option.bind_some, Envelope.get?_toJson]
    cases e.content <;> rfl
  rw [h, hcontent]
  obtain ⟨content, link⟩ := e
  cases content with
  | none => rfl
  | some content => cases content <;> rfl

lemma Json.isNull_of_content? {v content : Json} {name : String}
    (h : v.content? name = some content) : content.isNull = false := by
  simpa using (Option.filter_eq_some_iff.1 h).2

section Rendered

variable {s : Store g} {links : Links} {plan plan' : Plan g} {path path' : List String} {i : g.Id}
  {row : Record} {v w : Json} {nodes nodes' : Option (List (String × Plan.Node g.size))}
  {depth depth' : Nat} {name : String} {r : Relation g.size}

/-- Renderings of the same record differ in relations only. -/
lemma RenderedAt.get?_eq_of_not_relation (h : RenderedAt s links plan path i row v nodes depth)
    (h' : RenderedAt s links plan' path' i row w nodes' depth') (hi : (g.schema i).Distinct)
    (name : String) (hname : ∀ r, (name, r) ∉ (g.schema i).relations) :
    v.get? name = w.get? name := by
  cases ha : (g.schema i).attribute? name with
  | none => rw [h.value, h'.value, Render.get?_entity_undeclared hi ha,
      Render.get?_entity_undeclared hi ha]
  | some a =>
    obtain ⟨other, kind⟩ := a
    obtain ⟨hmem, rfl⟩ := hi.attribute?_eq_some_iff.1 ha
    cases kind with
    | scalar t => rw [(h.shows hi).2 _ t ha, (h'.shows hi).2 _ t ha]
    | relation r => exact absurd (Schema.mem_relations_iff.2 hmem) (hname r)

/-- A to-one relation tells more if the record that fills it does. -/
lemma RevealsRelation.of_toOne (hg : g.HasScalarKeys) (hs : s.HoldsSimpleKeys)
    (hdistinct : ∀ j, (g.schema j).Distinct)
    (h : RenderedAt s links plan path i row v nodes depth)
    (h' : RenderedAt s links plan' path' i row w nodes' depth')
    (hr : (name, r) ∈ (g.schema i).relations) (hc : r.cardinality = .toOne)
    (hcontent : ∀ content, v.content? name = some content → ∃ target content',
      s.referent? row name r = some target ∧ w.content? name = some content' ∧
        Reveals s r.target target content content') :
    RevealsRelation s i row name r (v.get? name) (w.get? name) := by
  cases hkey : Json.member? name row with
  | none =>
    -- without a key there is no envelope
    have hnone : v.get? name = w.get? name := by
      rw [h.get?_toOne (hdistinct i) hr hc, h'.get?_toOne (hdistinct i) hr hc, Store.referent?, hkey]
      simp
    rw [hnone]
    exact .same
  | some key =>
    obtain ⟨e, hget, hlink⟩ := h.exists_toOne_of_scalar hg hs hdistinct hr hc hkey
    obtain ⟨e', hget', hlink'⟩ := h'.exists_toOne_of_scalar hg hs hdistinct hr hc hkey
    rw [Json.get?_of_get?_toJson hget, Json.get?_of_get?_toJson hget', hlink, hlink']
    cases hv : v.content? name with
    | none =>
      cases hw : w.content? name with
      | none => exact .same
      | some content' => exact .opened (Json.isNull_of_content? hw)
    | some content =>
      obtain ⟨target, content', htarget, hw, hreveals⟩ := hcontent content hv
      rw [hw]
      exact .toOne hc htarget hreveals

/-- A to-many relation tells more if it is planned where the other one is, and the records that fill
it do. -/
lemma RevealsRelation.of_toMany (hg : g.HasScalarKeys) (hs : s.HoldsSimpleKeys) (hflat : s.Flat)
    (hdistinct : ∀ j, (g.schema j).Distinct)
    (h : RenderedAt s links plan path i row v nodes depth)
    (h' : RenderedAt s links plan' path' i row w nodes' depth')
    (hr : (name, r) ∈ (g.schema i).relations) (hc : r.cardinality = .toMany)
    (hplanned : (Render.childrenOf nodes name).isSome → (Render.childrenOf nodes' name).isSome)
    (hcontent : ∀ content, v.content? name = some content → ∃ items items',
      content = .array items ∧ w.content? name = some (.array items') ∧
        RevealsEach s r.target (s.referring i row r) items items') :
    RevealsRelation s i row name r (v.get? name) (w.get? name) := by
  have hmember := hflat.member?_eq_none h.stored hr hc
  obtain ⟨e, hget, hlink⟩ := h.exists_toMany hg hs hdistinct hr hc hmember
  obtain ⟨e', hget', hlink'⟩ := h'.exists_toMany hg hs hdistinct hr hc hmember
  have hv := h.content?_toMany hs.unnested (hdistinct i) hr hc
  have hw := h'.content?_toMany hs.unnested (hdistinct i) hr hc
  rw [Json.get?_of_get?_toJson hget, Json.get?_of_get?_toJson hget', hlink, hlink']
  by_cases hnil : s.referring i row r = []
  · -- nothing fills the relation, and where that is planned the link is left out
    simp only [hnil, if_true, Option.bind_fun_none] at hv hw
    rw [hv, hw]
    simp only [hnil, and_true]
    by_cases hleft : (Render.childrenOf nodes name).isSome
    · rw [if_pos hleft, if_pos (hplanned hleft)]
      exact .same
    · rw [if_neg hleft]
      split
      · exact .nothing hc hnil
      · exact .same
  · simp only [hnil, and_false, if_false]
    cases hleft : v.content? name with
    | none =>
      cases hright : w.content? name with
      | none => exact .same
      | some content' => exact .opened (Json.isNull_of_content? hright)
    | some content =>
      obtain ⟨items, items', rfl, hright, hreveals⟩ := hcontent content hleft
      rw [hright]
      exact .toMany hc hreveals

/-- The items that fill a to-many relation are the renderings of the records that refer to the
owner. -/
lemma RenderedAt.exists_items (h : RenderedAt s links plan path i row v nodes depth)
    (hs : s.Unnested) (hi : (g.schema i).Distinct) (hr : (name, r) ∈ (g.schema i).relations)
    (hc : r.cardinality = .toMany) {content : Json} (hcontent : v.content? name = some content) :
    ∃ f : Record → Json, content = .array ((s.referring i row r).map f) ∧
      ∀ target ∈ s.referring i row r,
        RenderedAt s links plan (path ++ [name]) r.target target (f target)
          (Render.childrenOf nodes name) depth := by
  have hitems := hcontent
  rw [h.content?_toMany hs hi hr hc] at hitems
  obtain ⟨children, -, hitems⟩ := Option.bind_eq_some_iff.1 hitems
  split at hitems
  · cases hitems
  · cases hitems
    refine ⟨_, rfl, fun target htarget => h.toMany hs hi hr hc hcontent ?_⟩
    rw [← List.map_prod_left_eq_zip]
    exact List.mem_map.2 ⟨target, htarget, rfl⟩

/-- A rendering with the deeper one of two nested plans tells at least as much as one with the
shallower plan, if that holds of what fills the planned relations. -/
lemma Reveals.of_behind (hg : g.HasScalarKeys) (hs : s.HoldsSimpleKeys) (hflat : s.Flat)
    (hdistinct : ∀ j, (g.schema j).Distinct) {steps : Nat}
    (h : RenderedAt s links plan path i row v nodes depth)
    (h' : RenderedAt s links plan' path' i row w nodes' depth')
    (hnests : Plan.Nests i steps nodes nodes')
    (hbehind : ∀ name r, (name, r) ∈ (g.schema i).relations →
      ((nodes.getD []).lookup name).isSome → ∀ target content content' left left',
        RenderedAt s links plan (path ++ [name]) r.target target content
          (Render.childrenOf nodes name) left →
        RenderedAt s links plan' (path' ++ [name]) r.target target content'
          (Render.childrenOf nodes' name) left' →
        Reveals s r.target target content content') : Reveals s i row v w := by
  have hunnested := hflat.unnested
  have hfollows := h.followsPlan hunnested hdistinct
  have hfollows' := h'.followsPlan hunnested hdistinct
  refine .record hfollows.shows.1 hfollows'.shows.1 (h.get?_eq_of_not_relation h' (hdistinct i))
    fun name r hr => ?_
  cases hc : r.cardinality with
  | toOne =>
    refine .of_toOne hg hs hdistinct h h' hr hc fun content hcontent => ?_
    obtain ⟨target, htarget, -⟩ := hfollows.toOne_shows name r hr hc content hcontent
    obtain ⟨hplanned, hreferent⟩ := (hfollows.toOne_iff name r hr hc).1 (by rw [hcontent]; rfl)
    rw [h.lookup_eq] at hplanned
    have hplanned' := hnests.isSome_lookup (hdistinct i) hr hplanned
    rw [← h'.lookup_eq] at hplanned'
    obtain ⟨content', hcontent'⟩ := Option.isSome_iff_exists.1
      ((hfollows'.toOne_iff name r hr hc).2 ⟨hplanned', hreferent⟩)
    exact ⟨target, content', htarget, hcontent', hbehind name r hr hplanned _ _ _ _ _
      (h.toOne hunnested (hdistinct i) hr hc hcontent htarget)
      (h'.toOne hunnested (hdistinct i) hr hc hcontent' htarget)⟩
  | toMany =>
    have hgoesOn := hnests.isSome_childrenOf (hdistinct i) hr
    refine .of_toMany hg hs hflat hdistinct h h' hr hc hgoesOn fun content hcontent => ?_
    obtain ⟨hplanned, hreferring⟩ := (hfollows.toMany_iff name r hr hc).1 (by rw [hcontent]; rfl)
    have hlookup : ((nodes.getD []).lookup name).isSome := by
      rw [h.lookup_eq] at hplanned
      exact Option.isSome_of_isSome_bind hplanned
    rw [← h.childrenOf_eq] at hplanned
    have hplanned' := hgoesOn hplanned
    rw [h'.childrenOf_eq] at hplanned'
    obtain ⟨content', hcontent'⟩ := Option.isSome_iff_exists.1
      ((hfollows'.toMany_iff name r hr hc).2 ⟨hplanned', hreferring⟩)
    obtain ⟨f, rfl, hf⟩ := h.exists_items hunnested (hdistinct i) hr hc hcontent
    obtain ⟨f', rfl, hf'⟩ := h'.exists_items hunnested (hdistinct i) hr hc hcontent'
    exact ⟨_, _, rfl, hcontent', .map fun target htarget =>
      hbehind name r hr hlookup _ _ _ _ _ (hf target htarget) (hf' target htarget)⟩

/-- A rendering with the deeper one of two nested plans tells at least as much as one with the
shallower plan. -/
lemma reveals_of_nests (hg : g.HasScalarKeys) (hs : s.HoldsSimpleKeys) (hflat : s.Flat)
    (hdistinct : ∀ j, (g.schema j).Distinct) {steps : Nat}
    (h : RenderedAt s links plan path i row v nodes depth)
    (h' : RenderedAt s links plan' path' i row w nodes' depth')
    (hnests : Plan.Nests i steps nodes nodes') : Reveals s i row v w := by
  -- behind every relation there is one step less
  induction steps generalizing path path' i row v w nodes nodes' depth depth' with
  | zero =>
    refine .of_behind hg hs hflat hdistinct h h' hnests fun name r hr hplanned => ?_
    rw [hnests.lookup_eq_none] at hplanned
    cases hplanned
  | succ steps ih =>
    refine .of_behind hg hs hflat hdistinct h h' hnests ?_
    intro name r hr _ target content content' left left' hcontent hcontent'
    exact ih hcontent hcontent' (hnests.behind (hdistinct i) hr)

end Rendered

/-! ### Pages -/

/-- **More levels tell more.**  Take a store over a graph that was built with scalars as primary keys,
whose records have texts and integers for keys and nothing under to-many relations, and a request
whose filter and order are accepted.  At any two depths up to the ceiling, whatever
the services were asked before, the pages of the request count the same number of records and hold
the same records in order, and those of the higher depth tell at least as much as those of the
lower one, relation by relation. -/
theorem list_reveals {definitions : List Schema.Definition}
    (hbuild : Graph.build definitions = .ok g) (hg : g.HasScalarKeys) {store : Store g}
    (hs : store.HoldsSimpleKeys) (hflat : store.Flat)
    (c : Configuration) (before before' : List Service.Call) {entity : String} {root : g.Id}
    (hroot : g.find? entity = some root) {p : Parameters} {predicate : Option Predicate}
    {order : List OrderKey} (hpredicate : Service.predicateFor g entity p = .ok predicate)
    (horder : Service.orderFor g entity p = .ok order) {level level' : Int} (hpos : 1 ≤ level)
    (hle : level ≤ level') (hceiling : level' ≤ c.maxLevelCeiling) :
    ∃ (rows : List Record) (page page' : Page),
      store.fetch entity ⟨predicate, order, p.offset, some p.limit, none⟩ = .ok rows ∧
      (((Service.of store c).after before).list entity { p with maxLevel := level }).result =
        .ok page ∧
      (((Service.of store c).after before').list entity { p with maxLevel := level' }).result =
        .ok page' ∧
      page.count = page'.count ∧ RevealsEach store root rows page.results page'.results := by
  have hdistinct := Graph.distinct_of_build hbuild
  obtain ⟨cache, hcache, hbefore⟩ := Service.after_eq (Service.sound_of store c) before
  obtain ⟨cache', hcache', hbefore'⟩ := Service.after_eq (Service.sound_of store c) before'
  obtain ⟨plan, hplan⟩ : ∃ plan, g.plan root level c.maxLevelCeiling = .ok plan :=
    ⟨_, Graph.plan_eq_ok_iff.2 ⟨⟨hpos, hle.trans hceiling⟩, rfl⟩⟩
  obtain ⟨plan', hplan'⟩ : ∃ plan, g.plan root level' c.maxLevelCeiling = .ok plan :=
    ⟨_, Graph.plan_eq_ok_iff.2 ⟨⟨hpos.trans hle, hceiling⟩, rfl⟩⟩
  refine ⟨_, (Service.of store c).pageOf root plan predicate order p.offset p.limit,
    (Service.of store c).pageOf root plan' predicate order p.offset p.limit,
    store.fetch_eq _ hroot, ?_, ?_, rfl, .map fun row hrow => ?_⟩
  · rw [hbefore, Service.result_list hcache]
    exact Service.listed_of_compiled hroot hplan hpredicate horder
  · rw [hbefore', Service.result_list hcache']
    exact Service.listed_of_compiled hroot hplan' hpredicate horder
  · have hstored := store.stored_of_mem_page ⟨predicate, order, p.offset, some p.limit, none⟩ hrow
    exact reveals_of_nests hg hs hflat hdistinct (renderedAt_of_plan _ hplan hstored)
      (renderedAt_of_plan _ hplan' hstored) (Graph.nests_of_plan hplan hplan' hle)

theorem list_reveals_shelter :
    ∃ (rows : List Record) (page page' : Page),
      shelterStore.fetch "Person" ⟨none, [], 0, some 20, none⟩ = .ok rows ∧ rows.length = 3 ∧
      ((Service.of shelterStore .default).list "Person"
        { Parameters.defaults .default with maxLevel := 1 }).result = .ok page ∧
      (((Service.of shelterStore .default).after [.size "Pet" (.defaults .default)]).list "Person"
        { Parameters.defaults .default with maxLevel := 3 }).result = .ok page' ∧
      page.count = page'.count ∧
      RevealsEach shelterStore ⟨0, by decide⟩ rows page.results page'.results := by
  have hscalar : shelterGraph.HasScalarKeys := by
    unfold Graph.HasScalarKeys
    decide
  have hkeys : shelterStore.HoldsSimpleKeys := ⟨by decide, by decide⟩
  have hflat : shelterStore.Flat := by decide
  obtain ⟨rows, page, page', hrows, hpage, hpage', hcount, hreveals⟩ :=
    list_reveals build_shelter hscalar hkeys hflat .default [] [.size "Pet" (.defaults .default)]
      find?_person_shelter (p := .defaults .default) rfl rfl (by decide : (1 : Int) ≤ 1)
      (by decide : (1 : Int) ≤ 3) (by decide)
  have hthree : rows.length = 3 := by
    rw [← Except.ok.inj ((shelterStore.fetch_eq _ find?_person_shelter).symm.trans hrows)]
    simp only [Store.page, Store.ordered_nil]
    rfl
  exact ⟨rows, page, page', hrows, hthree, hpage, hpage', hcount, hreveals⟩

end Retrieval
