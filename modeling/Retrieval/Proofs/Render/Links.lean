/-
# Links of rendered relations

The envelope of a to-one relation has the link of the key that the record holds, whether the record
of that key is embedded or not.  There is one exception: the link of an embedded record is made of
its key, and a key that is itself a relation may have been replaced by what is embedded there.  The
envelope of a to-many relation has the link of the record's own key, unless nothing is to be found
under it.
-/
import Retrieval.Proofs.Render.Depth
import Retrieval.Proofs.Store.Keys

namespace Retrieval

/-- The link that the envelope of a relation of a rendered record has. -/
def Json.link? (v : Json) (name : String) : Option String :=
  ((v.get? name).bind (·.get? "link")).bind Json.string?

lemma Json.link?_of_get? {v : Json} {name : String} {e : Envelope}
    (h : v.get? name = some e.toJson) : v.link? name = e.link := by
  have hlink : e.toJson.get? "link" = some (Json.orNull .string e.link) := rfl
  rw [Json.link?, h, Option.bind_some, hlink, Option.bind_some]
  cases e.link <;> rfl

lemma Render.link_toOneEnvelope (links : Links) {n : Nat} (target : Schema n) (budget : Nat)
    (members : List (String × Json)) (rendered : Unit → Json) :
    (toOneEnvelope links target budget (.object members) rendered).link =
      (Json.member? target.primaryKey members).bind (links.detail? target) := by
  rw [toOneEnvelope]
  split <;> rfl

variable {g : Graph} {s : Store g} {i : g.Id} {row : Record} {name : String} {r : Relation g.size}

lemma Graph.Linkable.hasScalarKeys (hg : g.Linkable) : g.HasScalarKeys := fun i => by
  rw [hg.attribute?_primaryKey i]
  rfl

namespace Store

/-- Whether a plan puts embedded records in the place of the key of a record behind a path. -/
def replacesKey (s : Store g) (plan : Plan g) (path : List String) (i : g.Id) (row : Record) :
    Bool :=
  ((plan.node? (path ++ [(g.schema i).primaryKey])).bind
    (s.embedded? i row (g.schema i).primaryKey)).isSome

/-- Only a key that is itself a relation can be replaced. -/
lemma replacesKey_eq_false {t : ValueType} (ha : (g.schema i).attribute?
      (g.schema i).primaryKey = some ⟨(g.schema i).primaryKey, .scalar t⟩)
    (plan : Plan g) (path : List String) (row : Record) :
    s.replacesKey plan path i row = false := by
  rw [replacesKey]
  cases plan.node? (path ++ [(g.schema i).primaryKey]) with
  | none => rfl
  | some node => rw [Option.bind_some, embedded?_scalar ha, Option.isSome_none]

lemma HoldsSimpleKeys.unnested (hs : s.HoldsSimpleKeys) : s.Unnested := by
  intro i row hrow ⟨name, r⟩ hr
  obtain ⟨key, hkey, -⟩ := hs.exists_key hrow
  rw [Relation.isUnnested]
  cases hc : r.cardinality with
  | toOne =>
    dsimp only
    cases hv : Json.member? name row with
    | none => rfl
    | some v =>
      rcases hs.null_or_isKey hrow hr hc hv with rfl | hsimple
      · rfl
      · cases v <;> first | rfl | cases hsimple
  | toMany => simp [hkey]

lemma HoldsIntegers.flat (hs : s.HoldsIntegers) : s.Flat := by
  intro i row hrow ⟨name, r⟩ hr
  rw [Relation.isFlat]
  cases hc : r.cardinality with
  | toOne =>
    dsimp only
    cases hv : Json.member? name row with
    | none => rfl
    | some v =>
      rcases hs.exists_reference hrow hr hc hv with rfl | ⟨n, rfl, -⟩
      · rfl
      · rfl
  | toMany => exact hs.toMany i row hrow (name, r) hr hc

end Store

namespace RenderedAt

variable {links : Links} {plan : Plan g} {path : List String} {v : Json}
  {nodes : Option (List (String × Plan.Node g.size))} {depth : Nat}

/-- What the plan has behind a relation is what embedding the target uses. -/
lemma lookup_behind (h : RenderedAt s links plan path i row v nodes depth) (name other : String) :
    plan.node? (path ++ [name] ++ [other]) =
      ((Render.childrenOf nodes name).getD []).lookup other := by
  rw [h.node?_append name (by simp)]
  cases Render.childrenOf nodes name <;> rfl

/-- The envelope of a to-one relation is made of the embedded target, if there is one, or else of
what the stored record holds. -/
lemma get?_toOne (h : RenderedAt s links plan path i row v nodes depth)
    (hi : (g.schema i).Distinct) (hr : (name, r) ∈ (g.schema i).relations)
    (hc : r.cardinality = .toOne) :
    v.get? name =
      ((((nodes.getD []).lookup name).bind fun node => (s.referent? row name r).map fun target =>
        Json.object (s.embed r.target target (node.children?.getD []))).or
          (Json.member? name row)).map fun raw =>
            (Render.toOneEnvelope links (g.schema r.target) depth raw fun _ =>
              Render.entity g links r.target (Render.childrenOf nodes name) (depth - 1)
                raw).toJson := by
  have ha := hi.attribute?_of_mem_relations hr
  rw [h.value, Render.get?_entity_toOne hi hr hc, Store.member?_embed (h.level.nodup hi)]
  simp only [Store.embedded?_toOne ha hc]

/-- The envelope of a to-one relation has the link of the key which the stored record holds, unless
the key of the target is replaced. -/
lemma exists_toOne (h : RenderedAt s links plan path i row v nodes depth) (hs : s.HoldsSimpleKeys)
    (hdistinct : ∀ j, (g.schema j).Distinct) (hr : (name, r) ∈ (g.schema i).relations)
    (hc : r.cardinality = .toOne) {key : Json} (hkey : Json.member? name row = some key) :
    ∃ e : Envelope, v.get? name = some e.toJson ∧
      e.link = if (s.referent? row name r).any (s.replacesKey plan (path ++ [name]) r.target)
        then none else ((some key).filter (!·.isNull)).bind (links.detail? (g.schema r.target)) := by
  have hget := h.get?_toOne (hdistinct i) hr hc
  have hsimple := hs.null_or_isKey h.stored hr hc hkey
  -- where nothing is embedded, the record keeps the key itself
  have hkept : v.get? name = some (Render.toOneEnvelope links (g.schema r.target) depth key fun _ =>
        Render.entity g links r.target (Render.childrenOf nodes name) (depth - 1) key).toJson →
      ∃ e : Envelope, v.get? name = some e.toJson ∧
        e.link = ((some key).filter (!·.isNull)).bind (links.detail? (g.schema r.target)) := by
    refine fun hkept => ⟨_, hkept, ?_⟩
    rcases hsimple with rfl | hsimple
    · rfl
    · obtain ⟨text, rfl⟩ | ⟨n, rfl, -⟩ := Json.isKey_iff.1 hsimple <;> rfl
  cases htarget : s.referent? row name r with
  | none =>
    simp only [htarget, Option.map_none, Option.bind_fun_none, Option.none_or, hkey,
      Option.map_some] at hget
    exact hkept hget
  | some target =>
    rw [Option.any_some, Store.replacesKey, h.lookup_behind]
    have hchildren : Render.childrenOf nodes name =
        ((nodes.getD []).lookup name).bind Plan.Node.children? := by
      rw [h.childrenOf_eq, h.lookup_eq]
    have hnodup := (h.level.behind (hdistinct i) hr).nodup (hdistinct _)
    cases hnode : (nodes.getD []).lookup name with
    | none =>
      rw [hnode] at hget hchildren
      rw [Option.bind_none, Option.none_or, hkey, Option.map_some] at hget
      rw [hchildren]
      exact hkept hget
    | some node =>
      rw [hnode, Option.bind_some] at hchildren
      rw [hnode, Option.bind_some, htarget, Option.map_some, Option.some_or, Option.map_some] at hget
      refine ⟨_, hget, ?_⟩
      rw [hchildren] at hnodup ⊢
      rw [Render.link_toOneEnvelope, Store.member?_embed hnodup]
      cases hembedded : ((node.children?.getD []).lookup (g.schema r.target).primaryKey).bind
          (s.embedded? r.target target (g.schema r.target).primaryKey) with
      | some w =>
        -- embedded records have no text in a filter
        obtain ⟨other, -, hother⟩ := Option.bind_eq_some_iff.1 hembedded
        obtain ⟨members, rfl⟩ | ⟨items, rfl⟩ := Store.object_or_array_of_embedded? hother <;> rfl
      | none =>
        obtain ⟨found, hfound, hfind⟩ := Option.bind_eq_some_iff.1 htarget
        obtain rfl : key = found :=
          Option.some.inj (hkey.symm.trans (Option.filter_eq_some_iff.1 hfound).1)
        rw [hkey] at hfound
        have hown : key.isKey := hsimple.resolve_left (by rintro rfl; cases hfound)
        -- the embedded record has the key by which it was found
        rw [Option.none_or, (hs.findByKey?_eq_some hown hfind).2, hfound]
        rfl

/-- If keys are scalars, the link is that of the key whatever is embedded. -/
lemma exists_toOne_of_scalar (h : RenderedAt s links plan path i row v nodes depth)
    (hg : g.HasScalarKeys) (hs : s.HoldsSimpleKeys) (hdistinct : ∀ j, (g.schema j).Distinct)
    (hr : (name, r) ∈ (g.schema i).relations) (hc : r.cardinality = .toOne) {key : Json}
    (hkey : Json.member? name row = some key) :
    ∃ e : Envelope, v.get? name = some e.toJson ∧
      e.link = ((some key).filter (!·.isNull)).bind (links.detail? (g.schema r.target)) := by
  obtain ⟨e, hget, hlink⟩ := h.exists_toOne hs hdistinct hr hc hkey
  obtain ⟨t, ha⟩ := hg.exists_attribute? r.target
  refine ⟨e, hget, hlink.trans (if_neg ?_)⟩
  simp [Store.replacesKey_eq_false ha, Option.any_eq_true]

lemma link?_toOne (h : RenderedAt s links plan path i row v nodes depth) (hg : g.HasScalarKeys)
    (hs : s.HoldsSimpleKeys) (hdistinct : ∀ j, (g.schema j).Distinct)
    (hr : (name, r) ∈ (g.schema i).relations) (hc : r.cardinality = .toOne) :
    v.link? name =
      ((Json.member? name row).filter (!·.isNull)).bind (links.detail? (g.schema r.target)) := by
  cases hkey : Json.member? name row with
  | none =>
    rw [Json.link?, h.get?_toOne (hdistinct i) hr hc, Store.referent?, hkey]
    simp
  | some key =>
    obtain ⟨e, hget, hlink⟩ := h.exists_toOne_of_scalar hg hs hdistinct hr hc hkey
    rw [Json.link?_of_get? hget, hlink]

/-- The envelope of a to-many relation has the link of the key of the stored record, unless what the
relation leads to is embedded and nothing. -/
lemma exists_toMany (h : RenderedAt s links plan path i row v nodes depth) (hg : g.HasScalarKeys)
    (hs : s.HoldsSimpleKeys) (hdistinct : ∀ j, (g.schema j).Distinct)
    (hr : (name, r) ∈ (g.schema i).relations) (hc : r.cardinality = .toMany)
    (hnone : Json.member? name row = none) :
    ∃ e : Envelope, v.get? name = some e.toJson ∧
      e.link = if (Render.childrenOf nodes name).isSome ∧ s.referring i row r = [] then none
        else Render.listLink? links (g.schema r.target) name r
          (Json.member? (g.schema i).primaryKey row) := by
  obtain ⟨t, ha⟩ := hg.exists_attribute? i
  obtain ⟨key, hkey, -⟩ := hs.exists_key h.stored
  have hget := congrArg (Json.get? · name) h.value
  rw [Render.get?_entity_toMany (hdistinct i) hr hc, h.member?_toMany (hdistinct i) hr hc, hnone,
    Option.or_none, Store.member?_embed_scalar ha] at hget
  refine ⟨_, hget, ?_⟩
  cases Render.childrenOf nodes name with
  | none => simp [Envelope.linkOnly]
  | some children =>
    have hreferring : s.referring i row r = s.related r key := by
      rw [Store.referring, hkey]
      rfl
    rw [Option.bind_some, hkey, Option.map_some, Option.elim_some, hreferring]
    cases s.related r key with
    | nil => simp [Render.toManyEnvelope, Envelope.empty]
    | cons target targets => simp [Render.toManyEnvelope, Envelope.expanded]

lemma link?_toMany (h : RenderedAt s links plan path i row v nodes depth) (hg : g.HasScalarKeys)
    (hs : s.HoldsSimpleKeys) (hdistinct : ∀ j, (g.schema j).Distinct)
    (hr : (name, r) ∈ (g.schema i).relations) (hc : r.cardinality = .toMany)
    (hnone : Json.member? name row = none) :
    v.link? name =
      if (Render.childrenOf nodes name).isSome ∧ s.referring i row r = [] then none
      else Render.listLink? links (g.schema r.target) name r
        (Json.member? (g.schema i).primaryKey row) := by
  obtain ⟨e, hget, hlink⟩ := h.exists_toMany hg hs hdistinct hr hc hnone
  rw [Json.link?_of_get? hget, hlink]

end RenderedAt

/-! ### Records in a response -/

/-- The records that a rendered record holds under its relations, itself included, each with its
schema. -/
inductive Inside (root : g.Id) (output : Json) : g.Id → Json → Prop where
  | root : Inside root output root output
  | toOne {i : g.Id} {v content : Json} {name : String} {r : Relation g.size} :
    Inside root output i v → (name, r) ∈ (g.schema i).relations → r.cardinality = .toOne →
      v.content? name = some content → Inside root output r.target content
  | toMany {i : g.Id} {v item : Json} {items : List Json} {name : String} {r : Relation g.size} :
    Inside root output i v → (name, r) ∈ (g.schema i).relations → r.cardinality = .toMany →
      v.content? name = some (.array items) → item ∈ items → Inside root output r.target item

/-- Whatever record is in a response shows a stored one. -/
lemma Inside.shown {links : Links} {plan : Plan g} {root : g.Id} {output : Json} (hs : s.Unnested)
    (hdistinct : ∀ j, (g.schema j).Distinct)
    (hroot : RenderedAt s links plan [] root row output (some plan.relations) plan.maxDepth)
    {v : Json} (h : Inside root output i v) :
    ∃ path owner, Shown s root row output path i owner v := by
  induction h with
  | root => exact ⟨[], row, .root⟩
  | toOne _ hr hc hcontent ih =>
    obtain ⟨path, owner, hshown⟩ := ih
    obtain ⟨nodes, depth, hrendered⟩ := hshown.renderedAt hs hdistinct hroot
    obtain ⟨target, htarget, -⟩ :=
      (hrendered.followsPlan hs hdistinct).toOne_shows _ _ hr hc _ hcontent
    exact ⟨_, target, hshown.toOne hr hc hcontent htarget⟩
  | toMany _ hr hc hcontent hitem ih =>
    obtain ⟨path, owner, hshown⟩ := ih
    obtain ⟨nodes, depth, hrendered⟩ := hshown.renderedAt hs hdistinct hroot
    obtain ⟨_, ⟨⟩, hitems⟩ :=
      (hrendered.followsPlan hs hdistinct).toMany_shows _ _ hr hc _ hcontent
    -- every item stands at the place of a record that refers to the owner
    rw [← List.map_snd_zip (Nat.le_of_eq hitems.length_eq.symm)] at hitem
    obtain ⟨⟨target, _⟩, hzip, rfl⟩ := List.mem_map.1 hitem
    exact ⟨_, target, hshown.toMany hr hc hcontent hzip⟩

/-! ### Links and embedding -/

/-- The to-one relations of a record behind a path have envelopes whose links are those of the keys
that the stored record holds, as far as these keys lead to stored records and a plan leaves the keys
of these in place.  A key that is a scalar is always left in place. -/
structure LinksKeys (s : Store g) (links : Links) (plan : Plan g) (path : List String) (i : g.Id)
    (owner : Record) (v : Json) : Prop where
  link_eq : ∀ name r key target, (name, r) ∈ (g.schema i).relations → r.cardinality = .toOne →
    Json.member? name owner = some key → s.findByKey? r.target key = some target →
    ∃ e : Envelope, v.get? name = some e.toJson ∧
      e.link = if s.replacesKey plan (path ++ [name]) r.target target then none
        else links.detail? (g.schema r.target) key
  link_eq_of_scalar : ∀ name r key target, (name, r) ∈ (g.schema i).relations →
    r.cardinality = .toOne → Json.member? name owner = some key →
    s.findByKey? r.target key = some target →
    ∀ t, (g.schema r.target).attribute? (g.schema r.target).primaryKey =
        some ⟨(g.schema r.target).primaryKey, .scalar t⟩ →
      ∃ e : Envelope, v.get? name = some e.toJson ∧
        e.link = links.detail? (g.schema r.target) key

lemma RenderedAt.linksKeys {links : Links} {plan : Plan g} {path : List String} {v : Json}
    {nodes : Option (List (String × Plan.Node g.size))} {depth : Nat}
    (h : RenderedAt s links plan path i row v nodes depth) (hs : s.HoldsSimpleKeys)
    (hkeyed : s.Keyed) (hdistinct : ∀ j, (g.schema j).Distinct) :
    LinksKeys s links plan path i row v := by
  have hlink : ∀ name r key target, (name, r) ∈ (g.schema i).relations → r.cardinality = .toOne →
      Json.member? name row = some key → s.findByKey? r.target key = some target →
      ∃ e : Envelope, v.get? name = some e.toJson ∧
        e.link = if s.replacesKey plan (path ++ [name]) r.target target then none
          else links.detail? (g.schema r.target) key := by
    intro name r key target hr hc hkey hfound
    have hfilter : (some key).filter (!·.isNull) = some key := by
      cases key with
      | null => cases (hkeyed.findByKey?_null r.target).symm.trans hfound
      | _ => rfl
    obtain ⟨e, hget, hlink⟩ := h.exists_toOne hs hdistinct hr hc hkey
    rw [Store.referent?, hkey, hfilter, Option.bind_some, hfound, Option.any_some,
      Option.bind_some] at hlink
    exact ⟨e, hget, hlink⟩
  refine ⟨hlink, fun name r key target hr hc hkey hfound t ha => ?_⟩
  obtain ⟨e, hget, hlink⟩ := hlink name r key target hr hc hkey hfound
  rw [Store.replacesKey_eq_false ha] at hlink
  exact ⟨e, hget, hlink⟩

/-- **Links do not depend on embedding.**  Take any store that is filled over a graph that was built
with texts and integers for keys, fetch any of its records with a plan and render them with the
depth of the plan as budget.  Then every record inside, behind whatever path of relations, shows a
stored record and has the links of the keys which that holds, unless the plan embeds records in the
place of the key of a target. -/
theorem render_fetch_linksKeys {definitions : List Schema.Definition}
    (hg : Graph.build definitions = .ok g) {s : Store g} (hstore : s.Reachable)
    (hs : s.HoldsSimpleKeys) (links : Links) {schema : String} {root : g.Id}
    (hroot : g.find? schema = some root) {depth : Int} {ceiling : Nat} (hpos : 1 ≤ depth)
    (hle : depth ≤ ceiling) :
    ∃ plan : Plan g,
      g.plan root depth ceiling = .ok plan ∧
      s.fetch schema ⟨none, [], 0, none, none⟩ = .ok (s.rows root) ∧
      ∀ q : Selection g, ∃ rows records : List Record,
        s.fetch schema { q with plan := none } = .ok rows ∧
        s.fetch schema { q with plan := some plan } = .ok records ∧
        List.Forall₂ (fun row record => ∀ i v,
          Inside root (plan.render links root plan.maxDepth (.object record)) i v →
          ∃ path owner,
            Shown s root row (plan.render links root plan.maxDepth (.object record)) path i owner v ∧
            LinksKeys s links plan path i owner v) rows records := by
  have hdistinct := Graph.distinct_of_build hg
  obtain ⟨plan, hplan⟩ : ∃ plan, g.plan root depth ceiling = .ok plan := ⟨_, if_pos ⟨hpos, hle⟩⟩
  refine ⟨plan, hplan, s.fetch_all hroot, fun q => ?_⟩
  refine ⟨_, _, s.fetch_eq _ hroot, s.fetch_eq _ hroot, ?_⟩
  rw [Store.page_plan, List.forall₂_map_right_iff, List.forall₂_same]
  intro row hrow i v hinside
  have hrendered := renderedAt_of_plan links hplan (s.stored_of_mem_page q hrow)
  obtain ⟨path, owner, hshown⟩ := hinside.shown hs.unnested hdistinct hrendered
  obtain ⟨nodes, left, hv⟩ := hshown.renderedAt hs.unnested hdistinct hrendered
  exact ⟨path, owner, hshown, hv.linksKeys hs hstore.keyed hdistinct⟩

/-- Cars with licences, whose key is the person who holds them. -/
def garageDefinitions : List Schema.Definition :=
  [Schema.Definition.ofName "Person" |>.scalar "id" .int,
   { (Schema.Definition.ofName "Licence" |>.toOne "holder" "Person" false) with
     primaryKey := "holder" },
   Schema.Definition.ofName "Car" |>.scalar "id" .int |>.toOne "licence" "Licence" true]

/-- The graph of these definitions. -/
def garageGraph : Graph :=
  ⟨3, #v[⟨"Person", none, "id", [⟨"id", .scalar .int⟩]⟩,
    ⟨"Licence", none, "holder", [⟨"holder", .relation ⟨.toOne, false, 0, none⟩⟩]⟩,
    ⟨"Car", none, "id", [⟨"id", .scalar .int⟩,
      ⟨"licence", .relation ⟨.toOne, true, 1, none⟩⟩]⟩]⟩

/-- A car with a licence. -/
def garageFixture : Json :=
  .object [("Car", .array [.object [("id", .int 7), ("licence", .int 1)]]),
    ("Licence", .array [.object [("holder", .int 1)]]),
    ("Person", .array [.object [("id", .int 1)]])]

/-- The store of this fixture. -/
def garageStore : Store garageGraph :=
  ⟨#v[[[("id", .int 1)]], [[("holder", .int 1)]], [[("id", .int 7), ("licence", .int 1)]]]⟩

lemma build_garage : Graph.build garageDefinitions = .ok garageGraph := by decide +kernel

lemma ofFixture_garage : Store.ofFixture garageGraph garageFixture = .ok garageStore := by
  decide +kernel

lemma find?_car_garage : garageGraph.find? "Car" = some ⟨2, by decide⟩ := by decide +kernel

theorem render_fetch_linksKeys_garage :
    ∃ (root : garageGraph.Id) (plan : Plan garageGraph) (rows records : List Record),
      garageGraph.find? "Car" = some root ∧ garageGraph.plan root 1 3 = .ok plan ∧
      garageStore.fetch "Car" ⟨none, [], 0, none, none⟩ = .ok rows ∧ rows.length = 1 ∧
      garageStore.fetch "Car" ⟨none, [], 0, none, some plan⟩ = .ok records ∧
      List.Forall₂ (fun row record => ∀ i v,
        Inside root (plan.render ⟨Links.defaultBase⟩ root plan.maxDepth (.object record)) i v →
        ∃ path owner,
          Shown garageStore root row
            (plan.render ⟨Links.defaultBase⟩ root plan.maxDepth (.object record)) path i owner v ∧
          LinksKeys garageStore ⟨Links.defaultBase⟩ plan path i owner v) rows records := by
  have hkeys : garageStore.HoldsSimpleKeys := ⟨by decide, by decide⟩
  obtain ⟨plan, hplan, hall, hrendered⟩ := render_fetch_linksKeys build_garage
    (Store.reachable_ofFixture ofFixture_garage) hkeys ⟨Links.defaultBase⟩ find?_car_garage
    (by decide : (1 : Int) ≤ 1) (by decide : (1 : Int) ≤ (3 : Nat))
  obtain ⟨rows, records, hrows, hrecords, hrelated⟩ := hrendered ⟨none, [], 0, none, none⟩
  obtain rfl := Except.ok.inj (hall.symm.trans hrows)
  exact ⟨_, plan, _, records, find?_car_garage, hplan, hall, rfl, hrecords, hrelated⟩

/-- A licence whose key is replaced loses its link: with the person embedded in the licence, the
envelope of the licence has no link, although its key has one. -/
theorem render_not_linksKeys_garage :
    Graph.build garageDefinitions = .ok garageGraph ∧ garageStore.Reachable ∧
      garageStore.HoldsSimpleKeys ∧
      ∃ (root licence : garageGraph.Id) (plan : Plan garageGraph) (record : Record) (e : Envelope),
        garageGraph.find? "Car" = some root ∧ garageGraph.find? "Licence" = some licence ∧
        garageGraph.plan root 2 3 = .ok plan ∧
        garageStore.fetch "Car" ⟨none, [], 0, none, some plan⟩ = .ok [record] ∧
        garageStore.findByKey? licence (.int 1) = some [("holder", .int 1)] ∧
        Links.detail? ⟨Links.defaultBase⟩ (garageGraph.schema licence) (.int 1) =
          some "/api/Licence/detail?query=holder.eq.1" ∧
        (plan.render ⟨Links.defaultBase⟩ root plan.maxDepth (.object record)).get? "licence" =
          some e.toJson ∧ e.isExpanded ∧ e.link = none := by
  have hkeys : garageStore.HoldsSimpleKeys := ⟨by decide, by decide⟩
  have hlicence : garageGraph.find? "Licence" = some ⟨1, by decide⟩ := by decide +kernel
  refine ⟨build_garage, Store.reachable_ofFixture ofFixture_garage, hkeys, ⟨2, by decide⟩,
    ⟨1, by decide⟩, _,
    [("id", .int 7), ("licence", .object [("holder", .object [("id", .int 1)])])],
    ⟨some (.object [("holder", .object [("link", .string "/api/Person/detail?query=id.eq.1"),
      ("self", .object [("id", .int 1)])])]), none⟩, find?_car_garage, hlicence,
    Graph.plan_eq_ok_iff.2 ⟨by decide, rfl⟩, ?_, rfl, by decide, ?_, rfl, rfl⟩
  · decide +kernel
  · rfl

end Retrieval
