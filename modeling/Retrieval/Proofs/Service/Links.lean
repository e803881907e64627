/-
# Links can be followed

The query of a link is given back to the service as the filter of another request.  Under the link
of a to-one relation that request finds the record of the key, or tells that there is none; under
the link of a to-many relation it finds the records that refer to the owner.  The names of
attributes stand in links as they are, so none may be changed when the query is decoded.
-/
import Retrieval.Proofs.Render.Links
import Retrieval.Proofs.Service.Pages
import Retrieval.Proofs.Store.Paths

namespace Retrieval

namespace Service

variable {g : Graph} {s : Service g} {i : g.Id} {plan : Plan g} {p : Parameters}

/-- A stored record as a response shows it is rendered with the plan of its root. -/
lemma renderedAt_shown (hplan : g.plan i p.maxLevel s.configuration.maxLevelCeiling = .ok plan)
    {row : Record} (hrow : row ∈ s.store.rows i) :
    RenderedAt s.store s.links plan [] i row (s.shown i plan row) (some plan.relations)
      plan.maxDepth :=
  renderedAt_of_plan s.links hplan hrow

/-! ### Asking for a key -/

lemma withQuery_equalityQuery {attr : String} (h : PlainName attr) (n : Int) :
    p.withQuery (equalityQuery attr n) = { p with query := some (equalityQuery attr n) } := by
  have hne : equalityQuery attr n ≠ "" := by
    intro hempty
    have hblank := isBlankText_equalityQuery attr n
    rw [hempty] at hblank
    cases hblank
  have htrimmed : Text.trimmed (equalityQuery attr n) = equalityQuery attr n := by
    rw [Text.trimmed, trim_equalityQuery h, String.ofList_toList]
  rw [Parameters.withQuery, Parameters.nonBlank?, htrimmed]
  simp [hne]

section Asking

variable (hg : g.Linkable) (hi : g.find? (g.schema i).name = some i) {attr : String}
  (hattr : g.takesKey i attr) {n : Int} (hn : InInt64 n) (horder : p.order = none)
  (hplan : g.plan i p.maxLevel s.configuration.maxLevelCeiling = .ok plan)
include hg hi hattr hn horder hplan

omit hg hi hattr hn horder in
lemma plan_withQuery (query : String) :
    g.plan i (p.withQuery query).maxLevel s.configuration.maxLevelCeiling = .ok plan := by
  rw [Parameters.withQuery]
  exact hplan

omit hg hi hattr hn hplan in
lemma orderFor_withQuery (entity query : String) :
    orderFor g entity (p.withQuery query) = .ok [] := by
  rw [orderFor, Parameters.withQuery, horder]

omit horder hplan in
/-- The query for an integer asks for the records whose attribute holds it. -/
lemma predicateFor_equalityQuery :
    predicateFor g (g.schema i).name (p.withQuery (equalityQuery attr n)) =
      .ok (some (.compare ⟨[attr], .equal, .int n, false⟩)) := by
  have hfilter := Graph.compileFilter_equalityQuery hg hi hattr hn
  rw [withQuery_equalityQuery (hg.plainName hattr), predicateFor]
  simp only [hfilter]
  rfl

lemma listed_equalityQuery :
    s.listed (g.schema i).name (p.withQuery (equalityQuery attr n)) =
      .ok ⟨((s.store.rows i).filter (Store.hasMember · attr (.int n))).length, p.offset, p.limit,
        ((((s.store.rows i).filter (Store.hasMember · attr (.int n))).drop p.offset).take
          p.limit).map (s.shown i plan)⟩ := by
  rw [listed_of_compiled hi (plan_withQuery hplan _) (predicateFor_equalityQuery hg hi hattr hn)
    (orderFor_withQuery horder _ _), pageOf, Store.ordered_nil, Store.matching_equal hattr,
    Parameters.withQuery]

lemma counted_equalityQuery :
    s.counted (g.schema i).name (p.withQuery (equalityQuery attr n)) =
      .ok ((s.store.rows i).filter (Store.hasMember · attr (.int n))).length := by
  rw [counted_of_compiled hi (plan_withQuery hplan _) (predicateFor_equalityQuery hg hi hattr hn)
    (orderFor_withQuery horder _ _), Store.matching_equal hattr]

lemma retrieved_equalityQuery :
    s.retrieved (g.schema i).name (p.withQuery (equalityQuery attr n)) =
      ((Store.only (g.schema i).name
        ((s.store.rows i).filter (Store.hasMember · attr (.int n)))).mapError Error.store).map
          (s.shown i plan) := by
  rw [retrieved_of_compiled hi (plan_withQuery hplan _) (predicateFor_equalityQuery hg hi hattr hn)
    (orderFor_withQuery horder _ _), Store.ordered_nil, Store.matching_equal hattr]
  rfl

lemma retrieved_equalityQuery_one {row : Record}
    (h : (s.store.rows i).filter (Store.hasMember · attr (.int n)) = [row]) :
    s.retrieved (g.schema i).name (p.withQuery (equalityQuery attr n)) =
      .ok (s.shown i plan row) := by
  rw [retrieved_equalityQuery hg hi hattr hn horder hplan, h]
  rfl

lemma retrieved_equalityQuery_none
    (h : (s.store.rows i).filter (Store.hasMember · attr (.int n)) = []) :
    s.retrieved (g.schema i).name (p.withQuery (equalityQuery attr n)) =
      .error (.store (.recordNotFound (g.schema i).name)) := by
  rw [retrieved_equalityQuery hg hi hattr hn horder hplan, h]
  rfl

end Asking

/-! ### Following links -/

/-- Whether a record has an integer as its key. -/
def HasKey (i : g.Id) (n : Int) (row : Record) : Prop :=
  Json.member? (g.schema i).primaryKey row = some (.int n)

/-- Whether a request for the only record of a query, at any depth, shows the one record that has a
key, and tells that there is none if no record has it. -/
def Retrieves (s : Service g) (i : g.Id) (query : String) (n : Int) : Prop :=
  ∀ (p : Parameters) (plan : Plan g), p.order = none →
    g.plan i p.maxLevel s.configuration.maxLevelCeiling = .ok plan →
    (∃ row ∈ s.store.rows i, HasKey i n row ∧
      (∀ other ∈ s.store.rows i, HasKey i n other → other = row) ∧
      (s.retrieve (g.schema i).name (p.withQuery query)).result = .ok (s.shown i plan row)) ∨
    ((∀ row ∈ s.store.rows i, ¬HasKey i n row) ∧
      (s.retrieve (g.schema i).name (p.withQuery query)).result =
        .error (.store (.recordNotFound (g.schema i).name)))

/-- Whether requests for the page and for the number of a query, at any depth, are answered for
certain records in order. -/
def Lists (s : Service g) (i : g.Id) (query : String) (rows : List Record) : Prop :=
  ∀ (p : Parameters) (plan : Plan g), p.order = none →
    g.plan i p.maxLevel s.configuration.maxLevelCeiling = .ok plan →
    (s.list (g.schema i).name (p.withQuery query)).result =
      .ok ⟨rows.length, p.offset, p.limit,
        ((rows.drop p.offset).take p.limit).map (s.shown i plan)⟩ ∧
    (s.size (g.schema i).name (p.withQuery query)).result = .ok rows.length

lemma retrieves_equalityQuery (hcache : s.cache.Sound g) (hg : g.Linkable)
    (hi : g.find? (g.schema i).name = some i) (hkeyed : s.store.Keyed)
    (hs : s.store.HoldsIntegers) {n : Int} (hn : InInt64 n) :
    s.Retrieves i (equalityQuery (g.schema i).primaryKey n) n := by
  intro p plan horder hplan
  have hkey := Json.isKey_int hn
  have hfilter := hs.simple.filter_key hkeyed hkey i
  have hattr := hg.takesKey_primaryKey i
  have hmem : ∀ row ∈ s.store.rows i, HasKey i n row →
      row ∈ (s.store.findByKey? i (.int n)).toList := by
    intro row hrow hown
    rw [← hfilter]
    exact List.mem_filter.2 ⟨hrow, (hs.simple.hasMember_iff hrow hkey).2 hown⟩
  rw [result_retrieve hcache]
  cases hfound : s.store.findByKey? i (.int n) with
  | none =>
    rw [hfound] at hfilter hmem
    exact .inr ⟨fun row hrow hkey => List.not_mem_nil (hmem row hrow hkey),
      retrieved_equalityQuery_none hg hi hattr hn horder hplan hfilter⟩
  | some row =>
    rw [hfound] at hfilter hmem
    obtain ⟨hrow, hown⟩ := hs.simple.findByKey?_eq_some hkey hfound
    exact .inl ⟨row, hrow, hown,
      fun other hother hkey' => List.mem_singleton.1 (hmem other hother hkey'),
      retrieved_equalityQuery_one hg hi hattr hn horder hplan hfilter⟩

lemma lists_equalityQuery (hcache : s.cache.Sound g) (hg : g.Linkable)
    (hi : g.find? (g.schema i).name = some i) {attr : String} (hattr : g.takesKey i attr)
    {n : Int} (hn : InInt64 n) :
    s.Lists i (equalityQuery attr n)
      ((s.store.rows i).filter (Store.hasMember · attr (.int n))) := by
  intro p plan horder hplan
  constructor
  · rw [result_list hcache]
    exact listed_equalityQuery hg hi hattr hn horder hplan
  · rw [result_size hcache]
    exact counted_equalityQuery hg hi hattr hn horder hplan

end Service

/-- Whether the link of a to-one relation of a stored record is there, and whether it can be
followed. -/
structure Service.FollowsToOne {g : Graph} (s : Service g) (owner : Record) (name : String)
    (r : Relation g.size) (link? : Option String) : Prop where
  isSome_iff : link?.isSome ↔ ∃ n, Json.member? name owner = some (.int n)
  retrieves : ∀ link ∈ link?, ∀ n, Json.member? name owner = some (.int n) →
    ∃ query, s.links.LeadsTo (g.schema r.target) "detail" link query ∧ s.Retrieves r.target query n

/-- Whether the link of a to-many relation of a stored record is there, and whether it can be
followed. -/
structure Service.FollowsToMany {g : Graph} (s : Service g) (i : g.Id) (owner : Record)
    (r : Relation g.size) (link? : Option String) : Prop where
  isSome : s.store.referring i owner r ≠ [] → link?.isSome
  lists : ∀ link ∈ link?, ∃ query,
    s.links.LeadsTo (g.schema r.target) "list" link query ∧
      s.Lists r.target query (s.store.referring i owner r)

section Following

variable {g : Graph} {s : Service g} {i : g.Id} {owner : Record} {name : String}
  {r : Relation g.size} {link? : Option String}

lemma Graph.decode?_of_takesKey
    (hdecode : ∀ j, ∀ a ∈ (g.schema j).attributes, PercentEncoding.decode? a.name = some a.name)
    {attr : String} (h : g.takesKey i attr) : PercentEncoding.decode? attr = some attr := by
  obtain ⟨a, ha, rfl⟩ := exists_of_takesKey h
  exact hdecode i a ha

variable (hcache : s.cache.Sound g) (hg : g.Linkable)
  (hnames : ∀ j, g.find? (g.schema j).name = some j)
  (hdecode : ∀ j, ∀ a ∈ (g.schema j).attributes, PercentEncoding.decode? a.name = some a.name)
  (hs : s.store.HoldsIntegers) (howner : owner ∈ s.store.rows i)
  (hr : (name, r) ∈ (g.schema i).relations)
include hcache hg hnames hdecode hs howner hr

/-- The link of the key that a to-one relation holds can be followed. -/
lemma Service.followsToOne (hkeyed : s.store.Keyed) (hc : r.cardinality = .toOne)
    (hlink : link? = ((Json.member? name owner).filter (!·.isNull)).bind
      (s.links.detail? (g.schema r.target))) :
    s.FollowsToOne owner name r link? := by
  have hint : ∀ n, Json.member? name owner = some (.int n) →
      link? = s.links.detail? (g.schema r.target) (.int n) := by
    intro n hv
    rw [hlink, hv]
    rfl
  constructor
  · constructor
    · intro hsome
      rw [hlink, Option.isSome_iff_exists] at hsome
      obtain ⟨link, hbind⟩ := hsome
      obtain ⟨key, hkey, -⟩ := Option.bind_eq_some_iff.1 hbind
      obtain ⟨hv, hnull⟩ := Option.filter_eq_some_iff.1 hkey
      rcases hs.exists_reference howner hr hc hv with rfl | ⟨n, rfl, -⟩
      · cases hnull
      · exact ⟨n, hv⟩
    · rintro ⟨n, hv⟩
      rw [hint n hv, Links.detail?, Links.address?_int]
      rfl
  · intro link hmem n hv
    have hn : InInt64 n := by
      rcases hs.exists_reference howner hr hc hv with hnull | ⟨m, hm, hrange⟩
      · cases hnull
      · cases hm
        exact hrange
    rw [Option.mem_def, hint n hv] at hmem
    exact ⟨_, Links.leadsTo_of_address?
      (Graph.decode?_of_takesKey hdecode (hg.takesKey_primaryKey r.target)) hmem,
      retrieves_equalityQuery hcache hg (hnames r.target) hkeyed hs hn⟩

/-- The link of the owner's key that a to-many relation has can be followed. -/
lemma Service.followsToMany (hc : r.cardinality = .toMany) {hidden : Prop} [Decidable hidden]
    (hlink : link? = if hidden ∧ s.store.referring i owner r = [] then none
      else Render.listLink? s.links (g.schema r.target) name r
        (Json.member? (g.schema i).primaryKey owner)) :
    s.FollowsToMany i owner r link? := by
  obtain ⟨n, hkey, hn⟩ := hs.exists_key howner
  obtain ⟨remote, hremote, hattr⟩ : ∃ remote, r.remote = some remote ∧
      g.takesKey r.target remote := by
    simpa [Option.any_eq_true] using hg.remote i _ hr hc
  have hreferring : s.store.referring i owner r =
      (s.store.rows r.target).filter (Store.hasMember · remote (.int n)) := by
    rw [Store.referring, hkey, Option.map_some, Option.getD_some, Store.related, hremote]
    rfl
  have haddress : Render.listLink? s.links (g.schema r.target) name r
      (Json.member? (g.schema i).primaryKey owner) =
        s.links.address? (g.schema r.target) "list" remote (.int n) := by
    rw [Render.listLink?, hkey, Option.bind_some, hremote, Option.getD_some, Links.list?]
  rw [haddress] at hlink
  constructor
  · intro hne
    rw [hlink, if_neg (fun h => hne h.2), Links.address?_int]
    rfl
  · intro link hmem
    have hlink' : s.links.address? (g.schema r.target) "list" remote (.int n) = some link := by
      rw [hlink] at hmem
      split at hmem
      · cases hmem
      · exact hmem
    rw [hreferring]
    exact ⟨_, Links.leadsTo_of_address? (Graph.decode?_of_takesKey hdecode hattr) hlink',
      lists_equalityQuery hcache hg (hnames r.target) hattr hn⟩

end Following

/-- **Links can be followed.**  Take a graph that was built whose keys can be asked for in filters
and whose names are not changed by percent-decoding, any store that is filled over it with integers
for keys, and any service over the store, whatever it was asked before.  Every record in a response
to the request for a page shows a stored one, its owner.  The query of the link of a to-one
relation retrieves the record of the key that the owner holds, and the query of the link of a
to-many relation lists the records that refer to the owner, whatever else the service is asked. -/
theorem links_followed {definitions : List Schema.Definition} {g : Graph}
    (hbuild : Graph.build definitions = .ok g) (hg : g.Linkable)
    (hdecode : ∀ j, ∀ a ∈ (g.schema j).attributes, PercentEncoding.decode? a.name = some a.name)
    {store : Store g} (hstore : store.Reachable) (hs : store.HoldsIntegers) (c : Configuration)
    (before later : List Service.Call) {entity : String} {p : Parameters} {page : Page}
    (hpage : (((Service.of store c).after before).list entity p).result = .ok page) :
    ∃ root, g.find? entity = some root ∧
      ∀ output ∈ page.results, ∀ i v, Inside root output i v →
        ∃ owner ∈ store.rows i, Shows i owner v ∧
          ∀ name r, (name, r) ∈ (g.schema i).relations →
            match r.cardinality with
            | .toOne =>
              ((Service.of store c).after later).FollowsToOne owner name r (v.link? name)
            | .toMany =>
              ((Service.of store c).after later).FollowsToMany i owner r (v.link? name) := by
  have hdistinct := Graph.distinct_of_build hbuild
  have hnames := Graph.find?_name hbuild
  obtain ⟨cache, hcache, hbefore⟩ := Service.after_eq (Service.sound_of store c) before
  obtain ⟨cache', hcache', hlater⟩ := Service.after_eq (Service.sound_of store c) later
  rw [hbefore, Service.result_list hcache] at hpage
  rw [hlater]
  obtain ⟨root, plan, hroot, hplan, hshown⟩ := Service.exists_shown_of_listed hpage
  refine ⟨root, hroot, fun output houtput i v hinside => ?_⟩
  obtain ⟨row, hrow, rfl⟩ := hshown output houtput
  have hrendered := Service.renderedAt_shown hplan hrow
  obtain ⟨path, owner, howner⟩ := hinside.shown hs.flat.unnested hdistinct hrendered
  obtain ⟨nodes, depth, hv⟩ := howner.renderedAt hs.flat.unnested hdistinct hrendered
  refine ⟨owner, hv.stored, hv.shows (hdistinct i), fun name r hr => ?_⟩
  cases hc : r.cardinality with
  | toOne =>
    exact Service.followsToOne hcache' hg hnames hdecode hs hv.stored hr hstore.keyed hc
      (hv.link?_toOne hg.hasScalarKeys hs.simple hdistinct hr hc)
  | toMany =>
    exact Service.followsToMany hcache' hg hnames hdecode hs hv.stored hr hc
      (hv.link?_toMany hg.hasScalarKeys hs.simple hdistinct hr hc
        (hs.flat.member?_eq_none hv.stored hr hc))

/-- A service over the store of the shelter that was asked for the pets by name. -/
def shelterService : Service shelterGraph :=
  (Service.of shelterStore .default).after
    [.list "Pet" { Parameters.defaults .default with order := some "name.desc" }]

theorem links_followed_shelter :
    ∃ page, (shelterService.list "Person"
        { Parameters.defaults .default with maxLevel := 2 }).result = .ok page ∧
      page.results.length = 3 ∧
      ∃ root, shelterGraph.find? "Person" = some root ∧
        ∀ output ∈ page.results, ∀ i v, Inside root output i v →
          ∃ owner ∈ shelterStore.rows i, Shows i owner v ∧
            ∀ name r, (name, r) ∈ (shelterGraph.schema i).relations →
              match r.cardinality with
              | .toOne => shelterService.FollowsToOne owner name r (v.link? name)
              | .toMany => shelterService.FollowsToMany i owner r (v.link? name) := by
  have hlinkable : shelterGraph.Linkable := ⟨by decide, by decide, by decide, by decide⟩
  have hpercent : ∀ j, ∀ a ∈ (shelterGraph.schema j).attributes, '%' ∉ a.name.toList := by decide
  have hintegers : shelterStore.HoldsIntegers := ⟨by decide, by decide, by decide⟩
  obtain ⟨plan, hplan⟩ : ∃ plan, shelterGraph.plan ⟨0, by decide⟩ 2 3 = .ok plan :=
    ⟨_, Graph.plan_eq_ok_iff.2 ⟨by decide, rfl⟩⟩
  obtain ⟨cache, hcache, hafter⟩ := Service.after_eq (Service.sound_of shelterStore .default)
    [.list "Pet" { Parameters.defaults .default with order := some "name.desc" }]
  have hpage : (shelterService.list "Person"
      { Parameters.defaults .default with maxLevel := 2 }).result =
        .ok ((Service.of shelterStore .default).pageOf ⟨0, by decide⟩ plan none [] 0 20) := by
    rw [shelterService, hafter, Service.result_list hcache]
    exact Service.listed_of_compiled find?_person_shelter hplan rfl rfl
  refine ⟨_, hpage, ?_, links_followed build_shelter hlinkable
    (fun j a ha => PercentEncoding.decode?_of_notMem (hpercent j a ha))
    (Store.reachable_ofFixture ofFixture_shelter) hintegers _ _ _ hpage⟩
  simp only [Service.pageOf, Store.ordered_nil]
  rfl

/-- Badges whose key has a name that is decoded to the name of another attribute. -/
def badgeDefinitions : List Schema.Definition :=
  [Schema.Definition.ofName "Person" |>.scalar "id" .int |>.toOne "badge" "Badge" true,
   { (Schema.Definition.ofName "Badge" |>.scalar "k%31" .int |>.scalar "k1" .int) with
     primaryKey := "k%31" }]

/-- The graph of these definitions. -/
def badgeGraph : Graph :=
  ⟨2, #v[⟨"Person", none, "id", [⟨"id", .scalar .int⟩,
      ⟨"badge", .relation ⟨.toOne, true, Fin.last 1, none⟩⟩]⟩,
    ⟨"Badge", none, "k%31", [⟨"k%31", .scalar .int⟩, ⟨"k1", .scalar .int⟩]⟩]⟩

/-- Two badges of which each has the key of the other one as its other attribute. -/
def badgeFixture : Json :=
  .object [("Badge", .array [.object [("k%31", .int 5), ("k1", .int 7)],
      .object [("k%31", .int 7), ("k1", .int 5)]]),
    ("Person", .array [.object [("badge", .int 5), ("id", .int 1)]])]

/-- The store of this fixture. -/
def badgeStore : Store badgeGraph :=
  ⟨#v[[[("badge", .int 5), ("id", .int 1)]],
    [[("k%31", .int 5), ("k1", .int 7)], [("k%31", .int 7), ("k1", .int 5)]]]⟩

/-- A link cannot be followed if the name of the key holds an escape: the query of the link to the
badge 5 is decoded to another one, which finds the badge 7. -/
theorem links_not_followed_escape :
    Graph.build badgeDefinitions = .ok badgeGraph ∧ badgeGraph.Linkable ∧
      badgeStore.Reachable ∧ badgeStore.HoldsIntegers ∧
      ((Service.of badgeStore .default).list "Person" (.defaults .default)).result =
        .ok ⟨1, 0, 20, [.object [("badge", .object [
            ("link", .string "/api/Badge/detail?query=k%31.eq.5"),
            ("self", .object [("k%31", .int 5), ("k1", .int 7)])]), ("id", .int 1)]]⟩ ∧
      PercentEncoding.decode? "k%31.eq.5" = some "k1.eq.5" ∧
      ((Service.of badgeStore .default).retrieve "Badge"
        (Parameters.withQuery (.defaults .default) "k1.eq.5")).result =
          .ok (.object [("k%31", .int 7), ("k1", .int 5)]) ∧
      ¬(Service.of badgeStore .default).FollowsToOne [("badge", .int 5), ("id", .int 1)] "badge"
        ⟨.toOne, true, ⟨1, by decide⟩, none⟩ (some "/api/Badge/detail?query=k%31.eq.5") := by
  have hbuild : Graph.build badgeDefinitions = .ok badgeGraph := by decide +kernel
  have hstore : Store.ofFixture badgeGraph badgeFixture = .ok badgeStore := by decide +kernel
  have hlinkable : badgeGraph.Linkable := ⟨by decide, by decide, by decide, by decide⟩
  have hintegers : badgeStore.HoldsIntegers := ⟨by decide, by decide, by decide⟩
  have hpage : ((Service.of badgeStore .default).list "Person" (.defaults .default)).result =
      .ok ⟨1, 0, 20, [.object [("badge", .object [
          ("link", .string "/api/Badge/detail?query=k%31.eq.5"),
          ("self", .object [("k%31", .int 5), ("k1", .int 7)])]), ("id", .int 1)]]⟩ := by
    have hroot : badgeGraph.find? "Person" = some ⟨0, by decide⟩ := by decide +kernel
    rw [Service.result_list (Service.sound_of _ _), Service.listed_of_compiled hroot
      (Graph.plan_eq_ok_iff.2 ⟨by decide, rfl⟩) rfl rfl]
    simp only [Service.pageOf, Store.ordered_nil]
    decide +kernel
  have hdecoded : PercentEncoding.decode? "k%31.eq.5" = some "k1.eq.5" :=
    PercentEncoding.decode?_eq_some_iff.2 (by decide)
  obtain ⟨plan, hplan, hfive, hseven⟩ : ∃ plan, badgeGraph.plan ⟨1, by decide⟩ 1 3 = .ok plan ∧
      (Service.of badgeStore .default).shown ⟨1, by decide⟩ plan
        [("k%31", .int 5), ("k1", .int 7)] = .object [("k%31", .int 5), ("k1", .int 7)] ∧
      (Service.of badgeStore .default).shown ⟨1, by decide⟩ plan
        [("k%31", .int 7), ("k1", .int 5)] = .object [("k%31", .int 7), ("k1", .int 5)] :=
    ⟨_, Graph.plan_eq_ok_iff.2 ⟨by decide, rfl⟩, by decide +kernel, by decide +kernel⟩
  have hother : ((Service.of badgeStore .default).retrieve "Badge"
      (Parameters.withQuery (.defaults .default) "k1.eq.5")).result =
        .ok (.object [("k%31", .int 7), ("k1", .int 5)]) := by
    have hquery : "k1.eq.5" = equalityQuery "k1" 5 := by decide
    have hbadge : badgeGraph.find? (badgeGraph.schema ⟨1, by decide⟩).name =
        some ⟨1, by decide⟩ := by decide +kernel
    have hkey : badgeGraph.takesKey ⟨1, by decide⟩ "k1" := by decide
    have hrows : (badgeStore.rows ⟨1, by decide⟩).filter (Store.hasMember · "k1" (.int 5)) =
        [[("k%31", .int 7), ("k1", .int 5)]] := rfl
    rw [hquery, Service.result_retrieve (Service.sound_of _ _), ← hseven]
    exact Service.retrieved_equalityQuery_one hlinkable hbadge hkey ⟨by decide, by decide⟩ rfl
      hplan hrows
  refine ⟨hbuild, hlinkable, Store.reachable_ofFixture hstore, hintegers, hpage, hdecoded, hother,
    fun hfollows => ?_⟩
  have hleads : (Service.of badgeStore .default).links.LeadsTo (badgeGraph.schema ⟨1, by decide⟩)
      "detail" "/api/Badge/detail?query=k%31.eq.5" "k1.eq.5" := ⟨_, rfl, hdecoded⟩
  obtain ⟨query, hquery, hretrieves⟩ := hfollows.retrieves _ rfl 5 rfl
  obtain rfl := hquery.unique hleads
  have hbadges : badgeStore.rows ⟨1, by decide⟩ =
      [[("k%31", .int 5), ("k1", .int 7)], [("k%31", .int 7), ("k1", .int 5)]] := rfl
  rcases hretrieves (.defaults .default) plan rfl hplan with
    ⟨row, hrow, hkey, -, hresult⟩ | ⟨hnone, -⟩
  · rcases List.mem_pair.1 (hbadges ▸ hrow) with rfl | rfl
    · rw [hfive] at hresult
      cases hother.symm.trans hresult
    · cases hkey
  · exact hnone [("k%31", .int 5), ("k1", .int 7)] (hbadges ▸ List.mem_cons_self) rfl

end Retrieval
