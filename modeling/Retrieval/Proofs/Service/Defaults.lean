/-
# What requests leave to the configuration

A request that gives no limit and no depth gets those of the configuration.  The range of a limit is
checked where a request gives it, and the configuration only sees to it that a page holds something;
the least depth is checked where a request is planned, and the configuration only sees to the greatest.
So a configuration may be accepted whose own limit or depth no request could ask for.
-/
import Retrieval.Proofs.Parameters
import Retrieval.Proofs.Service.Pages
import Retrieval.Proofs.Store.Selection

namespace Retrieval

namespace Service

variable {g : Graph} {s : Service g} {entity : String} {p : Parameters} {page : Page}

/-- A page holds no more results than its limit allows. -/
lemma length_results_le (h : s.listed entity p = .ok page) : page.results.length ≤ p.limit := by
  obtain ⟨root, plan, hroot, hplan⟩ := exists_plan_of_listed h
  rw [listed_of_plan hroot hplan] at h
  obtain ⟨predicate, -, h⟩ := bind_eq_ok_iff.1 h
  obtain ⟨order, -, h⟩ := bind_eq_ok_iff.1 h
  cases h
  rw [pageOf, List.length_map]
  exact List.length_take_le _ _

end Service

/-! ### Limits -/

/-- **A page may exceed the greatest limit only by the configuration.**  For every accepted
configuration and every request that its parameters are read from, the limit is at least one, and it is
at most the greatest one that a request can give if and only if the request gives one, or else the page
size of the configuration is at most that.  Whatever a service was asked before and over whatever
store, a page holds no more results than the limit, and so in these cases no more than the greatest. -/
theorem limit_le_maxLimit_iff {text : String} {c : Configuration}
    {entries : List (String × String)} {p : Parameters} (hc : Configuration.ofText text = .ok c)
    (hp : Parameters.ofEntries c entries = .ok p) :
    1 ≤ p.limit ∧
    (p.limit ≤ Parameters.maxLimit ↔
      "limit" ∈ entries.map Prod.fst ∨ c.pageSize ≤ Parameters.maxLimit) ∧
    ∀ {g : Graph} (store : Store g) (before : List Service.Call) (entity : String) (page : Page),
      (((Service.of store c).after before).list entity p).result = .ok page →
        page.results.length ≤ p.limit ∧
        ("limit" ∈ entries.map Prod.fst ∨ c.pageSize ≤ Parameters.maxLimit →
          page.results.length ≤ Parameters.maxLimit) := by
  obtain ⟨hsize, -, -⟩ :=
    Configuration.fault?_eq_none_iff.1 (Configuration.fault?_eq_none_of_ofText hc)
  have hlimit := Parameters.limit_of_setAll hp
  have hbounds : 1 ≤ p.limit ∧ (p.limit ≤ Parameters.maxLimit ↔
      "limit" ∈ entries.map Prod.fst ∨ c.pageSize ≤ Parameters.maxLimit) := by
    split at hlimit
    · next hgiven => exact ⟨hlimit.1, by simp [hgiven, hlimit.2]⟩
    · next hnone =>
      have hdefault : p.limit = c.pageSize := hlimit
      rw [hdefault]
      exact ⟨Nat.pos_of_ne_zero hsize, by simp [hnone]⟩
  refine ⟨hbounds.1, hbounds.2, fun store before entity page hpage => ?_⟩
  obtain ⟨cache, hcache, hafter⟩ := Service.after_eq (Service.sound_of store c) before
  rw [hafter, Service.result_list hcache] at hpage
  have hlength := Service.length_results_le hpage
  exact ⟨hlength, fun hcases => hlength.trans (hbounds.2.2 hcases)⟩

/-- A configuration with larger pages than a request can ask for. -/
def widePages : Configuration := { Configuration.default with pageSize := 1001 }

lemma ofText_widePages : Configuration.ofText "\x7b\"page_size\": 1001\x7d" = .ok widePages := by
  decide +kernel

theorem limit_le_maxLimit_iff_given :
    ∃ p, Configuration.ofText "\x7b\"page_size\": 1001\x7d" = .ok widePages ∧
      Parameters.ofEntries widePages [("offset", "3"), ("limit", " 1000")] = .ok p ∧
      p.limit ≤ Parameters.maxLimit := by
  have hp : Parameters.ofEntries widePages [("offset", "3"), ("limit", " 1000")] =
      .ok ⟨none, none, 1000, 3, false, 1⟩ := by decide +kernel
  exact ⟨_, ofText_widePages, hp, (limit_le_maxLimit_iff ofText_widePages hp).2.1.2 (.inl (by simp))⟩

/-- A store of more records than the greatest limit. -/
def manyItemStore : Store itemGraph :=
  ⟨#v[(List.range 1001).map fun k : Nat => [("id", .int k)]]⟩

/-- Where a configuration has larger pages than a request can ask for, a page holds more results than
the greatest limit. -/
theorem limit_above_maxLimit :
    ∃ p page, Configuration.ofText "\x7b\"page_size\": 1001\x7d" = .ok widePages ∧
      Parameters.ofEntries widePages [] = .ok p ∧ Parameters.maxLimit < p.limit ∧
      ((Service.of manyItemStore widePages).list "Item" p).result = .ok page ∧
      Parameters.maxLimit < page.results.length := by
  obtain ⟨plan, hplan⟩ : ∃ plan, itemGraph.plan ⟨0, by decide⟩ 1 3 = .ok plan :=
    ⟨_, Graph.plan_eq_ok_iff.2 ⟨by decide, rfl⟩⟩
  refine ⟨Parameters.defaults widePages,
    (Service.of manyItemStore widePages).pageOf ⟨0, by decide⟩ plan none [] 0 1001,
    ofText_widePages, rfl, by decide, ?_, ?_⟩
  · rw [Service.result_list (Service.sound_of _ _)]
    exact Service.listed_of_compiled find?_item hplan rfl rfl
  · have hrows : ∀ rows, (⟨#v[rows]⟩ : Store itemGraph).rows ⟨0, by decide⟩ = rows := fun _ => rfl
    rw [Service.pageOf, Store.ordered_nil, Store.matching_none, List.drop_zero, List.length_map,
      List.length_take, Service.of, manyItemStore, hrows, List.length_map, List.length_range]
    decide

/-! ### Depths -/

namespace Service

variable {g : Graph} {s : Service g} {entity : String} {root : g.Id} {p : Parameters}

/-- Both the page and the number of a request are answered. -/
def Serves (s : Service g) (entity : String) (p : Parameters) : Prop :=
  (∃ page, (s.list entity p).result = .ok page) ∧ ∃ n, (s.size entity p).result = .ok n

/-- Both the page and the number of a request are refused with this error. -/
def Refuses (s : Service g) (entity : String) (p : Parameters) (e : Error) : Prop :=
  (s.list entity p).result = .error e ∧ (s.size entity p).result = .error e

/-- A request without a filter and an order is served once it is planned. -/
lemma serves_of_plan (hs : s.cache.Sound g) (hroot : g.find? entity = some root) {plan : Plan g}
    (hplan : g.plan root p.maxLevel s.configuration.maxLevelCeiling = .ok plan)
    (hquery : p.query = none) (horder : p.order = none) : s.Serves entity p := by
  have hpredicate : predicateFor g entity p = .ok none := by rw [predicateFor, hquery]
  have hkeys : orderFor g entity p = .ok [] := by rw [orderFor, horder]
  constructor
  · rw [result_list hs]
    exact ⟨_, listed_of_compiled hroot hplan hpredicate hkeys⟩
  · rw [result_size hs]
    exact ⟨_, counted_of_compiled hroot hplan hpredicate hkeys⟩

/-- A request that cannot be planned is refused for this reason. -/
lemma refuses_of_planFor (hs : s.cache.Sound g) {e : PlanError}
    (h : g.planFor entity p.maxLevel s.configuration.maxLevelCeiling = .error e) :
    s.Refuses entity p (.plan e) := by
  have hprepared : s.prepared entity p = .error (.plan e) := by
    rw [prepared, h]
    rfl
  rw [Refuses, result_list hs, result_size hs, listed, counted, hprepared]
  exact ⟨rfl, rfl⟩

end Service

/-- **A configuration serves the requests that give nothing, unless its own depth is zero.**  For every
accepted configuration, the parameters of a request that gives none are the defaults.  With these a
plan is made for a schema of a graph if and only if the default depth is not zero: of the range that a
plan is made for, the configuration has only the greatest depth checked.  Over whatever store and
whatever a service was asked before, a page and a number are then answered for every schema of the
graph.  With a default depth of zero both are refused, since the depth is out of range; and a name
that is not that of a schema is refused as such. -/
theorem default_requests_planned_iff {text : String} {c : Configuration}
    (hc : Configuration.ofText text = .ok c) :
    Parameters.ofEntries c [] = .ok (Parameters.defaults c) ∧
    (∀ (g : Graph) (root : g.Id),
      (∃ plan, g.plan root (Parameters.defaults c).maxLevel c.maxLevelCeiling = .ok plan) ↔
        c.defaultMaxLevel ≠ 0) ∧
    ∀ {g : Graph} (store : Store g) (before : List Service.Call) (entity : String),
      (∀ root, g.find? entity = some root →
        if c.defaultMaxLevel = 0 then
          ((Service.of store c).after before).Refuses entity (Parameters.defaults c)
            (.plan (.depthOutOfRange 0 c.maxLevelCeiling))
        else ((Service.of store c).after before).Serves entity (Parameters.defaults c)) ∧
      (g.find? entity = none →
        ((Service.of store c).after before).Refuses entity (Parameters.defaults c)
          (.plan (.unknownSchema entity))) := by
  obtain ⟨-, hceiling, -⟩ :=
    Configuration.fault?_eq_none_iff.1 (Configuration.fault?_eq_none_of_ofText hc)
  have hplanned : ∀ (g : Graph) (root : g.Id),
      (∃ plan, g.plan root (Parameters.defaults c).maxLevel c.maxLevelCeiling = .ok plan) ↔
        c.defaultMaxLevel ≠ 0 := by
    intro g root
    simp only [Graph.plan_eq_ok_iff, exists_and_left, exists_eq, and_true, Parameters.defaults]
    omega
  refine ⟨rfl, hplanned, fun {g} store before entity => ?_⟩
  obtain ⟨cache, hcache, hafter⟩ := Service.after_eq (Service.sound_of store c) before
  rw [hafter]
  constructor
  · intro root hroot
    split
    · next hzero =>
      refine Service.refuses_of_planFor hcache ?_
      have hlevel : (Parameters.defaults c).maxLevel = 0 := congrArg Int.ofNat hzero
      rw [hlevel, Graph.planFor, hroot]
      exact if_neg fun hrange => absurd hrange.1 (by decide)
    · next hpositive =>
      obtain ⟨plan, hplan⟩ := (hplanned g root).2 hpositive
      exact Service.serves_of_plan hcache hroot hplan rfl rfl
  · intro hnone
    refine Service.refuses_of_planFor hcache ?_
    rw [Graph.planFor, hnone]

theorem default_requests_planned_iff_items :
    Configuration.ofText "\x7b\x7d" = .ok .default ∧
      ((Service.of itemStore .default).after [.size "Item" (Parameters.defaults .default)]).Serves
        "Item" (Parameters.defaults .default) := by
  have hc : Configuration.ofText "\x7b\x7d" = .ok .default := by decide +kernel
  exact ⟨hc, ((default_requests_planned_iff hc).2.2 itemStore _ "Item").1 _ find?_item⟩

/-- A default depth of zero is accepted, and no request can be planned with it. -/
theorem default_requests_refused :
    ∃ c, Configuration.ofText "\x7b\"default_max_level\": 0\x7d" = .ok c ∧
      Parameters.ofEntries c [] = .ok (Parameters.defaults c) ∧
      (Service.of itemStore c).Refuses "Item" (Parameters.defaults c)
        (.plan (.depthOutOfRange 0 3)) := by
  have hc : Configuration.ofText "\x7b\"default_max_level\": 0\x7d" =
      .ok { Configuration.default with defaultMaxLevel := 0 } := by decide +kernel
  refine ⟨_, hc, rfl, Service.refuses_of_planFor (Service.sound_of _ _) ?_⟩
  rw [Graph.planFor, find?_item]
  rfl

end Retrieval
