/-
# Pages of a service

A page holds the selected records from its offset on, as many as its limit allows, each of them as a
response shows it.  The pages that follow each other tell of every selected record once.
-/
import Retrieval.Proofs.Plan
import Retrieval.Proofs.Service.Answers
import Retrieval.Proofs.Store.Page
import Retrieval.Proofs.Store.Paths

namespace Retrieval

lemma mapError_eq_ok_iff {ε ε' α : Type} {f : ε → ε'} {x : Except ε α} {a : α} :
    x.mapError f = .ok a ↔ x = .ok a := by
  cases x <;> simp [Except.mapError]

namespace Service

variable {g : Graph} {s : Service g} {i : g.Id} {plan : Plan g} {p : Parameters} {entity : String}

/-- A stored record as a response shows it. -/
def shown (s : Service g) (i : g.Id) (plan : Plan g) (row : Record) : Json :=
  plan.render s.links i plan.maxDepth (.object (s.store.embed i row plan.relations))

lemma render_embed (hplan : g.plan i p.maxLevel s.configuration.maxLevelCeiling = .ok plan)
    (predicate : Option Predicate) (order : List OrderKey) (row : Record) :
    (⟨plan, predicate, order⟩ : Prepared g).render s.links (s.store.embed i row plan.relations) =
      s.shown i plan row := by
  have hroot : plan.root = i := by rw [(Graph.plan_eq_ok_iff.1 hplan).2]
  rw [Prepared.render, hroot, shown]

/-- The page of the selected records from an offset on, as a response shows them. -/
def pageOf (s : Service g) (i : g.Id) (plan : Plan g) (predicate : Option Predicate)
    (order : List OrderKey) (offset limit : Nat) : Page :=
  ⟨(s.store.matching i predicate).length, offset, limit,
    (((s.store.ordered i ⟨predicate, order, 0, none, none⟩).drop offset).take limit).map
      (s.shown i plan)⟩

section Planned

variable (hi : g.find? entity = some i)
  (hplan : g.plan i p.maxLevel s.configuration.maxLevelCeiling = .ok plan)
include hi hplan

lemma prepared_of_plan : s.prepared entity p = (do
    let predicate ← predicateFor g entity p
    let order ← orderFor g entity p
    .ok ⟨plan, predicate, order⟩) := by
  rw [prepared, Graph.planFor, hi]
  simp only [hplan]
  rfl

/-- Once the plan is made, the page depends on what the filter and the order are compiled to. -/
lemma listed_of_plan : s.listed entity p = (do
    let predicate ← predicateFor g entity p
    let order ← orderFor g entity p
    .ok (s.pageOf i plan predicate order p.offset p.limit)) := by
  rw [listed, prepared_of_plan hi hplan]
  cases predicateFor g entity p with
  | error e => rfl
  | ok predicate =>
    cases orderFor g entity p with
    | error e => rfl
    | ok order =>
      simp only [bind, Except.bind, Prepared.selection, Store.count, Store.schemaNamed, hi,
        s.store.fetch_eq _ hi, Except.mapError, pageOf]
      rw [Store.page_plan s.store ⟨predicate, order, p.offset, some p.limit, none⟩, List.map_map]
      simp only [Function.comp_def, render_embed hplan]
      rfl

lemma counted_of_plan : s.counted entity p = (do
    let predicate ← predicateFor g entity p
    let _ ← orderFor g entity p
    .ok (s.store.matching i predicate).length) := by
  rw [counted, prepared_of_plan hi hplan]
  cases predicateFor g entity p with
  | error e => rfl
  | ok predicate =>
    cases orderFor g entity p with
    | error e => rfl
    | ok order =>
      simp only [bind, Except.bind, Prepared.selection, Store.count, Store.schemaNamed, hi,
        Except.mapError]

variable {predicate : Option Predicate} {order : List OrderKey}
  (hpredicate : predicateFor g entity p = .ok predicate)
  (horder : orderFor g entity p = .ok order)
include hpredicate horder

lemma listed_of_compiled :
    s.listed entity p = .ok (s.pageOf i plan predicate order p.offset p.limit) := by
  rw [listed_of_plan hi hplan, hpredicate, horder]
  rfl

lemma counted_of_compiled :
    s.counted entity p = .ok (s.store.matching i predicate).length := by
  rw [counted_of_plan hi hplan, hpredicate, horder]
  rfl

/-- The only record is taken from the selected ones, if there is a filter. -/
lemma retrieved_of_compiled :
    s.retrieved entity p =
      if predicate.all Predicate.isAlways then .error (.store (.noFilterProvided entity))
      else ((Store.only entity (s.store.ordered i ⟨predicate, order, 0, none, none⟩)).mapError
        Error.store).map (s.shown i plan) := by
  have hfound : s.store.fetch entity ⟨predicate, order, 0, none, some plan⟩ =
      .ok ((s.store.ordered i ⟨predicate, order, 0, none, none⟩).map
        (s.store.embed i · plan.relations)) := s.store.fetch_eq _ hi
  rw [retrieved, prepared_of_plan hi hplan, hpredicate, horder]
  simp only [bind, Except.bind, Prepared.selection, hfound, Store.requireFilter_eq]
  cases predicate.all Predicate.isAlways with
  | true => rfl
  | false =>
    simp only [Bool.false_eq_true, if_false, Except.mapError, Store.only_map]
    cases Store.only entity (s.store.ordered i ⟨predicate, order, 0, none, none⟩) with
    | error e => rfl
    | ok row => simp only [Except.map, render_embed hplan]

end Planned

/-- A page is there only if the request could be planned. -/
lemma exists_plan_of_listed {page : Page} (h : s.listed entity p = .ok page) :
    ∃ root plan, g.find? entity = some root ∧
      g.plan root p.maxLevel s.configuration.maxLevelCeiling = .ok plan := by
  obtain ⟨prepared, hprepared, -⟩ := bind_eq_ok_iff.1 h
  obtain ⟨plan, hplan, -⟩ := bind_eq_ok_iff.1 hprepared
  obtain ⟨hroot, hplan⟩ := Graph.planFor_eq_ok_iff.1 (mapError_eq_ok_iff.1 hplan)
  exact ⟨plan.root, plan, hroot, hplan⟩

/-- What a page holds are stored records with what the plan of the request reaches. -/
lemma exists_shown_of_listed {page : Page} (h : s.listed entity p = .ok page) :
    ∃ root plan, g.find? entity = some root ∧
      g.plan root p.maxLevel s.configuration.maxLevelCeiling = .ok plan ∧
      ∀ output ∈ page.results, ∃ row ∈ s.store.rows root, output = s.shown root plan row := by
  obtain ⟨root, plan, hroot, hplan⟩ := exists_plan_of_listed h
  rw [listed_of_plan hroot hplan] at h
  obtain ⟨predicate, -, h⟩ := bind_eq_ok_iff.1 h
  obtain ⟨order, -, h⟩ := bind_eq_ok_iff.1 h
  cases h
  refine ⟨root, plan, hroot, hplan, fun output houtput => ?_⟩
  obtain ⟨row, hrow, rfl⟩ := List.mem_map.1 houtput
  exact ⟨row, s.store.stored_of_mem_ordered _ (List.mem_of_mem_drop (List.mem_of_mem_take hrow)),
    rfl⟩

end Service

/-- **Pages lose and repeat nothing.**  Take any store that is filled over a graph, any service over
it, and a request for which a plan is made and whose filter and order are accepted.  The records that
one read without an offset and a limit finds are the stored ones that the filter selects, each of
them once.  Whatever the service was asked before, it counts as many; every page of it tells this
number and holds as many results as are left, up to its size; and the pages that follow each other
hold, put together, those records in that order, each as a response shows it. -/
theorem pages_partition {g : Graph} {store : Store g} (hstore : store.Reachable)
    (c : Configuration) {entity : String} {p : Parameters} {plan : Plan g}
    {predicate : Option Predicate} {order : List OrderKey}
    (hplan : g.planFor entity p.maxLevel c.maxLevelCeiling = .ok plan)
    (hpredicate : Service.predicateFor g entity p = .ok predicate)
    (horder : Service.orderFor g entity p = .ok order) :
    ∃ rows, store.fetch entity ⟨predicate, order, 0, none, none⟩ = .ok rows ∧
      rows.Nodup ∧
      (∀ row, row ∈ rows ↔
        row ∈ store.rows plan.root ∧ store.selects plan.root predicate row) ∧
      (∀ before offset limit distinct,
        (((Service.of store c).after before).size entity
          { p with offset := offset, limit := limit, distinct := distinct }).result =
            .ok rows.length) ∧
      ∀ limit, 1 ≤ limit → ∃ page : Nat → Page,
        (∀ before offset distinct,
          (((Service.of store c).after before).list entity
            { p with offset := offset, limit := limit, distinct := distinct }).result =
              .ok (page offset)) ∧
        (∀ offset, (page offset).count = rows.length ∧
          (page offset).results.length = min limit (rows.length - offset)) ∧
        (List.range (rows.length / limit + 1)).flatMap (fun k => (page (k * limit)).results) =
          rows.map ((Service.of store c).shown plan.root plan) := by
  obtain ⟨hroot, hmade⟩ := Graph.planFor_eq_ok_iff.1 hplan
  set q : Selection g := ⟨predicate, order, 0, none, none⟩
  have hperm := store.ordered_perm (i := plan.root) q
  refine ⟨store.ordered plan.root q, store.fetch_unpaged hroot predicate order,
    hperm.nodup_iff.2 ((hstore.keyed.nodup_rows plan.root).filter _),
    fun row => store.mem_ordered_iff q, ?_, ?_⟩
  · intro before offset limit distinct
    obtain ⟨cache, hcache, hafter⟩ := Service.after_eq (Service.sound_of store c) before
    rw [hafter, Service.result_size hcache, hperm.length_eq]
    exact Service.counted_of_compiled hroot hmade hpredicate horder
  · intro limit hlimit
    refine ⟨fun offset => (Service.of store c).pageOf plan.root plan predicate order offset limit,
      ?_, ?_, ?_⟩
    · intro before offset distinct
      obtain ⟨cache, hcache, hafter⟩ := Service.after_eq (Service.sound_of store c) before
      rw [hafter, Service.result_list hcache]
      exact Service.listed_of_compiled hroot hmade hpredicate horder
    · intro offset
      refine ⟨hperm.length_eq.symm, ?_⟩
      simp only [Service.pageOf, List.length_map, List.length_take, List.length_drop]
      rfl
    · simp only [Service.pageOf, ← List.map_flatMap]
      exact congrArg _ (flatMap_pages _ hlimit)

/-- A request for the persons but one, in the order of their mentors. -/
def shelterParameters : Parameters :=
  { Parameters.defaults .default with
    query := some "id.neq.2", order := some "mentor.desc", maxLevel := 2 }

theorem pages_partition_shelter :
    ∃ (plan : Plan shelterGraph) (rows : List Record) (page : Nat → Page),
      shelterGraph.planFor "Person" 2 3 = .ok plan ∧ rows.length = 2 ∧
      (∀ before offset distinct,
        (((Service.of shelterStore .default).after before).list "Person"
          { shelterParameters with offset := offset, limit := 1, distinct := distinct }).result =
            .ok (page offset)) ∧
      (page 0).results ++ (page 1).results ++ (page 2).results =
        rows.map ((Service.of shelterStore .default).shown plan.root plan) := by
  obtain ⟨plan, hplan⟩ : ∃ plan, shelterGraph.planFor "Person" 2 3 = .ok plan := by
    rw [Graph.planFor, find?_person_shelter]
    exact ⟨_, if_pos (by decide)⟩
  have hpredicate : Service.predicateFor shelterGraph "Person" shelterParameters =
      .ok (some (.compare ⟨["id"], .equal, .int 2, true⟩)) := by decide +kernel
  have horder : Service.orderFor shelterGraph "Person" shelterParameters =
      .ok [⟨["mentor"], true⟩] := by decide +kernel
  obtain ⟨rows, hrows, -, -, -, hpages⟩ :=
    pages_partition (Store.reachable_ofFixture ofFixture_shelter) .default hplan hpredicate horder
  have hlength : rows.length = 2 := by
    rw [shelterStore.fetch_unpaged find?_person_shelter] at hrows
    rw [← Except.ok.inj hrows, (shelterStore.ordered_perm _).length_eq]
    rfl
  obtain ⟨page, hlist, -, hresults⟩ := hpages 1 (by decide)
  refine ⟨plan, rows, page, hplan, hlength, hlist, ?_⟩
  rw [← hresults, hlength]
  simp [List.range_succ]

end Retrieval
