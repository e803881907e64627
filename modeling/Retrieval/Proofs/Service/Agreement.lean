/-
# Pages, numbers and single records agree

A page of records, the number of the selected records and the only selected record are asked for by
different requests.  They share how a request is prepared, and each of them reads the store on its
own.  What they come to is nevertheless told by one number and, if it is one, by one record.
-/
import Retrieval.Proofs.Service.Pages

namespace Retrieval

namespace Service

variable {g : Graph} {s : Service g} {i : g.Id} {plan : Plan g} {p : Parameters} {entity : String}
  {e : Error}

/-! ### Requests that are not prepared -/

/-- Why a request is refused before the store is read: the first of its plan, its filter and its order
that is. -/
inductive Unprepared (g : Graph) (c : Configuration) (entity : String) (p : Parameters) :
    Error → Prop where
  | plan {e : PlanError} :
    g.planFor entity p.maxLevel c.maxLevelCeiling = .error e → Unprepared g c entity p (.plan e)
  | filter {plan : Plan g} {e : Error} :
    g.planFor entity p.maxLevel c.maxLevelCeiling = .ok plan →
      predicateFor g entity p = .error e → Unprepared g c entity p e
  | order {plan : Plan g} {predicate : Option Predicate} {e : Error} :
    g.planFor entity p.maxLevel c.maxLevelCeiling = .ok plan →
      predicateFor g entity p = .ok predicate → orderFor g entity p = .error e →
        Unprepared g c entity p e

lemma Unprepared.prepared_eq (h : Unprepared g s.configuration entity p e) :
    s.prepared entity p = .error e := by
  rw [prepared]
  cases h with
  | plan hplan =>
    rw [hplan]
    rfl
  | filter hplan hpredicate =>
    rw [hplan, hpredicate]
    rfl
  | order hplan hpredicate horder =>
    rw [hplan, hpredicate, horder]
    rfl

/-- Whatever is asked for, it is refused for what the preparation is refused for. -/
lemma Unprepared.refused (h : Unprepared g s.configuration entity p e) :
    s.listed entity p = .error e ∧ s.counted entity p = .error e ∧
      s.retrieved entity p = .error e := by
  rw [listed, counted, retrieved, h.prepared_eq]
  exact ⟨rfl, rfl, rfl⟩

/-! ### Requests for the only record -/

/-- What a request for the only record comes to if `n` records are selected, the first of which is
shown as `v`. -/
def soleAnswer (entity : String) (predicate : Option Predicate) (n : Nat) (v : Json) :
    Except Error Json :=
  if predicate.all Predicate.isAlways then .error (.store (.noFilterProvided entity))
  else if n = 0 then .error (.store (.recordNotFound entity))
  else if n = 1 then .ok v
  else .error (.store (.multipleRecordsFound entity n))

/-- The first selected record as a response shows it. -/
def firstShown (s : Service g) (i : g.Id) (plan : Plan g) (predicate : Option Predicate) : Json :=
  ((s.store.matching i predicate).head?.map (s.shown i plan)).getD .null

/-- Sorting leaves a single record where it is. -/
lemma ordered_of_matching {predicate : Option Predicate} {row : Record}
    (h : s.store.matching i predicate = [row]) (order : List OrderKey) :
    s.store.ordered i ⟨predicate, order, 0, none, none⟩ = [row] := by
  have hperm := s.store.ordered_perm (i := i) ⟨predicate, order, 0, none, none⟩
  rw [h] at hperm
  exact List.perm_singleton.1 hperm

/-- The first page of the only selected record shows it. -/
lemma results_pageOf {predicate : Option Predicate}
    (hone : (s.store.matching i predicate).length = 1) (order : List OrderKey) {limit : Nat}
    (hlimit : 1 ≤ limit) :
    (s.pageOf i plan predicate order 0 limit).results = [s.firstShown i plan predicate] := by
  obtain ⟨row, hrow⟩ := List.length_eq_one_iff.1 hone
  rw [pageOf, ordered_of_matching hrow, firstShown, hrow]
  simp [List.take_of_length_le, hlimit]

section Planned

variable {predicate : Option Predicate} {order : List OrderKey}
  (hi : g.find? entity = some i)
  (hplan : g.plan i p.maxLevel s.configuration.maxLevelCeiling = .ok plan)
  (hpredicate : predicateFor g entity p = .ok predicate)
  (horder : orderFor g entity p = .ok order)
include hi hplan hpredicate horder

/-- What it comes to depends on how many records are selected, and on the record if it is one. -/
lemma retrieved_eq_soleAnswer :
    s.retrieved entity p =
      soleAnswer entity predicate (s.store.matching i predicate).length
        (s.firstShown i plan predicate) := by
  rw [retrieved_of_compiled hi hplan hpredicate horder, soleAnswer]
  congr 1
  have hperm := s.store.ordered_perm (i := i) ⟨predicate, order, 0, none, none⟩
  match hrows : s.store.matching i predicate with
  | [] =>
    rw [hrows] at hperm
    rw [hperm.eq_nil]
    rfl
  | [row] =>
    rw [ordered_of_matching hrows, firstShown, hrows]
    rfl
  | _ :: _ :: _ =>
    have htwo : 2 ≤ (s.store.ordered i ⟨predicate, order, 0, none, none⟩).length := by
      rw [hperm.length_eq, hrows]
      simp
    rw [Store.only_of_two_le htwo, hperm.length_eq, hrows]
    simp [Except.mapError, Except.map]

end Planned

end Service

/-- **Pages, numbers and single records agree.**  Take any store and any service over it.  A request
whose plan, filter or order is refused is refused alike, whatever it asks for.  If the plan and the
filter are accepted, there are a number and a value such that all requests with this filter and this
depth, whatever came before them and whatever accepted order, offset, limit and distinction they have,
come to the following: that number of records is counted; a page tells the same number; and the only
record is refused without a filter and unless the number is one, and else is the value, which is then
also all that a page without an offset shows. -/
theorem list_size_retrieve_agree {g : Graph} (store : Store g) (c : Configuration)
    (entity : String) (p : Parameters) :
    (∀ e, Service.Unprepared g c entity p e → ∀ before,
      (((Service.of store c).after before).list entity p).result = .error e ∧
      (((Service.of store c).after before).size entity p).result = .error e ∧
      (((Service.of store c).after before).retrieve entity p).result = .error e) ∧
    ∀ plan predicate, g.planFor entity p.maxLevel c.maxLevelCeiling = .ok plan →
      Service.predicateFor g entity p = .ok predicate → ∃ n v,
      ∀ q order, q.query = p.query → q.maxLevel = p.maxLevel →
        Service.orderFor g entity q = .ok order → ∀ before,
          (((Service.of store c).after before).size entity q).result = .ok n ∧
          (((Service.of store c).after before).retrieve entity q).result =
            Service.soleAnswer entity predicate n v ∧
          ∃ page, (((Service.of store c).after before).list entity q).result = .ok page ∧
            page.count = n ∧
            (n = 1 → q.offset = 0 → 1 ≤ q.limit → page.results = [v]) := by
  constructor
  · intro e he before
    obtain ⟨cache, hcache, hafter⟩ := Service.after_eq (Service.sound_of store c) before
    rw [hafter, Service.result_list hcache, Service.result_size hcache,
      Service.result_retrieve hcache]
    exact Service.Unprepared.refused he
  · intro plan predicate hplan hpredicate
    obtain ⟨hroot, hmade⟩ := Graph.planFor_eq_ok_iff.1 hplan
    refine ⟨(store.matching plan.root predicate).length,
      (Service.of store c).firstShown plan.root plan predicate, ?_⟩
    intro q order hquery hlevel horder before
    have hmade' : g.plan plan.root q.maxLevel c.maxLevelCeiling = .ok plan := by rwa [hlevel]
    have hpredicate' : Service.predicateFor g entity q = .ok predicate := by
      rw [Service.predicateFor, hquery]
      exact hpredicate
    obtain ⟨cache, hcache, hafter⟩ := Service.after_eq (Service.sound_of store c) before
    rw [hafter, Service.result_list hcache, Service.result_size hcache,
      Service.result_retrieve hcache]
    refine ⟨Service.counted_of_compiled hroot hmade' hpredicate' horder,
      Service.retrieved_eq_soleAnswer hroot hmade' hpredicate' horder,
      _, Service.listed_of_compiled hroot hmade' hpredicate' horder, rfl, ?_⟩
    intro hone hoffset hlimit
    rw [hoffset]
    exact Service.results_pageOf hone order hlimit

/-- Requests that select Bob, in some order or in none. -/
def bobParameters (order : Option String) : Parameters := ⟨some "id.eq.2", order, 7, 0, false, 2⟩

theorem list_size_retrieve_agree_shelter :
    (∀ before, (((Service.of shelterStore .default).after before).retrieve "Dog"
      (bobParameters none)).result = .error (.plan (.unknownSchema "Dog"))) ∧
    ∃ v, ∀ before,
      (((Service.of shelterStore .default).after before).size "Person"
        (bobParameters none)).result = .ok 1 ∧
      (((Service.of shelterStore .default).after before).retrieve "Person"
        (bobParameters none)).result = .ok v ∧
      ∃ page, (((Service.of shelterStore .default).after before).list "Person"
        (bobParameters (some "name"))).result = .ok page ∧ page.count = 1 ∧ page.results = [v] := by
  obtain ⟨plan, hmade⟩ : ∃ plan, shelterGraph.plan ⟨0, by decide⟩ 2 3 = .ok plan :=
    ⟨_, Graph.plan_eq_ok_iff.2 ⟨by decide, rfl⟩⟩
  have hplan : shelterGraph.planFor "Person" 2 3 = .ok plan := by
    rw [Graph.planFor, find?_person_shelter]
    exact hmade
  have hpredicate : Service.predicateFor shelterGraph "Person" (bobParameters none) =
      .ok (some (.compare ⟨["id"], .equal, .int 2, false⟩)) := by decide +kernel
  have horder : Service.orderFor shelterGraph "Person" (bobParameters (some "name")) =
      .ok [⟨["name"], false⟩] := by decide +kernel
  have hcount : ((Service.of shelterStore .default).size "Person" (bobParameters none)).result =
      .ok 1 := by
    rw [Service.result_size (Service.sound_of _ _),
      Service.counted_of_compiled find?_person_shelter hmade hpredicate rfl]
    rfl
  obtain ⟨hrefused, -⟩ := list_size_retrieve_agree shelterStore .default "Dog" (bobParameters none)
  obtain ⟨-, hagree⟩ := list_size_retrieve_agree shelterStore .default "Person" (bobParameters none)
  obtain ⟨n, v, hagree⟩ := hagree plan _ hplan hpredicate
  obtain rfl : 1 = n := Except.ok.inj (hcount.symm.trans (hagree _ [] rfl rfl rfl []).1)
  have hdog : shelterGraph.planFor "Dog" 2 3 = .error (.unknownSchema "Dog") := by
    rw [Graph.planFor, show shelterGraph.find? "Dog" = none by decide +kernel]
  refine ⟨fun before => (hrefused _ (.plan hdog) before).2.2, v, fun before => ?_⟩
  obtain ⟨hsize, hretrieve, -⟩ := hagree (bobParameters none) [] rfl rfl rfl before
  obtain ⟨-, -, page, hlist, hcount, hresults⟩ :=
    hagree (bobParameters (some "name")) _ rfl rfl horder before
  exact ⟨hsize, hretrieve, page, hlist, hcount, hresults rfl rfl (by decide)⟩

end Retrieval
