/-
# A single record needs a filter

A request for a single record is refused without a filter.  A filter that compares nothing and selects
everything is none either, but it is taken for one unless all of it is dissolved in compilation; then
the request is answered as if every record had been asked for.
-/
import Retrieval.Proofs.Filter.NormalForm
import Retrieval.Proofs.Store.Selection

namespace Retrieval

namespace Store

variable {g : Graph} (s : Store g) (schema : String) (q : Selection g) {p : Predicate}

/-- A predicate that always holds selects what is selected without one. -/
lemma fetch_of_holds (hall : ∀ lookup, p.holds lookup = true) (hp : q.predicate = some p) :
    s.fetch schema q = s.fetch schema { q with predicate := none } := by
  have hselects : ∀ i, s.selects i (some p) = s.selects i none := by
    intro i
    funext row
    simp [selects, hall]
  simp only [fetch, page, ordered, matching, hp, hselects]

lemma fetchOne_of_holds (hall : ∀ lookup, p.holds lookup = true) (hp : q.predicate = some p) :
    s.fetchOne schema q =
      if p.isAlways then .error (.noFilterProvided schema)
      else s.fetch schema { q with predicate := none, offset := 0, limit := none } >>=
        only schema := by
  have hfetch := s.fetch_of_holds schema { q with offset := 0, limit := none } hall hp
  rw [fetchOne, hfetch, hp, requireFilter]
  cases p.isAlways <;> rfl

end Store

/-- **A filter without comparisons is refused where nothing is left of it.**  Let a filter be accepted
for a schema that compares nothing and holds whatever values there are.  Then it is made of groups
alone, and it is compiled to the predicate that always holds, as it is written, if and only if each of
its tokens is dissolved into truth.  If they are, every request for a single record is refused on every
store for want of a filter; if not, every such request is answered as one for all records of the
schema. -/
theorem fetchOne_without_comparisons {g : Graph} {schema filter : String} {tokens : List Token}
    {p : Predicate} (htokens : readFilter filter = .ok tokens)
    (hp : g.compileFilter schema filter = .ok p) (hfree : p.comparisons = [])
    (hall : ∀ lookup, p.holds lookup = true) :
    Token.leavesOf tokens = [] ∧
    (p.isAlways = true ↔ ∀ t ∈ tokens, t.dissolved? = some true) ∧
    ∀ (s : Store g) (q : Selection g), q.predicate = some p →
      s.fetchOne schema q =
        if ∀ t ∈ tokens, t.dissolved? = some true then .error (.noFilterProvided schema)
        else s.fetch schema { q with predicate := none, offset := 0, limit := none } >>=
          Store.only schema := by
  obtain ⟨root, -, h⟩ := bind_eq_ok_iff.1 hp
  obtain ⟨ts, hts, h⟩ := bind_eq_ok_iff.1 h
  obtain rfl : ts = tokens := Except.ok.inj (hts.symm.trans htokens)
  obtain ⟨ps, hps, h⟩ := bind_eq_ok_iff.1 h
  obtain rfl : p = .all ps := (Except.ok.inj h).symm
  obtain ⟨hnormal, hconstant, hcompares⟩ := Graph.normal_of_compileTokens ts hps
  have halways : (Predicate.all ps).isAlways = true ↔ ∀ t ∈ ts, t.dissolved? = some true := by
    rw [Predicate.isAlways_iff, Predicate.constant?_all hnormal, hconstant,
      Token.residue_eq_neutral_iff, Token.dissolvedAll_eq_map, List.forall_mem_map]
  refine ⟨?_, halways, fun s q hq => ?_⟩
  · rw [Predicate.comparisons_all] at hfree
    rw [hfree] at hcompares
    exact List.forall₂_nil_right_iff.1 hcompares
  · rw [s.fetchOne_of_holds schema q hall hq]
    simp only [halways]

/-- A store of one record. -/
def singleItemStore : Store itemGraph := ⟨#v[[[("id", .int 1)]]]⟩

theorem fetchOne_without_comparisons_dissolved :
    ∃ tokens p, readFilter "(),or(and(),or())" = .ok tokens ∧
      itemGraph.compileFilter "Item" "(),or(and(),or())" = .ok p ∧ p.comparisons = [] ∧
      (∀ lookup, p.holds lookup = true) ∧ p.isAlways = true ∧
      singleItemStore.fetchOne "Item" (.satisfying p) = .error (.noFilterProvided "Item") := by
  have htokens : readFilter "(),or(and(),or())" =
      .ok [.group .or [.group .and [], .group .or []]] := rfl
  have hp : itemGraph.compileFilter "Item" "(),or(and(),or())" = .ok (.and []) := by decide +kernel
  have hfree : (Predicate.and []).comparisons = [] := rfl
  have hall : ∀ lookup, (Predicate.and []).holds lookup = true := by simp
  obtain ⟨-, halways, hone⟩ := fetchOne_without_comparisons htokens hp hfree hall
  have hdissolved : ∀ t ∈ [Token.group .or [.group .and [], .group .or []]],
      t.dissolved? = some true := by
    intro t ht
    obtain rfl := List.mem_singleton.1 ht
    rfl
  refine ⟨_, _, htokens, hp, hfree, hall, halways.2 hdissolved, ?_⟩
  rw [hone _ _ rfl, if_pos hdissolved]

/-- The negation of the empty disjunction selects everything without a comparison, but the only record
of a store is found by it. -/
theorem fetchOne_not_refused :
    ∃ p, itemGraph.compileFilter "Item" "not(or())" = .ok p ∧ p.comparisons = [] ∧
      (∀ lookup, p.holds lookup = true) ∧ p.isAlways = false ∧
      singleItemStore.fetchOne "Item" (.satisfying p) = .ok [("id", .int 1)] := by
  refine ⟨.not (.or []), by decide +kernel, rfl, by simp, rfl, by decide +kernel⟩

end Retrieval
