/-
# Filters select by a Boolean algebra

On every store the negation of a filter selects the other records, two filters with a comma between
them the records that both select, and the disjunction of their conjunctions the records that one of
them selects.  Whatever text is accepted as a filter may be used so.
-/
import Retrieval.Proofs.Filter.Meaning
import Retrieval.Proofs.Store.Page

namespace Retrieval

/-- The selection of all records for which a predicate holds, in the order of their insertion. -/
def Selection.satisfying {g : Graph} (p : Predicate) : Selection g :=
  ⟨some p, [], 0, none, none⟩

namespace Store

variable {g : Graph} (s : Store g)

/-- The records that are fetched for a predicate are those of the schema for which it holds. -/
lemma fetch_satisfying {schema : String} {i : g.Id} (hi : g.find? schema = some i)
    (p : Predicate) :
    s.fetch schema (.satisfying p) =
      .ok ((s.rows i).filter fun row => p.holds (s.pathValues i row)) := by
  simp only [fetch, schemaNamed, hi, page, ordered, matching, Selection.satisfying, sortRows_nil,
    List.drop_zero]
  rfl

end Store

/-! ### Combinations of accepted filters -/

section Combinations

variable {g : Graph} {schema q₁ q₂ : String} {p₁ p₂ : Predicate}

/-- The negation of an accepted filter is accepted and holds where the filter does not. -/
lemma compileFilter_not (h : g.compileFilter schema q₁ = .ok p₁) :
    ∃ p, g.compileFilter schema ("not(" ++ q₁ ++ ")") = .ok p ∧
      ∀ lookup, p.holds lookup = !p₁.holds lookup := by
  obtain ⟨i, ts, ps, hi, -, hts, hps, rfl⟩ := Graph.compileFilter_eq_ok_iff.1 h
  refine ⟨_, Graph.compileFilter_eq_ok_iff.2 ⟨i, _, _, hi, ?_, ?_,
    Graph.compileTokens_group hps .not, rfl⟩, fun lookup => ?_⟩
  · simp [Text.isBlankText, Text.isBlank]
  · simpa [Connective.name] using hts.connective .not
  · simp [Graph.joinParts, Predicate.holds_all]

/-- Two accepted filters with a comma between them are accepted and hold where both do. -/
lemma compileFilter_comma (h₁ : g.compileFilter schema q₁ = .ok p₁)
    (h₂ : g.compileFilter schema q₂ = .ok p₂) :
    ∃ p, g.compileFilter schema (q₁ ++ "," ++ q₂) = .ok p ∧
      ∀ lookup, p.holds lookup = (p₁.holds lookup && p₂.holds lookup) := by
  obtain ⟨i, ts, ps, hi, -, hts, hps, rfl⟩ := Graph.compileFilter_eq_ok_iff.1 h₁
  obtain ⟨j, us, qs, hj, -, hus, hqs, rfl⟩ := Graph.compileFilter_eq_ok_iff.1 h₂
  obtain rfl : i = j := Option.some.inj (hi.symm.trans hj)
  refine ⟨_, Graph.compileFilter_eq_ok_iff.2 ⟨i, _, _, hi, ?_, ?_,
    Graph.compileTokens_append hps hqs, rfl⟩, fun lookup => ?_⟩
  · simp [Text.isBlankText, Text.isBlank]
  · simpa using hts.comma hus
  · simp [Predicate.holds_all]

/-- The disjunction of the conjunctions of two accepted filters is accepted and holds where one of
them does. -/
lemma compileFilter_or (h₁ : g.compileFilter schema q₁ = .ok p₁)
    (h₂ : g.compileFilter schema q₂ = .ok p₂) :
    ∃ p, g.compileFilter schema ("or(and(" ++ q₁ ++ "),and(" ++ q₂ ++ "))") = .ok p ∧
      ∀ lookup, p.holds lookup = (p₁.holds lookup || p₂.holds lookup) := by
  obtain ⟨i, ts, ps, hi, -, hts, hps, rfl⟩ := Graph.compileFilter_eq_ok_iff.1 h₁
  obtain ⟨j, us, qs, hj, -, hus, hqs, rfl⟩ := Graph.compileFilter_eq_ok_iff.1 h₂
  obtain rfl : i = j := Option.some.inj (hi.symm.trans hj)
  have hparts := Graph.compileTokens_append (Graph.compileTokens_group hps .and)
    (Graph.compileTokens_group hqs .and)
  refine ⟨_, Graph.compileFilter_eq_ok_iff.2 ⟨i, _, _, hi, ?_, ?_,
    Graph.compileTokens_group hparts .or, rfl⟩, fun lookup => ?_⟩
  · simp [Text.isBlankText, Text.isBlank]
  · simpa [Connective.name] using ((hts.connective .and).comma (hus.connective .and)).connective .or
  · simp [Graph.joinParts, Predicate.holds_all, Predicate.holds_any]

end Combinations

/-! ### The algebra -/

/-- **Filters form a Boolean algebra.**  For any two filters that are accepted for a schema of a
graph and any store over it, the negation of the first one, the two with a comma between them and
the disjunction of their conjunctions are accepted as well, and without order and page they fetch,
in the order of insertion, the records that the first one does not fetch, the records that both
fetch and the records that one of them fetches. -/
theorem fetch_combined_filters {g : Graph} (s : Store g) {schema q₁ q₂ : String}
    {p₁ p₂ : Predicate} (h₁ : g.compileFilter schema q₁ = .ok p₁)
    (h₂ : g.compileFilter schema q₂ = .ok p₂) :
    ∃ (i : g.Id) (negation both either : Predicate) (rows₁ rows₂ : List Record),
      g.find? schema = some i ∧
      g.compileFilter schema ("not(" ++ q₁ ++ ")") = .ok negation ∧
      g.compileFilter schema (q₁ ++ "," ++ q₂) = .ok both ∧
      g.compileFilter schema ("or(and(" ++ q₁ ++ "),and(" ++ q₂ ++ "))") = .ok either ∧
      s.fetch schema (.satisfying p₁) = .ok rows₁ ∧
      s.fetch schema (.satisfying p₂) = .ok rows₂ ∧
      s.fetch schema (.satisfying negation) = .ok ((s.rows i).filter fun row => row ∉ rows₁) ∧
      s.fetch schema (.satisfying both) =
        .ok ((s.rows i).filter fun row => row ∈ rows₁ ∧ row ∈ rows₂) ∧
      s.fetch schema (.satisfying either) =
        .ok ((s.rows i).filter fun row => row ∈ rows₁ ∨ row ∈ rows₂) := by
  obtain ⟨i, -, -, hi, -⟩ := Graph.compileFilter_eq_ok_iff.1 h₁
  obtain ⟨negation, hnegation, hnot⟩ := compileFilter_not h₁
  obtain ⟨both, hboth, hand⟩ := compileFilter_comma h₁ h₂
  obtain ⟨either, heither, hor⟩ := compileFilter_or h₁ h₂
  refine ⟨i, negation, both, either, _, _, hi, hnegation, hboth, heither,
    s.fetch_satisfying hi p₁, s.fetch_satisfying hi p₂, ?_, ?_, ?_⟩
  · rw [s.fetch_satisfying hi]
    refine congrArg _ (List.filter_congr fun row hrow => ?_)
    rw [Bool.eq_iff_iff]
    simp [hnot, hrow]
  · rw [s.fetch_satisfying hi]
    refine congrArg _ (List.filter_congr fun row hrow => ?_)
    rw [Bool.eq_iff_iff]
    simp [hand, hrow]
  · rw [s.fetch_satisfying hi]
    refine congrArg _ (List.filter_congr fun row hrow => ?_)
    rw [Bool.eq_iff_iff]
    simp [hor, hrow]

/-- A graph of one schema. -/
def itemGraph : Graph :=
  ⟨1, #v[⟨"Item", none, "id",
    [⟨"id", .scalar .int⟩, ⟨"name", .scalar .string⟩, ⟨"kind", .scalar .int⟩]⟩]⟩

lemma find?_item : itemGraph.find? "Item" = some ⟨0, by decide⟩ := by decide +kernel

/-- A store of two records. -/
def itemStore : Store itemGraph :=
  ⟨#v[[[("id", .int 1), ("kind", .int 1), ("name", .string "Bob")],
    [("id", .int 3), ("kind", .int 2), ("name", .string "Eve")]]]⟩

theorem fetch_combined_filters_items :
    ∃ p₁ p₂,
      itemGraph.compileFilter "Item" "or(kind.eq.1,(name.like.A*,))" = .ok p₁ ∧
      itemGraph.compileFilter "Item" " not(id.in.(1, 2),) ," = .ok p₂ ∧
      ∃ (i : itemGraph.Id) (negation both either : Predicate) (rows₁ rows₂ : List Record),
        itemGraph.find? "Item" = some i ∧
        itemGraph.compileFilter "Item" ("not(" ++ "or(kind.eq.1,(name.like.A*,))" ++ ")") =
          .ok negation ∧
        itemGraph.compileFilter "Item"
          ("or(kind.eq.1,(name.like.A*,))" ++ "," ++ " not(id.in.(1, 2),) ,") = .ok both ∧
        itemGraph.compileFilter "Item"
          ("or(and(" ++ "or(kind.eq.1,(name.like.A*,))" ++ "),and(" ++
            " not(id.in.(1, 2),) ," ++ "))") = .ok either ∧
        itemStore.fetch "Item" (.satisfying p₁) = .ok rows₁ ∧
        itemStore.fetch "Item" (.satisfying p₂) = .ok rows₂ ∧
        itemStore.fetch "Item" (.satisfying negation) =
          .ok ((itemStore.rows i).filter fun row => row ∉ rows₁) ∧
        itemStore.fetch "Item" (.satisfying both) =
          .ok ((itemStore.rows i).filter fun row => row ∈ rows₁ ∧ row ∈ rows₂) ∧
        itemStore.fetch "Item" (.satisfying either) =
          .ok ((itemStore.rows i).filter fun row => row ∈ rows₁ ∨ row ∈ rows₂) := by
  have h₁ : itemGraph.compileFilter "Item" "or(kind.eq.1,(name.like.A*,))" =
      .ok (.or [.compare ⟨["kind"], .equal, .int 1, false⟩,
        .compare ⟨["name"], .startsWith, .string "A", false⟩]) := by decide +kernel
  have h₂ : itemGraph.compileFilter "Item" " not(id.in.(1, 2),) ," =
      .ok (.not (.compare ⟨["id"], .oneOf, .array [.int 1, .int 2], false⟩)) := by decide +kernel
  exact ⟨_, _, h₁, h₂, fetch_combined_filters itemStore h₁ h₂⟩

end Retrieval
