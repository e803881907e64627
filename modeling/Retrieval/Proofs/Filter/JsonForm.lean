/-
# Predicates and their JSON form

The members of an object are sorted, that a comparison is negated is written only if it is, and an
operand may be any value, also one that looks like a predicate.  A predicate is read again from its
form nevertheless, so that different predicates have different forms.
-/
import Mathlib.Tactic.Lemma
import Retrieval.Filter.Predicate

namespace Retrieval

/-- Items that are read from what is written of them are read from the array of it. -/
lemma Json.list?_array_map {α : Type} (read? : Json → Option α) (write : α → Json)
    (h : ∀ a, read? (write a) = some a) (as : List α) :
    Json.list? read? (.array (as.map write)) = some as := by
  rw [list?]
  induction as with
  | nil => rfl
  | cons a as ih => simp [h, ih]

namespace Comparison

/-- The members stand in increasing order, so that a negation comes first. -/
lemma toJson_eq (c : Comparison) : c.toJson = .object
    ((if c.negated then [("negated", .bool true)] else []) ++
      [("op", .string c.test.name), ("path", .array (c.path.map .string)),
        ("value", c.value)]) := by
  rw [toJson]
  cases c.negated <;> rfl

lemma ofJson?_toJson (c : Comparison) : ofJson? c.toJson = some c := by
  obtain ⟨path, test, value, negated⟩ := c
  have hpath : Json.list? Json.string? (.array (path.map .string)) = some path :=
    Json.list?_array_map Json.string? .string (fun _ => rfl) path
  have htest : (Json.enumerator? (.string test.name)).bind Test.ofName? = some test :=
    Test.ofName?_name test
  rw [toJson_eq]
  cases negated <;>
    simp [ofJson?, Json.fields?, Json.distinctFields, fieldNames, Json.member?, hpath, htest,
      Json.withDefault?, Json.bool?]

lemma get?_negated (c : Comparison) :
    c.toJson.get? "negated" = if c.negated then some (.bool true) else none := by
  rw [toJson_eq]
  cases c.negated <;> rfl

end Comparison

namespace Predicate

/-- The name of a kind of predicates. -/
def kind : Predicate → String
  | .compare _ => "compare"
  | .and _ => "and"
  | .or _ => "or"
  | .not _ => "not"

lemma toJson_eq_kind (p : Predicate) : ∃ form, p.toJson = .object [(p.kind, form)] := by
  cases p <;> exact ⟨_, by rw [toJson, kind]⟩

mutual

lemma ofJson?_toJson : ∀ p : Predicate, ofJson? p.toJson = some p
  | .compare c => by simp [toJson, ofJson?, Comparison.ofJson?_toJson]
  | .and parts => by simp [toJson, ofJson?, partsOfJson?_partsToJson parts]
  | .or parts => by simp [toJson, ofJson?, partsOfJson?_partsToJson parts]
  | .not part => by simp [toJson, ofJson?, ofJson?_toJson part]

lemma partsOfJson?_partsToJson :
    ∀ parts : List Predicate, partsOfJson? (partsToJson parts) = some parts
  | [] => rfl
  | p :: rest => by
    simp [partsToJson, partsOfJson?, ofJson?_toJson p, partsOfJson?_partsToJson rest]

end

/-- **A predicate is read again from its JSON form**, whatever its depth and its operands.  Each part
is an object whose only member has the name of its kind, and that a comparison is negated is a member
only if it is; still no two predicates have the same form. -/
theorem json_round_trip :
    (∀ p : Predicate, ofJson? p.toJson = some p) ∧
    (∀ p : Predicate, ∃ form, p.toJson = .object [(p.kind, form)]) ∧
    (∀ c : Comparison,
      c.toJson.get? "negated" = if c.negated then some (.bool true) else none) ∧
    ∀ p q : Predicate, p.toJson = q.toJson → p = q := by
  refine ⟨ofJson?_toJson, toJson_eq_kind, Comparison.get?_negated, fun p q h => ?_⟩
  have hp := ofJson?_toJson p
  rw [h, ofJson?_toJson q] at hp
  exact (Option.some.inj hp).symm

/-- A comparison with something that looks like a predicate, negated. -/
def unlike : Comparison := ⟨["owner", "name"], .equal, .object [("and", .array [.null])], true⟩

/-- It is read again from within other predicates, and not mistaken for the comparison that is not
negated; and only one predicate is written as the negation of an empty conjunction. -/
theorem json_round_trip_unlike :
    ofJson? (or [.compare unlike, .not (.compare unlike)]).toJson =
      some (.or [.compare unlike, .not (.compare unlike)]) ∧
    (compare unlike).toJson ≠ (compare { unlike with negated := false }).toJson ∧
    ∀ p : Predicate,
      p.toJson = .object [("not", .object [("and", .array [])])] → p = .not always := by
  obtain ⟨hread, -, -, hsame⟩ := json_round_trip
  refine ⟨hread _, fun h => ?_, fun p h => hsame p (.not always) h⟩
  simpa [unlike] using hsame _ _ h

end Predicate

end Retrieval
