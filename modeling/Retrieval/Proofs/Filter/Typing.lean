/-
# Compiled comparisons are well typed

An operator and its literal become a test and an operand in three steps: the operator decides the
shape of the operand, the test which values it is made of, and the attribute of which type they are.
The operand that comes out suits the test on values of that type, so whether a value can be compared
with it depends on this value alone.
-/
import Retrieval.Proofs.Calendar.Chronology
import Retrieval.Proofs.Filter.NormalForm
import Retrieval.Proofs.Filter.Path

namespace Retrieval

namespace Test

/-- Whether the test asks for the order of two values. -/
def isOrder : Test → Bool
  | greater | greaterEqual | less | lessEqual => true
  | _ => false

/-- Whether a value and an operand have shapes that the test compares.  With other shapes it fails,
whatever they hold. -/
def compares (t : Test) (actual expected : Json) : Bool :=
  match t with
  | equal | isNull | isNotNull => true
  | greater | greaterEqual | less | lessEqual => (actual.order? expected).isSome
  | contains | startsWith | endsWith =>
    match actual, expected with
    | .string _, .string _ => true
    | _, _ => false
  | oneOf | overlap =>
    match expected with
    | .array _ => true
    | _ => false
  | range =>
    match expected with
    | .array [_, _] => true
    | _ => false
  | year | month | day =>
    match actual with
    | .string _ => expected.int64?.isSome
    | _ => false

lemma compares_of_passes {t : Test} {actual expected : Json}
    (h : t.passes actual expected = true) : t.compares actual expected = true := by
  cases t with
  | equal | isNull | isNotNull => rfl
  | greater | greaterEqual | less | lessEqual =>
    change (actual.order? expected).isSome = true
    cases ho : actual.order? expected with
    | none => simp [passes_greater, passes_greaterEqual, passes_less, passes_lessEqual, ho] at h
    | some o => rfl
  | contains | startsWith | endsWith =>
    cases actual with
    | string a => cases expected with
      | string e => rfl
      | _ => cases h
    | _ => cases h
  | oneOf =>
    cases expected with
    | array vs => rfl
    | _ => cases h
  | overlap =>
    cases expected with
    | array vs => rfl
    | _ => cases actual <;> cases h
  | range =>
    cases expected with
    | array vs =>
      match vs with
      | [_, _] => rfl
      | [] | [_] | _ :: _ :: _ :: _ => cases h
    | _ => cases h
  | year | month | day =>
    cases actual with
    | string s =>
      change expected.int64?.isSome = true
      cases hn : expected.int64? with
      | none =>
        unfold passes at h
        simp [hn] at h
      | some n => rfl
    | _ => cases h

end Test

/-! ### Values of a type -/

namespace ValueType

/-- The values of a type; those of any type are what a literal without a type can be. -/
inductive Has : ValueType → Json → Prop where
  | string (s : String) : Has string (.string s)
  | int {n : Int} : InInt64 n → Has int (.int n)
  | float (x : Binary64) : Has float (.number (.float x))
  | bool (b : Bool) : Has bool (.bool b)
  | date {s : String} : (Date.ofText? s).isSome → Has date (.string s)
  | datetime {s : String} : (Instant.ofText? s).isSome → Has datetime (.string s)
  | any {t : ValueType} {v : Json} : t ∈ [bool, int, float, string] → Has t v → Has any v

/-- The operands that suit a test on values of a type. -/
inductive Suits (t : ValueType) : Test → Json → Prop where
  | check {test : Test} : test.isNullCheck → Suits t test .null
  | equal {v : Json} : t.Has v → Suits t .equal v
  | flag (b : Bool) : Suits t .equal (.bool b)
  | order {test : Test} {v : Json} : test.isOrder → t.Has v → Suits t test v
  | text {test : Test} (s : String) : test.isTextMatch → Suits t test (.string s)
  | part {test : Test} {n : Int} : test.isDatePart → t.hasDateParts → InInt64 n →
    Suits t test (.int n)
  | list {test : Test} {vs : List Json} : test = .oneOf ∨ test = .overlap →
    (∀ v ∈ vs, t.Has v) → Suits t test (.array vs)
  | range {low high : Json} : t.Has low → t.Has high → Suits t .range (.array [low, high])

variable {t : ValueType} {attr s : String} {v : Json}

lemma inInt64_of_readInt64? {n : Int} (h : readInt64? s = some n) : InInt64 n := by
  rw [readInt64?, Option.filter_eq_some_iff] at h
  simpa [InInt64] using h.2

lemma has_guess (s : String) : any.Has (guess s) := by
  rw [guess]
  split
  · exact .any (by simp) (.bool _)
  · next hn => exact .any (by simp) (.int (inInt64_of_readInt64? hn))
  · exact .any (by simp) (.float _)
  · exact .any (by simp) (.string s)

/-- A literal is read as a value of the type. -/
lemma has_of_read? (h : t.read? s = some v) : t.Has v := by
  cases t with
  | string =>
    cases h
    exact .string s
  | int =>
    obtain ⟨n, hn, rfl⟩ := Option.map_eq_some_iff.1 h
    exact .int (inInt64_of_readInt64? hn)
  | float =>
    obtain ⟨x, -, rfl⟩ := Option.map_eq_some_iff.1 h
    exact .float x
  | bool =>
    obtain ⟨b, -, rfl⟩ := Option.map_eq_some_iff.1 h
    exact .bool b
  | date =>
    obtain ⟨d, hd, rfl⟩ := Option.map_eq_some_iff.1 h
    exact .date (by rw [hd]; rfl)
  | datetime =>
    obtain ⟨d, hd, rfl⟩ := Option.map_eq_some_iff.1 h
    exact .datetime (by rw [hd]; rfl)
  | any =>
    cases h
    exact has_guess s

lemma has_of_coerce (h : t.coerce attr s = .ok v) : t.Has v := has_of_read? (coerce_eq_ok_iff.1 h)

/-- Values of a type are ordered among the values of their kind. -/
lemma Has.order?_isSome_iff (h : t.Has v) {actual : Json} :
    (actual.order? v).isSome ↔ actual.kindRank = v.kindRank := by
  induction h with
  | any _ _ ih => exact ih
  | _ => cases actual <;> simp [Json.order?, Json.kindRank, Json.int]

end ValueType

/-! ### Shapes of operands -/

namespace Conversion

/-- An operand has the shape that its test asks for before it is typed. -/
inductive Shaped : Conversion → Prop where
  | check {test : Test} : test.isNullCheck → Shaped ⟨test, .none, false⟩
  | equal (s : String) (negated : Bool) : Shaped ⟨.equal, .text s, negated⟩
  | flag (b : Bool) : Shaped ⟨.equal, .flag b, false⟩
  | text {test : Test} (s : String) : test.isOrder ∨ test.isTextMatch ∨ test.isDatePart →
    Shaped ⟨test, .text s, false⟩
  | list {test : Test} (items : List String) : test = .oneOf ∨ test = .overlap →
    Shaped ⟨test, .list items, false⟩
  | range (low high : String) : Shaped ⟨.range, .list [low, high], false⟩

lemma shaped_ofPattern (pattern : String) :
    Shaped ⟨(ofPattern pattern).1, .text (ofPattern pattern).2, false⟩ := by
  rw [ofPattern]
  split_ifs
  · exact .equal _ _
  all_goals exact .text _ (by simp [Test.isTextMatch])

lemma shaped_ofScalar {o : Operator} {s : String} {c : Conversion} (h : ofScalar o s = .ok c) :
    c.Shaped := by
  cases o with
  | eq | neq =>
    cases h
    split
    · exact .check rfl
    · exact .equal _ _
  | gt | gte | lt | lte | year | month | day =>
    cases h
    exact .text s (by simp [Test.isOrder, Test.isDatePart])
  | like =>
    cases h
    exact shaped_ofPattern s
  | is =>
    rw [ofScalar] at h
    split_ifs at h
    all_goals cases h
    · exact .flag true
    · exact .flag false
    · exact .check rfl
  | oneOf | overlap =>
    cases h
    exact .list _ (by simp)
  | between => cases h

lemma shaped_ofList {o : Operator} {items : List String} {c : Conversion}
    (h : ofList o items = .ok c) : c.Shaped := by
  cases o with
  | oneOf | overlap =>
    cases h
    exact .list _ (by simp)
  | between =>
    rw [ofList] at h
    split_ifs at h with hpair
    obtain ⟨low, high, rfl⟩ := List.length_eq_two.1 hpair
    cases h
    exact .range low high
  | _ => cases h

lemma shaped_of {word : String} {value : Literal} {c : Conversion} (h : of word value = .ok c) :
    c.Shaped := by
  rw [of] at h
  split at h
  · cases h
  · split at h
    · exact shaped_ofScalar h
    · exact shaped_ofList h

end Conversion

/-! ### Comparisons -/

namespace ValueType

variable {t : ValueType} {test : Test} {attr s : String} {v : Json}

lemma suits_of_coerceFor (h : t.coerceFor test attr s = .ok v)
    (htest : test = .equal ∨ test.isOrder ∨ test.isTextMatch ∨ test.isDatePart) :
    t.Suits test v := by
  rw [coerceFor] at h
  split_ifs at h with hpart hdate htext
  · obtain ⟨n, hn, rfl⟩ := Option.map_eq_some_iff.1 (coerce_eq_ok_iff.1 h)
    exact .part hpart hdate (inInt64_of_readInt64? hn)
  · cases h
    exact .text s htext
  · have hv := has_of_coerce h
    rcases htest with rfl | horder | htext' | hpart'
    · exact .equal hv
    · exact .order horder hv
    · exact absurd htext' htext
    · exact absurd hpart' hpart

/-- A test compares an operand that suits it with every value of the right shape: a text where texts
are matched or dates are taken apart, and a value of the kind of the operand where their order is
asked for. -/
lemma Suits.compares_iff (h : t.Suits test v) (actual : Json) :
    test.compares actual v = true ↔
      (test.isTextMatch ∨ test.isDatePart → ∃ s, actual = .string s) ∧
        (test.isOrder → actual.kindRank = v.kindRank) := by
  cases h with
  | check htest =>
    cases test <;> cases htest <;>
      simp [Test.compares, Test.isTextMatch, Test.isDatePart, Test.isOrder]
  | equal | flag | range =>
    simp [Test.compares, Test.isTextMatch, Test.isDatePart, Test.isOrder]
  | list htest =>
    rcases htest with rfl | rfl <;>
      simp [Test.compares, Test.isTextMatch, Test.isDatePart, Test.isOrder]
  | order htest hv =>
    cases test <;> cases htest <;>
      simp [Test.compares, Test.isTextMatch, Test.isDatePart, Test.isOrder, hv.order?_isSome_iff]
  | text e htest =>
    cases test <;> cases htest <;> cases actual <;>
      simp [Test.compares, Test.isTextMatch, Test.isDatePart, Test.isOrder]
  | part htest _ hn =>
    have hint := Json.int64?_eq_some_iff.2 ⟨rfl, hn⟩
    cases test <;> cases htest <;> cases actual <;>
      simp [Test.compares, Test.isTextMatch, Test.isDatePart, Test.isOrder, hint]

end ValueType

/-- Whether a comparison is one of values of a type: its operand suits its test, and only equality
is negated. -/
structure Comparison.WellTyped (t : ValueType) (c : Comparison) : Prop where
  suits : t.Suits c.test c.value
  negated : c.negated = true → c.test = .equal

/-- An operand of the right shape that is typed by an attribute suits its test. -/
lemma Conversion.Shaped.wellTyped {g : Graph} {p : ResolvedPath g} {c : Conversion} {v : Json}
    (hc : c.Shaped) (hv : c.operand.coerce p c.test = .ok v) (path : List String) :
    (Comparison.mk path c.test v c.negated).WellTyped p.type := by
  cases hc with
  | check htest =>
    cases hv
    exact ⟨.check htest, nofun⟩
  | equal s negated => exact ⟨ValueType.suits_of_coerceFor hv (.inl rfl), fun _ => rfl⟩
  | flag b =>
    cases hv
    exact ⟨.flag b, nofun⟩
  | text s htest => exact ⟨ValueType.suits_of_coerceFor hv (.inr htest), nofun⟩
  | list items htest =>
    obtain ⟨vs, hvs, hv⟩ := bind_eq_ok_iff.1 hv
    cases hv
    refine ⟨.list htest fun v hv => ?_, nofun⟩
    obtain ⟨item, -, hitem⟩ := (exists_of_forall₂ (mapM_eq_ok_iff.1 hvs)).2 v hv
    exact ValueType.has_of_coerce hitem
  | range low high =>
    obtain ⟨vs, hvs, hv⟩ := bind_eq_ok_iff.1 hv
    cases hv
    rcases mapM_eq_ok_iff.1 hvs with _ | ⟨hlow, _ | ⟨hhigh, ⟨⟩⟩⟩
    exact ⟨.range (ValueType.has_of_coerce hlow) (ValueType.has_of_coerce hhigh), nofun⟩

/-- **Compiled comparisons are well typed.**  The path of every comparison of a compiled filter is
resolved to itself, the operand suits the test on values of the type that is found there, and only
equality is negated.  So no comparison fails because of the shape of its operand: the test compares
it with every value of the right shape, and what passes has such a shape. -/
theorem compile_well_typed {g : Graph} {root : g.Id} {tokens : List Token} {p : Predicate}
    (h : g.compile root tokens = .ok p) :
    ∀ c ∈ p.comparisons, ∃ r, g.resolvePath root c.path = .ok r ∧ r.segments = c.path ∧
      c.WellTyped r.type ∧ ∀ actual,
        (c.test.passes actual c.value = true → c.test.compares actual c.value = true) ∧
        (c.test.compares actual c.value = true ↔
          (c.test.isTextMatch ∨ c.test.isDatePart → ∃ s, actual = .string s) ∧
            (c.test.isOrder → actual.kindRank = c.value.kindRank)) := by
  intro c hc
  obtain ⟨l, -, hl⟩ := (exists_of_forall₂ (Graph.compares_of_compile h)).2 c hc
  cases hl with
  | @intro r conversion v hr hconversion hv =>
    have htyped := (Conversion.shaped_of hconversion).wellTyped hv r.segments
    exact ⟨r, Graph.resolvePath_segments hr, rfl, htyped, fun actual =>
      ⟨Test.compares_of_passes, htyped.suits.compares_iff actual⟩⟩

/-- A graph of one schema with a date, a text and notes of any type. -/
def visitGraph : Graph :=
  ⟨1, #v[⟨"Visit", none, "id", [⟨"id", .scalar .int⟩, ⟨"day", .scalar .date⟩,
    ⟨"title", .scalar .string⟩, ⟨"note", .scalar .any⟩]⟩]⟩

/-- Literals of several types, with a list of one integer that is written as a single value. -/
def visitTokens : List Token :=
  [.leaf ["day"] "year" (.scalar "2024"), .leaf ["pk"] "in" (.scalar "7"),
    .group .or [.leaf ["note"] "between" (.list ["false", "x"]),
      .leaf ["day"] "lte" (.scalar "2024-5-1"), .leaf ["title"] "neq" (.scalar "true")],
    .group .not [.leaf ["title"] "is" (.scalar "true"), .leaf ["day"] "like" (.scalar "2024*")]]

theorem compile_well_typed_visits :
    ∃ p, visitGraph.compile ⟨0, by decide⟩ visitTokens = .ok p ∧
      p.comparisons.map Comparison.value = [.int 2024, .array [.int 7],
        .array [.bool false, .string "x"], .string "2024-5-1", .string "true", .bool true,
        .string "2024"] ∧
      ∀ c ∈ p.comparisons, ∃ r, visitGraph.resolvePath ⟨0, by decide⟩ c.path = .ok r ∧
        r.segments = c.path ∧ c.WellTyped r.type := by
  have hp : visitGraph.compile ⟨0, by decide⟩ visitTokens =
      .ok (.and [.compare ⟨["day"], .year, .int 2024, false⟩,
        .compare ⟨["id"], .oneOf, .array [.int 7], false⟩,
        .or [.compare ⟨["note"], .range, .array [.bool false, .string "x"], false⟩,
          .compare ⟨["day"], .lessEqual, .string "2024-5-1", false⟩,
          .compare ⟨["title"], .equal, .string "true", true⟩],
        .not (.and [.compare ⟨["title"], .equal, .bool true, false⟩,
          .compare ⟨["day"], .startsWith, .string "2024", false⟩])]) := rfl
  refine ⟨_, hp, rfl, fun c hc => ?_⟩
  obtain ⟨r, hr, hsegments, htyped, -⟩ := compile_well_typed hp c hc
  exact ⟨r, hr, hsegments, htyped⟩

end Retrieval
