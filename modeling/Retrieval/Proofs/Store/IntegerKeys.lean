/-
# Integers as keys and operands

The tests of two integers tell their order, and keys that are different integers are apart, as far
as the integers are not confused: at least one of two confused ones does not fit into 64 bits with a
sign, and both have the same nearest binary64 number.
-/
import Mathlib.Data.Set.Defs
import Retrieval.Proofs.Store.History
import Retrieval.Proofs.Store.Selection

namespace Retrieval

open Number (Confused)

/-- Whether loose equality and the tests for order say of two integers what holds of them. -/
structure ComparedExactly (a b : Int) : Prop where
  equal : (Json.int a).looseEq (.int b) = true ↔ a = b
  greater : Test.greater.passes (.int a) (.int b) = true ↔ b < a
  greaterEqual : Test.greaterEqual.passes (.int a) (.int b) = true ↔ b ≤ a
  less : Test.less.passes (.int a) (.int b) = true ↔ a < b
  lessEqual : Test.lessEqual.passes (.int a) (.int b) = true ↔ a ≤ b

lemma Json.looseEq_int (a b : Int) :
    (Json.int a).looseEq (.int b) = true ↔ (Number.integer a).order (.integer b) = .eq := by
  simp [Json.int, Json.looseEq]

/-- Two integers are compared exactly if and only if they are not confused. -/
lemma comparedExactly_iff {a b : Int} : ComparedExactly a b ↔ ¬ Confused a b := by
  constructor
  · rintro hexact hconfused
    have horder : (Number.integer a).order (.integer b) = .eq := by
      rw [Number.order_integer_rounded hconfused.2, hconfused.1.2]
      exact Std.ReflOrd.compare_self
    exact hconfused.1.1 (hexact.equal.1 ((Json.looseEq_int a b).2 horder))
  · intro h
    have horder := Number.order_integer_eq_iff.2 h
    constructor
    · rw [Json.looseEq_int, horder]
      exact compare_eq_iff_eq
    all_goals
      simp [Test.passes_greater, Test.passes_greaterEqual, Test.passes_less, Test.passes_lessEqual,
        Json.order?, Json.int, horder, compare_lt_iff_lt, compare_gt_iff_gt]

/-- Integers of JSON texts are confused only within a distance of 2048. -/
lemma abs_sub_le_of_confused {a b : Int} (ha : a.natAbs < 2 ^ 64) (hb : b.natAbs < 2 ^ 64)
    (h : Confused a b) : |a - b| ≤ 2048 :=
  h.1.abs_sub_le (k := 11) ha hb

/-- A record whose key is none of the integers that are keys already, and confused with none of
them, is inserted. -/
lemma Store.insert_of_new_integer {g : Graph} {s : Store g} {schema : String} {i : g.Id}
    {row : Record} {b : Int} (hi : g.find? schema = some i)
    (hkey : Json.member? (g.schema i).primaryKey row = some (.int b))
    (hnew : ∀ old ∈ s.rows i, ∃ a, Json.member? (g.schema i).primaryKey old = some (.int a) ∧
      a ≠ b ∧ ¬ Confused a b) :
    ∃ t, s.insert schema (.object row) = .ok t := by
  refine Store.insert_eq_ok_iff_admits.2 ⟨i, row, hi, rfl, .int b, hkey, by simp [Json.int], ?_⟩
  intro old hold oldKey holdKey
  obtain ⟨a, ha, hne, hapart⟩ := hnew old hold
  rw [ha, Option.some.injEq] at holdKey
  subst holdKey
  rw [Bool.eq_false_iff]
  exact fun heq => hne ((comparedExactly_iff.2 hapart).equal.1 heq)

/-- Two integers are compared exactly if and only if they are not confused, and within 64 bits
without a sign only integers at a distance of at most 2048 are.  Loose equality is an equivalence of
integers that are not confused, and a record whose key is none of those of its schema is never taken
for a duplicate. -/
theorem integers_told_apart {S : Set Int} (hS : ∀ a ∈ S, ∀ b ∈ S, ¬ Confused a b) :
    (∀ a ∈ S, ∀ b ∈ S, ComparedExactly a b) ∧
    Equivalence (fun a b : S => (Json.int a).looseEq (.int b) = true) ∧
    (∀ {g : Graph} (s : Store g) {schema : String} {i : g.Id} {row : Record} {b : Int},
      g.find? schema = some i → b ∈ S →
      Json.member? (g.schema i).primaryKey row = some (.int b) →
      (∀ old ∈ s.rows i, ∃ a ∈ S,
        Json.member? (g.schema i).primaryKey old = some (.int a) ∧ a ≠ b) →
      ∃ t, s.insert schema (.object row) = .ok t) ∧
    ∀ a b : Int, (ComparedExactly a b ↔ ¬ Confused a b) ∧
      (a.natAbs < 2 ^ 64 → b.natAbs < 2 ^ 64 → Confused a b → |a - b| ≤ 2048) := by
  have hexact : ∀ a ∈ S, ∀ b ∈ S, ComparedExactly a b := fun a ha b hb =>
    comparedExactly_iff.2 (hS a ha b hb)
  have hiff : ∀ a b : S, (Json.int a).looseEq (.int b) = true ↔ a = b := fun a b =>
    (hexact a a.2 b b.2).equal.trans Subtype.coe_inj
  refine ⟨hexact, ?_, ?_, fun a b => ⟨comparedExactly_iff, abs_sub_le_of_confused⟩⟩
  · simp only [hiff]
    exact eq_equivalence
  · intro g s schema i row b hi hb hkey hold
    refine Store.insert_of_new_integer hi hkey fun old hmem => ?_
    obtain ⟨a, ha, hold, hne⟩ := hold old hmem
    exact ⟨a, hold, hne, hS a ha b hb⟩

theorem integers_told_apart_limits :
    ComparedExactly 9007199254740992 9007199254740993 ∧
    ComparedExactly 18446744073709551615 (-9223372036854775808) ∧
    ∃ t, (⟨#v[[[("id", .int 18446744073709551615)]]]⟩ : Store itemGraph).insert "Item"
      (.object [("id", .int 9223372036854775807)]) = .ok t := by
  have happ : ∀ a ∈ [-9223372036854775808, 9007199254740992, 9007199254740993,
      9223372036854775807, 18446744073709551615], ∀ b ∈ [-9223372036854775808, 9007199254740992,
      9007199254740993, 9223372036854775807, 18446744073709551615], ¬ Confused a b := by
    decide +kernel
  obtain ⟨hexact, -, hinsert, -⟩ := integers_told_apart (S := {n | n ∈ [-9223372036854775808,
    9007199254740992, 9007199254740993, 9223372036854775807, 18446744073709551615]}) happ
  refine ⟨hexact _ (by simp) _ (by simp), hexact _ (by simp) _ (by simp), ?_⟩
  refine hinsert _ (i := ⟨0, by decide⟩) (b := 9223372036854775807) find?_item (by simp) rfl ?_
  intro old hold
  obtain rfl : old = [("id", .int 18446744073709551615)] := List.mem_singleton.1 hold
  exact ⟨18446744073709551615, by simp, rfl, by decide⟩

/-- The first two integers beyond 64 bits with a sign are confused: they are loosely equal, and the
second one is refused as a key where the first one is a key. -/
theorem integers_confused :
    (9223372036854775808 : Int) ≠ 9223372036854775809 ∧
    (Json.int 9223372036854775808).looseEq (.int 9223372036854775809) = true ∧
    Test.less.passes (.int 9223372036854775808) (.int 9223372036854775809) = false ∧
    (⟨#v[[[("id", .int 9223372036854775808)]]]⟩ : Store itemGraph).insert "Item"
      (.object [("id", .int 9223372036854775809)]) =
        .error (.invalidRecord "Item" (.duplicateKey "id" "9223372036854775809")) := by
  refine ⟨by decide, by decide +kernel, by decide +kernel, ?_⟩
  have hfault : (⟨#v[[[("id", .int 9223372036854775808)]]]⟩ : Store itemGraph).fault? ⟨0, by decide⟩
      [("id", .int 9223372036854775809)] = some (.duplicateKey "id" "9223372036854775809") := by
    decide +kernel
  rw [Store.insert, Store.schemaNamed, find?_item]
  simp only [bind, Except.bind, hfault]

end Retrieval
