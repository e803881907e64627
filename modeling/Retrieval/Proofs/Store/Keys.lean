/-
# Records with simple keys

Where keys are texts or integers of 64 bits, two keys are loosely equal only if they are the same, so
a key has at most one record.  The records whose attribute passes the test for equality with an
integer are then the ones that the store itself finds by that key, or as the records that refer to
its owner.
-/
import Retrieval.Proofs.Json.Compare
import Retrieval.Proofs.Link
import Retrieval.Proofs.Store.Embedding
import Retrieval.Proofs.Store.Insertion

namespace Retrieval

/-- Whether a value is a text or an integer of 64 bits. -/
def Json.isKey : Json → Bool
  | .string _ => true
  | .number n => n.int64?.isSome
  | _ => false

lemma Json.isKey_int {n : Int} (h : InInt64 n) : (Json.int n).isKey := by
  rw [Json.int, Json.isKey, show (Number.integer n).int64? = some n from if_pos h]
  rfl

/-- A key is a text or an integer. -/
lemma Json.isKey_iff {v : Json} :
    v.isKey ↔ (∃ text, v = .string text) ∨ ∃ n, v = .int n ∧ InInt64 n := by
  constructor
  · intro h
    cases v with
    | string text => exact .inl ⟨text, rfl⟩
    | number x =>
      obtain ⟨n, hn⟩ := Option.isSome_iff_exists.1 h
      exact .inr ⟨n, Json.int64?_eq_some_iff.1 hn⟩
    | _ => cases h
  · rintro (⟨text, rfl⟩ | ⟨n, rfl, hn⟩)
    · rfl
    · exact Json.isKey_int hn

/-- Keys are loosely equal only if they are the same. -/
lemma Json.looseEq_iff_eq {v w : Json} (hv : v.isKey) (hw : w.isKey) :
    v.looseEq w = true ↔ v = w := by
  obtain ⟨text, rfl⟩ | ⟨m, rfl, hm⟩ := Json.isKey_iff.1 hv <;>
    obtain ⟨text', rfl⟩ | ⟨n, rfl, hn⟩ := Json.isKey_iff.1 hw
  · simp [Json.looseEq, Json.same]
  · simp [Json.looseEq, Json.same, Json.int]
  · simp [Json.looseEq, Json.same, Json.int]
  · simp [Json.looseEq, Json.int, Number.order_integer hm hn]

/-- If no two members of a list pass a test, those that pass are the first one that does. -/
lemma filter_eq_toList_find? {α : Type} {p : α → Bool} {as : List α}
    (h : as.Pairwise fun a b => p a = true → p b = false) :
    as.filter p = (as.find? p).toList := by
  induction as with
  | nil => rfl
  | cons a as ih =>
    obtain ⟨hhead, htail⟩ := List.pairwise_cons.1 h
    by_cases ha : p a = true
    · have hnone : as.filter p = [] := List.filter_eq_nil_iff.2 fun b hb => by simp [hhead b hb ha]
      simp [ha, hnone]
    · simp [ha, ih htail]

namespace Store

variable {g : Graph} {s : Store g} {i : g.Id} {row : Record} {name : String}
  {r : Relation g.size}

/-- The keys of a store are texts or integers of 64 bits, and its to-one relations hold such keys or
null. -/
structure HoldsSimpleKeys (s : Store g) : Prop where
  key : ∀ i, ∀ row ∈ s.rows i, (Json.member? (g.schema i).primaryKey row).any Json.isKey
  toOne : ∀ i, ∀ row ∈ s.rows i, ∀ named ∈ (g.schema i).relations, named.2.cardinality = .toOne →
    (Json.member? named.1 row).all fun v => v.isNull || v.isKey

/-- The keys of a store are integers of 64 bits, its to-one relations hold such integers or null,
and its to-many relations hold nothing. -/
structure HoldsIntegers (s : Store g) : Prop where
  key : ∀ i, ∀ row ∈ s.rows i, ((Json.member? (g.schema i).primaryKey row).bind Json.int64?).isSome
  toOne : ∀ i, ∀ row ∈ s.rows i, ∀ named ∈ (g.schema i).relations, named.2.cardinality = .toOne →
    (Json.member? named.1 row).all fun v => v.isNull || v.int64?.isSome
  toMany : ∀ i, ∀ row ∈ s.rows i, ∀ named ∈ (g.schema i).relations,
    named.2.cardinality = .toMany → (Json.member? named.1 row).isNone

lemma HoldsIntegers.exists_key (hs : s.HoldsIntegers) (hrow : row ∈ s.rows i) :
    ∃ n, Json.member? (g.schema i).primaryKey row = some (.int n) ∧ InInt64 n := by
  obtain ⟨n, hn⟩ := Option.isSome_iff_exists.1 (hs.key i row hrow)
  obtain ⟨v, hv, hint⟩ := Option.bind_eq_some_iff.1 hn
  obtain ⟨rfl, hrange⟩ := Json.int64?_eq_some_iff.1 hint
  exact ⟨n, hv, hrange⟩

/-- A to-one relation that holds anything but null holds an integer. -/
lemma HoldsIntegers.exists_reference (hs : s.HoldsIntegers) (hrow : row ∈ s.rows i)
    (hr : (name, r) ∈ (g.schema i).relations) (hc : r.cardinality = .toOne) {v : Json}
    (hv : Json.member? name row = some v) : v = .null ∨ ∃ n, v = .int n ∧ InInt64 n := by
  have hall := hs.toOne i row hrow (name, r) hr hc
  rw [hv, Option.all_some, Bool.or_eq_true] at hall
  rcases hall with hnull | hint
  · left
    cases v <;> first | rfl | cases hnull
  · right
    obtain ⟨n, hn⟩ := Option.isSome_iff_exists.1 hint
    obtain ⟨rfl, hrange⟩ := Json.int64?_eq_some_iff.1 hn
    exact ⟨n, rfl, hrange⟩

lemma HoldsIntegers.simple (hs : s.HoldsIntegers) : s.HoldsSimpleKeys where
  key i row hrow := by
    obtain ⟨n, hkey, hn⟩ := hs.exists_key hrow
    rw [hkey]
    exact Json.isKey_int hn
  toOne i row hrow := by
    rintro ⟨name, r⟩ hr hc
    cases hv : Json.member? name row with
    | none => rfl
    | some v =>
      obtain rfl | ⟨n, rfl, hn⟩ := hs.exists_reference hrow hr hc hv
      · rfl
      · simp [Json.isKey_int hn]

lemma HoldsSimpleKeys.exists_key (hs : s.HoldsSimpleKeys) (hrow : row ∈ s.rows i) :
    ∃ key, Json.member? (g.schema i).primaryKey row = some key ∧ key.isKey := by
  simpa [Option.any_eq_true] using hs.key i row hrow

/-- A to-one relation that holds anything but null holds a key. -/
lemma HoldsSimpleKeys.null_or_isKey (hs : s.HoldsSimpleKeys) (hrow : row ∈ s.rows i)
    (hr : (name, r) ∈ (g.schema i).relations) (hc : r.cardinality = .toOne) {v : Json}
    (hv : Json.member? name row = some v) : v = .null ∨ v.isKey := by
  have hall := hs.toOne i row hrow (name, r) hr hc
  rw [hv, Option.all_some, Bool.or_eq_true] at hall
  refine hall.imp_left fun hnull => ?_
  cases v <;> first | rfl | cases hnull

/-! ### Finding by a key -/

/-- A record has a key exactly if that is the value under its primary key. -/
lemma HoldsSimpleKeys.hasMember_iff (hs : s.HoldsSimpleKeys) (hrow : row ∈ s.rows i) {key : Json}
    (hkey : key.isKey) :
    hasMember row (g.schema i).primaryKey key = true ↔
      Json.member? (g.schema i).primaryKey row = some key := by
  obtain ⟨own, hown, hsimple⟩ := hs.exists_key hrow
  rw [hasMember, hown, Option.any_some, Json.looseEq_iff_eq hsimple hkey, Option.some.injEq]

/-- The records of a key are the one that is found by it. -/
lemma HoldsSimpleKeys.filter_key (hs : s.HoldsSimpleKeys) (hkeyed : s.Keyed) {key : Json}
    (hkey : key.isKey) (i : g.Id) :
    (s.rows i).filter (hasMember · (g.schema i).primaryKey key) = (s.findByKey? i key).toList := by
  refine filter_eq_toList_find? ?_
  refine (hkeyed.pairwise i).imp_of_mem fun {earlier later} _ hlater h hearlier => ?_
  rw [Bool.eq_false_iff]
  intro hfound
  -- the later record has no key that the earlier one has
  have hfree := h _ ((hs.hasMember_iff hlater hkey).1 hfound)
  rw [hearlier] at hfree
  cases hfree

lemma HoldsSimpleKeys.findByKey?_eq_some (hs : s.HoldsSimpleKeys) {key : Json} (hkey : key.isKey)
    (h : s.findByKey? i key = some row) :
    row ∈ s.rows i ∧ Json.member? (g.schema i).primaryKey row = some key := by
  have hrow : row ∈ s.rows i := List.mem_of_find?_eq_some h
  have hfound : hasMember row (g.schema i).primaryKey key = true := by
    simpa using List.find?_some h
  exact ⟨hrow, (hs.hasMember_iff hrow hkey).1 hfound⟩

/-! ### Comparing with a key -/

lemma pathValues_takesKey (h : g.takesKey i name) :
    s.pathValues i row [name] = [(Json.member? name row).getD .null] := by
  rw [pathValues, values]
  obtain ha | ⟨r, ha, hc⟩ := Graph.takesKey_iff.1 h
  · simp [ha]
  · simp [ha, hc]

/-- The test for equality with an integer passes for the records that hold it. -/
lemma matching_equal (h : g.takesKey i name) (n : Int) :
    s.matching i (some (.compare ⟨[name], .equal, .int n, false⟩)) =
      (s.rows i).filter (hasMember · name (.int n)) := by
  refine List.filter_congr fun row _ => ?_
  rw [selects, Predicate.holds, pathValues_takesKey h, hasMember]
  cases Json.member? name row with
  | none => rfl
  | some v => simp [Comparison.holdsOf, Test.passes]

end Store

end Retrieval
