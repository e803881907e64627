/-
# Histories of insertions

A store that takes requests to insert records, and refuses some of them, keeps its records apart by
their keys: whatever was asked for before, a record is taken in exactly if it has a key of its own,
and each record is found by its key.
-/
import Retrieval.Proofs.Json.Compare
import Retrieval.Proofs.Store.Insertion

namespace Retrieval.Store

variable {g : Graph} {s t : Store g} {i : g.Id} {schema : String} {row : Record}

/-- The store after a request to insert a record.  A refused one leaves it as it was: a record is put
into its table behind every check, so that a refusal comes before any change and has no store of its
own. -/
def afterInsert (s : Store g) (schema : String) (row : Json) : Store g :=
  match s.insert schema row with
  | .ok t => t
  | .error _ => s

/-- The store after a history of requests to insert records under the names of schemas. -/
def afterHistory (s : Store g) (history : List (String × Json)) : Store g :=
  history.foldl (fun s request => s.afterInsert request.1 request.2) s

/-- Whether a record has a key of its own: one that is not null and not loosely equal to the key of
a record that its schema already has. -/
def Admits (s : Store g) (i : g.Id) (row : Record) : Prop :=
  ∃ key, Json.member? (g.schema i).primaryKey row = some key ∧ key ≠ .null ∧
    ∀ old ∈ s.rows i, ∀ oldKey, Json.member? (g.schema i).primaryKey old = some oldKey →
      oldKey.looseEq key = false

/-! ### One request -/

lemma findByKey?_eq_none_iff {key : Json} :
    s.findByKey? i key = none ↔
      ∀ old ∈ s.rows i, ∀ oldKey, Json.member? (g.schema i).primaryKey old = some oldKey →
        oldKey.looseEq key = false := by
  simp [findByKey?, hasMember, Option.any_eq_true]

/-- Nothing is wrong with a record exactly if it has a key of its own. -/
lemma fault?_eq_none_iff_admits : s.fault? i row = none ↔ s.Admits i row := by
  rw [fault?_eq_none_iff, Admits]
  simp only [findByKey?_eq_none_iff]

lemma insert_eq_ok_iff_admits {v : Json} :
    (∃ t, s.insert schema v = .ok t) ↔
      ∃ i row, g.find? schema = some i ∧ v = .object row ∧ s.Admits i row := by
  simp only [insert_eq_ok_iff, fault?_eq_none_iff_admits]
  constructor
  · rintro ⟨t, i, row, hi, rfl, hrow, -⟩
    exact ⟨i, row, hi, rfl, hrow⟩
  · rintro ⟨i, row, hi, rfl, hrow⟩
    exact ⟨_, i, row, hi, rfl, hrow, rfl⟩

/-- A record that is taken in is put behind those of its schema, and no other schema gets one. -/
lemma rows_afterInsert_of_admits (hi : g.find? schema = some i) (hrow : s.Admits i row)
    (j : g.Id) :
    (s.afterInsert schema (.object row)).rows j =
      if i = j then s.rows i ++ [row] else s.rows j := by
  have hok : s.insert schema (.object row) =
      .ok ⟨s.tables.set i (s.rows i ++ [row]) i.isLt⟩ :=
    insert_eq_ok_iff.2 ⟨i, row, hi, rfl, fault?_eq_none_iff_admits.2 hrow, rfl⟩
  rw [afterInsert, hok, rows_set]

lemma afterInsert_of_error {v : Json} {e : StoreError} (h : s.insert schema v = .error e) :
    s.afterInsert schema v = s := by
  rw [afterInsert, h]

/-! ### A history of requests -/

lemma Reachable.afterInsert (hs : s.Reachable) (schema : String) (v : Json) :
    (s.afterInsert schema v).Reachable := by
  rw [Store.afterInsert]
  split
  · next h => exact hs.insert h
  · exact hs

lemma Reachable.afterHistory (hs : s.Reachable) (history : List (String × Json)) :
    (s.afterHistory history).Reachable := by
  induction history generalizing s with
  | nil => exact hs
  | cons request history ih => exact ih (hs.afterInsert request.1 request.2)

/-- The stores that histories lead to are the ones that successful insertions lead to. -/
lemma reachable_iff_exists_history :
    s.Reachable ↔ ∃ history, (empty : Store g).afterHistory history = s := by
  constructor
  · intro h
    induction h with
    | empty => exact ⟨[], rfl⟩
    | @insert s t schema v _ h ih =>
      obtain ⟨history, rfl⟩ := ih
      refine ⟨history ++ [(schema, v)], ?_⟩
      simp only [Store.afterHistory, List.foldl_append, List.foldl_cons, List.foldl_nil] at h ⊢
      rw [Store.afterInsert, h]
  · rintro ⟨history, rfl⟩
    exact Reachable.empty.afterHistory history

/-! ### Keys -/

/-- Keys are apart in both directions, since loose equality has none. -/
lemma Keyed.pairwise_keys (hs : s.Keyed) (i : g.Id) :
    (s.rows i).Pairwise fun earlier later => ∀ key laterKey,
      Json.member? (g.schema i).primaryKey earlier = some key →
      Json.member? (g.schema i).primaryKey later = some laterKey →
        key.looseEq laterKey = false ∧ laterKey.looseEq key = false := by
  refine (hs.pairwise i).imp fun {earlier later} h key laterKey hkey hlater => ?_
  have hfree := h laterKey hlater
  rw [hasMember, hkey] at hfree
  exact ⟨hfree, by rw [Json.looseEq_comm]; exact hfree⟩

/-- A record is found by its key: no earlier one is found, and its key is equal to itself. -/
lemma Keyed.findByKey?_key (hs : s.Keyed) {key : Json} (hrow : row ∈ s.rows i)
    (hkey : Json.member? (g.schema i).primaryKey row = some key) :
    s.findByKey? i key = some row := by
  have hself : hasMember row (g.schema i).primaryKey key = true := by
    rw [hasMember, hkey]
    exact Json.looseEq_self key
  obtain ⟨before, after, hsplit⟩ := List.append_of_mem hrow
  have hpairwise := hs.pairwise i
  rw [hsplit, List.pairwise_append] at hpairwise
  rw [findByKey?, hsplit, List.find?_append, List.find?_cons, hself]
  have hnone : before.find? (hasMember · (g.schema i).primaryKey key) = none :=
    List.find?_eq_none.2 fun earlier hearlier => by
      simp [hpairwise.2.2 earlier hearlier row List.mem_cons_self key hkey]
  rw [hnone]
  rfl

/-! ### Integrity -/

/-- After any history of requests the next one succeeds exactly if its schema exists and it brings
an object with a key of its own, which then is put behind the records of that schema only; a refused
request leaves all records as they are.  All records have keys that are not null, no two of a schema
have loosely equal ones, and each record is found by its key. -/
theorem afterHistory_integrity (history : List (String × Json)) :
    let s := (empty : Store g).afterHistory history
    (∀ schema v, (∃ t, s.insert schema v = .ok t) ↔
      ∃ i row, g.find? schema = some i ∧ v = .object row ∧ s.Admits i row) ∧
    (∀ schema i row, g.find? schema = some i → s.Admits i row → ∀ j,
      (s.afterInsert schema (.object row)).rows j =
        if i = j then s.rows i ++ [row] else s.rows j) ∧
    (∀ schema v e, s.insert schema v = .error e → ∀ j,
      (s.afterInsert schema v).rows j = s.rows j) ∧
    (∀ i, ∀ row ∈ s.rows i, ∃ key, Json.member? (g.schema i).primaryKey row = some key ∧
      key ≠ .null ∧ s.findByKey? i key = some row) ∧
    ∀ i, (s.rows i).Pairwise fun earlier later => ∀ key laterKey,
      Json.member? (g.schema i).primaryKey earlier = some key →
      Json.member? (g.schema i).primaryKey later = some laterKey →
        key.looseEq laterKey = false ∧ laterKey.looseEq key = false := by
  intro s
  have hkeyed : s.Keyed := (Reachable.empty.afterHistory history).keyed
  refine ⟨fun schema v => insert_eq_ok_iff_admits, fun schema i row hi hrow j => ?_,
    fun schema v e he j => ?_, fun i row hrow => ?_, hkeyed.pairwise_keys⟩
  · exact rows_afterInsert_of_admits hi hrow j
  · rw [afterInsert_of_error he]
  · obtain ⟨key, hkey, hnull⟩ := hkeyed.exists_key i row hrow
    exact ⟨key, hkey, hnull, hkeyed.findByKey?_key hrow hkey⟩

end Retrieval.Store
