/-
# Stores as they are filled

A store begins empty and takes one record after the other.  What an insertion checks then holds of
all records: each of them has a key, which is not null, and finds no earlier record of its schema.
-/
import Mathlib.Tactic.Lemma
import Retrieval.Proofs.Outcome
import Retrieval.Store

namespace Retrieval

namespace Json

lemma looseEq_null (v : Json) : v.looseEq .null = v.isNull := by
  cases v <;> rfl

mutual

lemma same_self (v : Json) : same v v = true := by
  match v with
  | null => rfl
  | bool b => simp [same]
  | number n => cases n <;> simp [same, Number.same]
  | string s => simp [same]
  | array items => rw [same, sameItems_self items]
  | object members => rw [same, sameMembers_self members]

lemma sameItems_self (items : List Json) : sameItems items items = true := by
  match items with
  | [] => rfl
  | item :: rest => rw [sameItems, same_self item, sameItems_self rest, Bool.and_self]

lemma sameMembers_self (members : List (String × Json)) : sameMembers members members = true := by
  match members with
  | [] => rfl
  | (name, v) :: rest =>
    rw [sameMembers, same_self v, sameMembers_self rest]
    simp

end

/-- Every value is loosely equal to itself. -/
lemma looseEq_self (v : Json) : v.looseEq v = true := by
  cases v with
  | number n =>
    rw [looseEq, Number.order]
    cases n.int64? <;> simp
  | _ => exact same_self _

end Json

namespace Store

variable {g : Graph} {s t : Store g} {i j : g.Id}

/-- The stores that insertions lead to from the empty one. -/
inductive Reachable : Store g → Prop where
  | empty : Reachable empty
  | insert {s t : Store g} {schema : String} {row : Json} :
    Reachable s → s.insert schema row = .ok t → Reachable t

lemma reachable_insertAll {schema : String} {rows : List Json} (hs : s.Reachable)
    (h : s.insertAll schema rows = .ok t) : t.Reachable := by
  induction rows generalizing s with
  | nil =>
    cases h
    exact hs
  | cons row rest ih =>
    obtain ⟨u, hu, h⟩ := bind_eq_ok_iff.1 h
    exact ih (hs.insert hu) h

lemma reachable_insertTables {tables : List (String × Json)} (hs : s.Reachable)
    (h : s.insertTables tables = .ok t) : t.Reachable := by
  induction tables generalizing s with
  | nil =>
    cases h
    exact hs
  | cons table rest ih =>
    obtain ⟨schema, v⟩ := table
    cases v with
    | array rows =>
      obtain ⟨u, hu, h⟩ := bind_eq_ok_iff.1 h
      exact ih (reachable_insertAll hs hu) h
    | _ => cases h

/-- The store of a fixture is reached by insertions. -/
lemma reachable_ofFixture {v : Json} (h : ofFixture g v = .ok s) : s.Reachable := by
  cases v with
  | object tables => exact reachable_insertTables .empty h
  | _ => cases h

/-! ### A single insertion -/

lemma fault?_eq_none_iff {row : Record} :
    s.fault? i row = none ↔
      ∃ key, Json.member? (g.schema i).primaryKey row = some key ∧ key ≠ .null ∧
        s.findByKey? i key = none := by
  rw [fault?]
  cases hkey : Json.member? (g.schema i).primaryKey row with
  | none => simp
  | some key => cases key <;> simp

/-- A record is taken into the list of its schema if nothing is wrong with it. -/
lemma insert_eq_ok_iff {schema : String} {row : Json} :
    s.insert schema row = .ok t ↔
      ∃ i members, g.find? schema = some i ∧ row = .object members ∧ s.fault? i members = none ∧
        t = ⟨s.tables.set i (s.rows i ++ [members]) i.isLt⟩ := by
  rw [insert, bind_eq_ok_iff, schemaNamed]
  constructor
  · rintro ⟨i, hi, h⟩
    cases hfind : g.find? schema with
    | none =>
      rw [hfind] at hi
      cases hi
    | some j =>
      rw [hfind] at hi
      cases hi
      cases row with
      | object members =>
        dsimp only at h
        split at h
        · next hfault =>
          cases h
          exact ⟨i, members, rfl, rfl, hfault, rfl⟩
        · cases h
      | _ => cases h
  · rintro ⟨i, members, hi, rfl, hfault, rfl⟩
    exact ⟨i, by rw [hi], by simp only [hfault]⟩

lemma rows_empty : (empty : Store g).rows i = [] := by
  simp [empty, rows, Vector.get]

lemma rows_set (i j : g.Id) (rows : List Record) :
    (⟨s.tables.set i rows i.isLt⟩ : Store g).rows j = if i = j then rows else s.rows j := by
  simp only [Fin.ext_iff]
  exact Vector.getElem_set i.isLt j.isLt

/-! ### Keys -/

/-- The records of every schema have keys, and no record has the key of an earlier one. -/
structure Keyed (s : Store g) : Prop where
  exists_key : ∀ i, ∀ row ∈ s.rows i, ∃ key,
    Json.member? (g.schema i).primaryKey row = some key ∧ key ≠ .null
  pairwise : ∀ i, (s.rows i).Pairwise fun earlier later =>
    ∀ key, Json.member? (g.schema i).primaryKey later = some key →
      hasMember earlier (g.schema i).primaryKey key = false

lemma Keyed.insert {schema : String} {row : Json} (hs : s.Keyed)
    (h : s.insert schema row = .ok t) : t.Keyed := by
  obtain ⟨i, members, -, rfl, hfault, rfl⟩ := insert_eq_ok_iff.1 h
  obtain ⟨key, hkey, hnull, hnew⟩ := fault?_eq_none_iff.1 hfault
  constructor
  · intro j old hold
    rw [rows_set] at hold
    split at hold
    · next hij =>
      subst hij
      rcases List.mem_append.1 hold with hold | hold
      · exact hs.exists_key i old hold
      · rw [List.mem_singleton.1 hold]
        exact ⟨key, hkey, hnull⟩
    · exact hs.exists_key j old hold
  · intro j
    rw [rows_set]
    split
    · next hij =>
      subst hij
      rw [List.pairwise_append]
      refine ⟨hs.pairwise i, List.pairwise_singleton _ _, ?_⟩
      intro old hold new hnewest key' hkey'
      obtain rfl := List.mem_singleton.1 hnewest
      rw [hkey, Option.some.injEq] at hkey'
      subst hkey'
      -- the key of the new record was looked for among the old ones
      simpa using List.find?_eq_none.1 hnew old hold
    · exact hs.pairwise j

/-- Whatever store is reached has records with keys of their own. -/
lemma Reachable.keyed (h : s.Reachable) : s.Keyed := by
  induction h with
  | empty => exact ⟨by simp [rows_empty], by simp [rows_empty]⟩
  | insert _ h ih => exact ih.insert h

/-- No record is stored twice: it would be found by its own key. -/
lemma Keyed.nodup_rows (hs : s.Keyed) (i : g.Id) : (s.rows i).Nodup := by
  refine (hs.pairwise i).imp_of_mem fun {earlier later} _ hlater hfree => ?_
  rintro rfl
  obtain ⟨key, hkey, -⟩ := hs.exists_key i earlier hlater
  have hself : hasMember earlier (g.schema i).primaryKey key = true := by
    rw [hasMember, hkey]
    exact Json.looseEq_self key
  rw [hfree key hkey] at hself
  cases hself

/-- Nothing has the key null. -/
lemma Keyed.findByKey?_null (hs : s.Keyed) (i : g.Id) : s.findByKey? i .null = none := by
  refine List.find?_eq_none.2 fun row hrow => ?_
  obtain ⟨key, hkey, hnull⟩ := hs.exists_key i row hrow
  rw [hasMember, hkey]
  cases key <;> simp_all [Json.looseEq_null, Json.isNull]

end Store

end Retrieval
