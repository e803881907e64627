/-
# Pages of records

Order, offset and limit of a selection only choose among the stored records, and embedding changes
the chosen ones one by one.
-/
import Mathlib.Tactic.Lemma
import Retrieval.Store

namespace Retrieval

/-- The first pages of a list, put together, are the list up to the end of the last of them. -/
lemma flatMap_range_pages {α : Type} (as : List α) (limit n : Nat) :
    (List.range n).flatMap (fun k => (as.drop (k * limit)).take limit) = as.take (n * limit) := by
  induction n with
  | zero => simp
  | succ n ih =>
    rw [List.range_succ, List.flatMap_append, ih, Nat.succ_mul, List.take_add]
    simp

/-- The pages that begin within a list or at its end, put together, are the list. -/
lemma flatMap_pages {α : Type} (as : List α) {limit : Nat} (h : 1 ≤ limit) :
    (List.range (as.length / limit + 1)).flatMap (fun k => (as.drop (k * limit)).take limit) =
      as := by
  rw [flatMap_range_pages, List.take_of_length_le]
  have hend := Nat.lt_mul_div_succ as.length h
  rw [Nat.mul_comm] at hend
  exact Nat.le_of_lt hend

namespace Store

lemma sortRows_nil {α : Type} (lookup : α → List String → Option Json) (rows : List α) :
    sortRows [] lookup rows = rows := by
  -- without keys all rows compare equal, and sorting is stable
  refine List.mergeSort_of_pairwise (List.pairwise_of_forall fun _ _ => ?_)
  simp [compareRows, compareByKeys]

variable {g : Graph} (s : Store g) {schema : String} {i : g.Id} (q : Selection g)

lemma fetch_eq (hi : g.find? schema = some i) : s.fetch schema q = .ok (s.page i q) := by
  rw [fetch, schemaNamed, hi]
  rfl

lemma ordered_nil (predicate : Option Predicate) (offset : Nat) (limit : Option Nat)
    (plan : Option (Plan g)) :
    s.ordered i ⟨predicate, [], offset, limit, plan⟩ = s.matching i predicate := sortRows_nil _ _

lemma matching_none : s.matching i none = s.rows i := List.filter_eq_self.2 fun _ _ => rfl

/-- Without a condition, an order and a page all stored records are fetched. -/
lemma fetch_all (hi : g.find? schema = some i) :
    s.fetch schema ⟨none, [], 0, none, none⟩ = .ok (s.rows i) := by
  rw [s.fetch_eq _ hi]
  simp [page, ordered_nil, matching_none]

lemma stored_of_mem_ordered {row : Record} (h : row ∈ s.ordered i q) : row ∈ s.rows i :=
  (List.mem_filter.1 (List.mem_mergeSort.1 h)).1

/-- The records of a page are stored ones. -/
lemma stored_of_mem_page {row : Record} (h : row ∈ s.page i { q with plan := none }) :
    row ∈ s.rows i := by
  refine s.stored_of_mem_ordered { q with plan := none } ?_
  simp only [page] at h
  split at h
  · exact List.mem_of_mem_drop (List.mem_of_mem_take h)
  · exact List.mem_of_mem_drop h

lemma page_plan (plan : Plan g) :
    s.page i { q with plan := some plan } =
      (s.page i { q with plan := none }).map (s.embed i · plan.relations) := rfl

/-- Without an offset and a limit all selected records are fetched, in order. -/
lemma fetch_unpaged (hi : g.find? schema = some i) (predicate : Option Predicate)
    (order : List OrderKey) :
    s.fetch schema ⟨predicate, order, 0, none, none⟩ =
      .ok (s.ordered i ⟨predicate, order, 0, none, none⟩) := s.fetch_eq _ hi

/-- Ordering the selected records neither loses nor repeats one. -/
lemma ordered_perm : (s.ordered i q).Perm (s.matching i q.predicate) := List.mergeSort_perm _ _

lemma mem_ordered_iff {row : Record} :
    row ∈ s.ordered i q ↔ row ∈ s.rows i ∧ s.selects i q.predicate row := by
  rw [(s.ordered_perm q).mem_iff, matching, List.mem_filter]

/-! ### The only record -/

lemma requireFilter_eq (schema : String) (predicate : Option Predicate) :
    requireFilter schema predicate =
      if predicate.all Predicate.isAlways then .error (.noFilterProvided schema) else .ok () := by
  cases predicate <;> rfl

/-- What is done to every record is done to the only one. -/
lemma only_map (f : Record → Record) (rows : List Record) :
    only schema (rows.map f) = (only schema rows).map f := by
  match rows with
  | [] => rfl
  | [_] => rfl
  | _ :: _ :: _ => simp [only, Except.map]

lemma only_of_two_le {rows : List Record} (h : 2 ≤ rows.length) :
    only schema rows = .error (.multipleRecordsFound schema rows.length) := by
  match rows with
  | [] => simp at h
  | [_] => simp at h
  | _ :: _ :: _ => rfl

end Store

end Retrieval
