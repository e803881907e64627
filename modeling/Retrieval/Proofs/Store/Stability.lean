/-
# Sorting is stable

Rows are told apart by the first key under which their values do not tie, and a descending key turns
round its own comparison only.  Sorted rows are the given ones in another order.  None of them comes
behind a row that it precedes, and rows that tie under all keys stay in the order in which they were
given.
-/
import Retrieval.Proofs.Store.Sorting

namespace Retrieval

section Rows

variable {α β : Type} (keys : List OrderKey) (lookup : α → List String → Option Json)

/-! ### Rows under keys -/

/-- Whether the values of two rows tie under a key. -/
def Ties (k : OrderKey) (a b : α) : Prop :=
  Json.rank? (lookup a k.path) (lookup b k.path) = .eq

/-- Whether a row comes first under a key: its value is the lower one, or the higher one if the key
is descending. -/
def ComesFirst (k : OrderKey) (a b : α) : Prop :=
  if k.descending then Json.rank? (lookup b k.path) (lookup a k.path) = .lt
  else Json.rank? (lookup a k.path) (lookup b k.path) = .lt

/-- Whether a row precedes another one: it comes first under the first key under which the two do
not tie. -/
inductive Precedes : List OrderKey → α → α → Prop where
  | first {k : OrderKey} {rest : List OrderKey} {a b : α} :
    ComesFirst lookup k a b → Precedes (k :: rest) a b
  | later {k : OrderKey} {rest : List OrderKey} {a b : α} :
    Ties lookup k a b → Precedes rest a b → Precedes (k :: rest) a b

variable {keys lookup} {a b : α}

lemma compareUnder_eq_eq_iff {k : OrderKey} :
    compareUnder lookup k a b = .eq ↔ Ties lookup k a b := by
  rw [compareUnder, Ties]
  split
  · exact Ordering.swap_eq_eq
  · rfl

lemma compareUnder_eq_lt_iff {k : OrderKey} :
    compareUnder lookup k a b = .lt ↔ ComesFirst lookup k a b := by
  rw [compareUnder, ComesFirst]
  split
  · rw [← Std.OrientedCmp.eq_swap]
  · rfl

lemma compareRows_eq_eq_iff :
    compareRows keys lookup a b = .eq ↔ ∀ k ∈ keys, Ties lookup k a b := by
  induction keys with
  | nil => simp [compareRows, compareByKeys]
  | cons k keys ih =>
    rw [compareRows_cons, compareLex, Ordering.then_eq_eq, ih, compareUnder_eq_eq_iff,
      List.forall_mem_cons]

lemma compareRows_eq_lt_iff :
    compareRows keys lookup a b = .lt ↔ Precedes lookup keys a b := by
  induction keys with
  | nil =>
    constructor
    · intro h
      cases h
    · rintro ⟨⟩
  | cons k keys ih =>
    rw [compareRows_cons, compareLex, Ordering.then_eq_lt, ih, compareUnder_eq_lt_iff,
      compareUnder_eq_eq_iff]
    constructor
    · rintro (hfirst | ⟨hties, hrest⟩)
      · exact .first hfirst
      · exact .later hties hrest
    · rintro (hfirst | ⟨hties, hrest⟩)
      · exact .inl hfirst
      · exact .inr ⟨hties, hrest⟩

/-! ### Sorted rows -/

variable (keys lookup)

lemma sortRows_perm (rows : List α) : (sortRows keys lookup rows).Perm rows :=
  List.mergeSort_perm rows _

/-- Sorting what rows are made from sorts the rows. -/
lemma sortRows_map (f : β → α) (sources : List β) :
    sortRows keys lookup (sources.map f) =
      (sortRows keys (fun source => lookup (f source)) sources).map f := by
  rw [sortRows, sortRows, List.map_mergeSort]
  intro _ _ _ _
  rfl

/-- The rows that tie with a row are left in their order. -/
lemma filter_ties_sortRows (rows : List α) (a : α) :
    (sortRows keys lookup rows).filter (compareRows keys lookup a · = .eq) =
      rows.filter (compareRows keys lookup a · = .eq) := by
  have htied : (rows.filter (compareRows keys lookup a · = .eq)).Pairwise fun b c =>
      decide (compareRows keys lookup b c ≠ .gt) = true := by
    refine List.pairwise_of_forall_mem_list fun b hb c hc => ?_
    rw [List.mem_filter, decide_eq_true_eq] at hb hc
    rw [← Std.TransCmp.congr_left hb.2, hc.2]
    rfl
  -- what is sorted already is part of what is sorted
  have hpart : (rows.filter (compareRows keys lookup a · = .eq)).Sublist
      (sortRows keys lookup rows) :=
    List.sublist_mergeSort (compareRows_ne_gt_trans keys lookup)
      (compareRows_ne_gt_total keys lookup) htied List.filter_sublist
  have hfiltered := hpart.filter (compareRows keys lookup a · = .eq)
  simp only [List.filter_filter, Bool.and_self] at hfiltered
  have hlength := ((sortRows_perm keys lookup rows).filter
    (compareRows keys lookup a · = .eq)).length_eq
  exact (hfiltered.eq_of_length hlength.symm).symm

/-- Rows that stand in increasing order of some number keep this order where they tie. -/
lemma pairwise_lt_sortRows (rank : α → Nat) {rows : List α}
    (h : rows.Pairwise fun a b => rank a < rank b) :
    (sortRows keys lookup rows).Pairwise fun a b =>
      compareRows keys lookup a b = .eq → rank a < rank b := by
  refine List.pairwise_iff_forall_sublist.2 fun {a b} hpair hties => ?_
  have hself : compareRows keys lookup a a = .eq := Std.ReflCmp.compare_self
  have hfiltered := hpair.filter (compareRows keys lookup a · = .eq)
  rw [filter_ties_sortRows] at hfiltered
  have hboth : [a, b].filter (compareRows keys lookup a · = .eq) = [a, b] := by
    simp [hself, hties]
  rw [hboth] at hfiltered
  exact List.pairwise_iff_forall_sublist.1 h (hfiltered.trans List.filter_sublist)

end Rows

/-- **Sorting is stable.**  Ranking values that may be absent is an order up to ties.  Sorted rows
are the given ones, each taken from one position; of two of them the later one never precedes the
earlier one, and if the two tie under every key, they stand in the order in which they were given. -/
theorem sortRows_stable {α : Type} (keys : List OrderKey)
    (lookup : α → List String → Option Json) (rows : List α) :
    ((∀ v, Json.rank? v v = .eq) ∧
      (∀ v w, Json.rank? w v = (Json.rank? v w).swap) ∧
      ∀ u v w, (Json.rank? u v).isLE → (Json.rank? v w).isLE → (Json.rank? u w).isLE) ∧
    (sortRows keys lookup rows).Perm rows ∧
    ∃ positions : List (Fin rows.length), positions.Perm (List.finRange rows.length) ∧
      sortRows keys lookup rows = positions.map rows.get ∧
      positions.Pairwise fun i j =>
        ¬ Precedes lookup keys (rows.get j) (rows.get i) ∧
          ((∀ k ∈ keys, Ties lookup k (rows.get i) (rows.get j)) → i < j) := by
  refine ⟨⟨fun v => Std.ReflCmp.compare_self, fun v w => Std.OrientedCmp.eq_swap,
    fun u v w => Std.TransCmp.isLE_trans⟩, sortRows_perm keys lookup rows, ?_⟩
  -- the positions are sorted as the rows at them are
  have hsorted := pairwise_sortRows keys (fun i => lookup (rows.get i)) (List.finRange rows.length)
  have hstable := pairwise_lt_sortRows keys (fun i => lookup (rows.get i)) Fin.val
    (List.pairwise_lt_finRange rows.length)
  refine ⟨_, sortRows_perm keys (fun i => lookup (rows.get i)) (List.finRange rows.length), ?_,
    (hsorted.and hstable).imp fun {i j} ⟨hle, hlt⟩ => ⟨fun hprecedes => ?_, fun hties => ?_⟩⟩
  · rw [← sortRows_map keys lookup rows.get, List.map_get_finRange]
  · have hswap : compareRows keys lookup (rows.get i) (rows.get j) =
        (compareRows keys lookup (rows.get j) (rows.get i)).swap := Std.OrientedCmp.eq_swap
    rw [compareRows_eq_lt_iff.2 hprecedes, Ordering.swap_lt] at hswap
    exact Ordering.isLE_iff_ne_gt.1 hle hswap
  · exact hlt (compareRows_eq_eq_iff.2 hties)

/-- Under a descending key the rows that tie are not turned round. -/
example :
    sortRows [⟨["tame"], true⟩] (fun (row : String × Option Bool) _ => row.2.map Json.bool)
      [("Rex", none), ("Tom", some false), ("Pia", some true), ("Kai", some false)] =
      [("Pia", some true), ("Tom", some false), ("Kai", some false), ("Rex", none)] := by
  cbv

end Retrieval
