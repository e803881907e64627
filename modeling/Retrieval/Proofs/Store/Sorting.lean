/-
# Sorted records and filters

Sorting ranks the values of records, and filters compare values.  Both are orders of the same
values, written separately: integers of 64 bits are ranked by their nearest binary64 numbers and
compared as they are.  So the two agree except about integers that collide.
-/
import Retrieval.Proofs.Json.Compare
import Retrieval.Proofs.Store.Embedding
import Retrieval.Proofs.Store.Selection

namespace Retrieval

namespace Json

/-! ### Values -/

/-- Two integers of 64 bits, two texts or two truth values. -/
inductive SameKind : Json → Json → Prop where
  | integers {a b : Int} (ha : InInt64 a) (hb : InInt64 b) : SameKind (int a) (int b)
  | texts (a b : String) : SameKind (string a) (string b)
  | truths (a b : Bool) : SameKind (bool a) (bool b)

/-- Whether two values are integers that collide. -/
def Collapsed (v w : Json) : Prop := ∃ a b, v = int a ∧ w = int b ∧ Collide a b

/-- Whether ranking says of two values what their comparisons say. -/
structure RankedAsCompared (v w : Json) : Prop where
  less : v.rank w = .lt ↔ Test.less.passes v w = true
  equal : v.rank w = .eq ↔ Test.equal.passes v w = true
  greater : v.rank w = .gt ↔ Test.greater.passes v w = true

lemma collapsed_int_iff {a b : Int} : (int a).Collapsed (int b) ↔ Collide a b := by
  simp [Collapsed, int]

/-- Values that are ordered are ranked as they are ordered, except for integers that collide. -/
lemma rank_eq_of_order? {v w : Json} {o : Ordering} (ho : v.order? w = some o)
    (h : ¬ v.Collapsed w) : v.rank w = o := by
  cases v <;> cases w <;> try cases ho
  case number.number.refl m n =>
    refine (Number.order_eq_compare_units ?_).symm
    rintro a b rfl rfl hcollide
    exact h ⟨a, b, rfl, rfl, hcollide⟩
  all_goals rfl

lemma SameKind.order?_eq_some_eq_iff {v w : Json} (h : v.SameKind w) :
    v.order? w = some .eq ↔ v.looseEq w = true := by
  cases h with
  | integers ha hb => simp [order?, looseEq, int]
  | texts a b => simp [order?, looseEq, same]
  | truths a b => simp [order?, looseEq, same]

lemma SameKind.exists_order? {v w : Json} (h : v.SameKind w) : ∃ o, v.order? w = some o := by
  cases h <;> exact ⟨_, rfl⟩

/-- Two values of one kind are ranked as they are compared if and only if they are no integers that
collide. -/
lemma SameKind.rankedAsCompared_iff {v w : Json} (h : v.SameKind w) :
    v.RankedAsCompared w ↔ ¬ v.Collapsed w := by
  obtain ⟨o, ho⟩ := h.exists_order?
  constructor
  · rintro hrank ⟨a, b, rfl, rfl, hcollide⟩
    -- ranking finds no difference, so the two are loosely equal
    have hequal : (int a).rank (int b) = .eq := by
      rw [int, int, rank, Number.units, Number.units, hcollide.2]
      exact Std.ReflOrd.compare_self
    have hloose := h.order?_eq_some_eq_iff.2 (hrank.equal.1 hequal)
    cases h with
    | integers ha hb =>
      rw [int, int, order?, Number.order_integer ha hb, Option.some.injEq] at hloose
      exact hcollide.1 (compare_eq_iff_eq.1 hloose)
  · intro hcollapsed
    have hrank := rank_eq_of_order? ho hcollapsed
    rw [← hrank] at ho
    constructor
    · simp [Test.passes_less, ho]
    · rw [Test.passes_equal, ← h.order?_eq_some_eq_iff, ho, Option.some.injEq]
    · simp [Test.passes_greater, ho]

end Json

/-! ### Rows -/

section Rows

variable {α : Type} (keys : List OrderKey) (lookup : α → List String → Option Json)

/-- The order of two rows under one key. -/
def compareUnder (k : OrderKey) (a b : α) : Ordering :=
  if k.descending then (Json.rank? (lookup a k.path) (lookup b k.path)).swap
  else Json.rank? (lookup a k.path) (lookup b k.path)

lemma compareRows_cons (k : OrderKey) :
    compareRows (k :: keys) lookup =
      compareLex (compareUnder lookup k) (compareRows keys lookup) := rfl

instance (k : OrderKey) : Std.TransCmp (compareUnder lookup k) where
  eq_swap {a b} := by
    have hswap : Json.rank? (lookup a k.path) (lookup b k.path) =
        (Json.rank? (lookup b k.path) (lookup a k.path)).swap := Std.OrientedCmp.eq_swap
    rw [compareUnder, compareUnder, hswap]
    cases k.descending <;> rfl
  isLE_trans {a b c} hab hbc := by
    have htrans : ∀ {u v w}, (Json.rank? u v).isLE → (Json.rank? v w).isLE →
        (Json.rank? u w).isLE := Std.TransCmp.isLE_trans
    rw [compareUnder] at hab hbc ⊢
    by_cases hk : k.descending
    · -- turned round, the comparison is that of the other row with the one
      rw [if_pos hk, ← Std.OrientedCmp.eq_swap] at hab hbc ⊢
      exact htrans hbc hab
    · rw [if_neg hk] at hab hbc ⊢
      exact htrans hab hbc

/-- Comparing rows by keys is an order up to ties. -/
instance : Std.TransCmp (compareRows keys lookup) := by
  induction keys with
  | nil => exact { eq_swap := rfl, isLE_trans := fun _ _ => rfl }
  | cons k keys ih =>
    rw [compareRows_cons]
    infer_instance

/-- Rows that are not above each other are so along a chain of them. -/
lemma compareRows_ne_gt_trans (a b c : α) (hab : decide (compareRows keys lookup a b ≠ .gt))
    (hbc : decide (compareRows keys lookup b c ≠ .gt)) :
    decide (compareRows keys lookup a c ≠ .gt) := by
  simp only [decide_eq_true_eq, ← Ordering.isLE_iff_ne_gt] at hab hbc ⊢
  exact Std.TransCmp.isLE_trans hab hbc

/-- Of two rows one is not above the other. -/
lemma compareRows_ne_gt_total (a b : α) :
    decide (compareRows keys lookup a b ≠ .gt) || decide (compareRows keys lookup b a ≠ .gt) := by
  have hswap : compareRows keys lookup b a = (compareRows keys lookup a b).swap :=
    Std.OrientedCmp.eq_swap
  rw [hswap]
  cases compareRows keys lookup a b <;> rfl

/-- In sorted rows none comes before a smaller one. -/
lemma pairwise_sortRows (rows : List α) :
    (sortRows keys lookup rows).Pairwise fun a b => (compareRows keys lookup a b).isLE := by
  refine (List.pairwise_mergeSort (compareRows_ne_gt_trans keys lookup)
    (compareRows_ne_gt_total keys lookup) rows).imp fun {a b} h => ?_
  exact Ordering.isLE_iff_ne_gt.2 (of_decide_eq_true h)

/-- Rows sorted by an ascending key first stand in the order of their values under it. -/
lemma pairwise_rank?_sortRows (path : List String) (rows : List α) :
    (sortRows (⟨path, false⟩ :: keys) lookup rows).Pairwise fun a b =>
      (Json.rank? (lookup a path) (lookup b path)).isLE := by
  refine (pairwise_sortRows _ lookup rows).imp fun {a b} h => ?_
  rw [compareRows_cons, compareLex] at h
  exact Ordering.isLE_left_of_isLE_then h

end Rows

/-! ### Listings -/

namespace Store

/-- The value that a record holds under a name; one that is missing counts as null. -/
def held (name : String) (row : Record) : Json := (Json.member? name row).getD .null

variable {g : Graph} (s : Store g) {schema name : String} {i : g.Id} {t : ValueType}
  (q : Selection g)

/-- A page consists of some of the ordered records, each with what the plan says embedded. -/
lemma exists_sublist_page : ∃ taken : List Record, taken.Sublist (s.ordered i q) ∧
    s.page i q = taken.map (s.embed i · (q.plan.elim [] Plan.relations)) := by
  have hnothing : ∀ row, s.embed i row [] = row := fun row => by rw [embed, embedAll]
  obtain ⟨predicate, order, offset, limit, plan⟩ := q
  have hdrop := List.drop_sublist offset (s.ordered i ⟨predicate, order, offset, limit, plan⟩)
  cases limit with
  | none =>
    refine ⟨_, hdrop, ?_⟩
    cases plan with
    | none => simp [page, hnothing, ordered]
    | some plan => rfl
  | some limit =>
    refine ⟨_, (List.take_sublist limit _).trans hdrop, ?_⟩
    cases plan with
    | none => simp [page, hnothing, ordered]
    | some plan => rfl

variable {s q}

lemma pathValues_scalar (ha : (g.schema i).attribute? name = some ⟨name, .scalar t⟩)
    (row : Record) : s.pathValues i row [name] = [held name row] := by
  simp [pathValues, values, ha, held]

/-- Records that are ordered by a scalar first are ranked by what they hold under it. -/
lemma pairwise_rank_ordered (ha : (g.schema i).attribute? name = some ⟨name, .scalar t⟩)
    {rest : List OrderKey} (hq : q.order = ⟨[name], false⟩ :: rest) :
    (s.ordered i q).Pairwise fun a b => ((held name a).rank (held name b)).isLE := by
  rw [ordered, hq]
  refine (pairwise_rank?_sortRows rest _ [name] _).imp fun {a b} h => ?_
  simpa [pathValues_scalar ha, Json.rank?] using h

/-- Of two records of a page that is ordered by a scalar first, the later one does not hold less
than the earlier one, unless the two hold integers that collide. -/
lemma pairwise_page (ha : (g.schema i).attribute? name = some ⟨name, .scalar t⟩)
    {rest : List OrderKey} (hq : q.order = ⟨[name], false⟩ :: rest) :
    (s.page i q).Pairwise fun earlier later =>
      Test.less.passes (held name later) (held name earlier) →
        (held name later).Collapsed (held name earlier) := by
  obtain ⟨taken, htaken, hpage⟩ := s.exists_sublist_page (i := i) q
  rw [hpage, List.pairwise_map]
  refine ((pairwise_rank_ordered ha hq).sublist htaken).imp fun {a b} hrank hless => ?_
  have hembed : ∀ row : Record, held name (s.embed i row (q.plan.elim [] Plan.relations)) =
      held name row := fun row => by rw [held, held, member?_embed_scalar ha]
  rw [hembed, hembed] at hless ⊢
  rw [Test.passes_less, decide_eq_true_eq] at hless
  by_contra hcollapsed
  have hlt := Json.rank_eq_of_order? hless hcollapsed
  have hswap : (held name a).rank (held name b) = ((held name b).rank (held name a)).swap :=
    Std.OrientedCmp.eq_swap
  rw [hswap, hlt] at hrank
  cases hrank

end Store

/-- **Sorting and filtering agree.**  Two integers of 64 bits, two texts or two truth values are
ranked as they are compared, unless they are different integers with the same nearest binary64
number, which integers of at most 53 bits never have.  A listing in ascending order of a scalar places
a record before another one that holds less only if the two hold such integers. -/
theorem ranked_as_compared (v w : Json) :
    (v.SameKind w → (v.RankedAsCompared w ↔ ¬ v.Collapsed w)) ∧
    (∀ a b : Int, v = .int a → w = .int b → a.natAbs < 2 ^ 53 → b.natAbs < 2 ^ 53 →
      ¬ v.Collapsed w) ∧
    ∀ {g : Graph} (s : Store g) {schema name : String} {i : g.Id} {t : ValueType}
      (q : Selection g) {rest : List OrderKey},
      g.find? schema = some i → (g.schema i).attribute? name = some ⟨name, .scalar t⟩ →
      q.order = ⟨[name], false⟩ :: rest →
      ∃ rows, s.fetch schema q = .ok rows ∧
        rows.Pairwise fun earlier later =>
          Test.less.passes (Store.held name later) (Store.held name earlier) →
            (Store.held name later).Collapsed (Store.held name earlier) := by
  refine ⟨Json.SameKind.rankedAsCompared_iff, ?_, ?_⟩
  · rintro a b rfl rfl ha hb
    rw [Json.collapsed_int_iff]
    exact not_collide_of_natAbs_lt ha hb
  · intro g s schema name i t q rest hi ha hq
    exact ⟨_, s.fetch_eq q hi, Store.pairwise_page ha hq⟩

/-- A store of two records whose keys are the first integers that collide, the larger one first. -/
def collidingStore : Store itemGraph :=
  ⟨#v[[[("id", .int 9007199254740993)], [("id", .int 9007199254740992)]]]⟩

theorem ranked_as_compared_items :
    (Json.int 9007199254740993).RankedAsCompared (.int 9007199254740994) ∧
    ¬ (Json.int (-3)).Collapsed (.int 9007199254740991) ∧
    ∃ rows, itemStore.fetch "Item" ⟨none, [⟨["kind"], false⟩], 0, some 2, none⟩ = .ok rows ∧
      rows.Pairwise fun earlier later =>
        Test.less.passes (Store.held "kind" later) (Store.held "kind" earlier) →
          (Store.held "kind" later).Collapsed (Store.held "kind" earlier) := by
  have hdistinct : ¬ Collide 9007199254740993 9007199254740994 := by decide +kernel
  obtain ⟨hkind, -, hlisting⟩ :=
    ranked_as_compared (.int 9007199254740993) (.int 9007199254740994)
  obtain ⟨-, hbits, -⟩ := ranked_as_compared (.int (-3)) (.int 9007199254740991)
  refine ⟨(hkind (.integers (by decide) (by decide))).2 ?_,
    hbits _ _ rfl rfl (by decide) (by decide),
    hlisting itemStore (i := ⟨0, by decide⟩) (t := .int) _ find?_item rfl rfl⟩
  rwa [Json.collapsed_int_iff]

/-- The first two integers that collide are of 64 bits; the one is less than the other, but they are
ranked alike, and a listing in ascending order keeps the larger one first. -/
theorem ranked_not_as_compared :
    (Json.int 9007199254740992).SameKind (.int 9007199254740993) ∧
    Test.less.passes (.int 9007199254740992) (.int 9007199254740993) = true ∧
    (Json.int 9007199254740992).rank (.int 9007199254740993) = .eq ∧
    collidingStore.fetch "Item" ⟨none, [⟨["id"], false⟩], 0, none, none⟩ =
      .ok [[("id", .int 9007199254740993)], [("id", .int 9007199254740992)]] := by
  refine ⟨.integers (by decide) (by decide), by decide +kernel, by decide +kernel, ?_⟩
  rw [collidingStore.fetch_unpaged find?_item, Store.ordered, sortRows, List.mergeSort_of_pairwise]
  · rfl
  · have hmatching : collidingStore.matching ⟨0, by decide⟩ none =
        [[("id", .int 9007199254740993)], [("id", .int 9007199254740992)]] := rfl
    rw [hmatching, List.pairwise_pair]
    decide +kernel

end Retrieval
