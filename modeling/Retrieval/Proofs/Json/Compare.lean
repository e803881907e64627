/-
# How values compare

Integers of 64 bits are compared as they are and others by their nearest binary64 numbers, so the
order of two integers is lost where such numbers collide.  Loose equality does not depend on which
of two values comes first.  Ranking compares first the kinds of two values and then what they hold,
so it is a total order up to ties.
-/
import Retrieval.Json.Compare
import Retrieval.Proofs.Number.Integer
import Retrieval.Proofs.Number.Rounding
import Retrieval.Store.Evaluate

namespace Retrieval

namespace Number

lemma same_comm (a b : Number) : a.same b = b.same a := by
  cases a <;> cases b <;> simp only [same, eq_comm]

lemma order_swap (a b : Number) : (a.order b).swap = b.order a := by
  rw [order, order]
  cases a.int64? <;> cases b.int64? <;> exact Std.OrientedOrd.eq_swap.symm

/-! ### Integers -/

lemma int64?_integer {n : Int} (h : InInt64 n) : (integer n).int64? = some n := if_pos h

lemma int64?_integer_eq_none {n : Int} (h : ¬ InInt64 n) : (integer n).int64? = none := if_neg h

lemma order_integer {m n : Int} (hm : InInt64 m) (hn : InInt64 n) :
    (integer m).order (.integer n) = compare m n := by
  rw [order, int64?_integer hm, int64?_integer hn]

/-- Integers that are not both of 64 bits are compared by their nearest binary64 numbers. -/
lemma order_integer_rounded {m n : Int} (h : ¬ (InInt64 m ∧ InInt64 n)) :
    (integer m).order (.integer n) = compare (roundedUnits m) (roundedUnits n) := by
  rw [order]
  rcases not_and_or.1 h with hm | hn
  · rw [int64?_integer_eq_none hm]
    rfl
  · rw [int64?_integer_eq_none hn]
    cases (integer m).int64? <;> rfl

/-- Whether two integers collide and are not both of 64 bits. -/
def Confused (m n : Int) : Prop := Collide m n ∧ ¬ (InInt64 m ∧ InInt64 n)

instance (m n : Int) : Decidable (Confused m n) := instDecidableAnd

/-- Numbers that are integers are ordered as integers exactly unless they are confused. -/
lemma order_integer_eq_iff {m n : Int} :
    (integer m).order (.integer n) = compare m n ↔ ¬ Confused m n := by
  by_cases h : InInt64 m ∧ InInt64 n
  · simp [order_integer h.1 h.2, Confused, h]
  · rw [order_integer_rounded h, compare_roundedUnits_eq_iff, Confused, and_iff_left h]

/-- Numbers that are not integers that collide are ordered as their amounts are. -/
lemma order_eq_compare_units {m n : Number}
    (h : ∀ a b, m = integer a → n = integer b → ¬ Collide a b) :
    m.order n = compare m.units n.units := by
  cases m with
  | float x => rfl
  | integer a =>
    cases n with
    | float y =>
      rw [order]
      cases (integer a).int64? <;> rfl
    | integer b =>
      by_cases hbits : InInt64 a ∧ InInt64 b
      · rw [order_integer hbits.1 hbits.2]
        exact (compare_roundedUnits_eq_iff.2 (h a b rfl rfl)).symm
      · exact order_integer_rounded hbits

end Number

namespace Json

lemma int64?_eq_some_iff {v : Json} {n : Int} : v.int64? = some n ↔ v = .int n ∧ InInt64 n := by
  constructor
  · intro h
    rcases v with _ | _ | (m | x) | _ | _ | _
    case number.integer =>
      rw [int64?, Number.int64?] at h
      split at h
      · next hm =>
        cases h
        exact ⟨rfl, hm⟩
      · cases h
    all_goals cases h
  · rintro ⟨rfl, hn⟩
    exact if_pos hn

/-! ### Equality -/

mutual

lemma same_comm (v w : Json) : same v w = same w v := by
  cases v <;> cases w
  case number.number a b => exact a.same_comm b
  case array.array as bs => exact sameItems_comm as bs
  case object.object as bs => exact sameMembers_comm as bs
  all_goals simp only [same, eq_comm]

lemma sameItems_comm (as bs : List Json) : sameItems as bs = sameItems bs as := by
  match as, bs with
  | [], [] | [], _ :: _ | _ :: _, [] => rfl
  | a :: as, b :: bs => rw [sameItems, sameItems, same_comm a b, sameItems_comm as bs]

lemma sameMembers_comm (as bs : List (String × Json)) : sameMembers as bs = sameMembers bs as := by
  match as, bs with
  | [], [] | [], _ :: _ | _ :: _, [] => rfl
  | (m, a) :: as, (n, b) :: bs =>
    rw [sameMembers, sameMembers, same_comm a b, sameMembers_comm as bs]
    simp only [eq_comm]

end

/-- Of two values none is loosely equal to the other alone. -/
lemma looseEq_comm (v w : Json) : v.looseEq w = w.looseEq v := by
  cases v <;> cases w
  case number.number a b =>
    rw [looseEq, looseEq, ← a.order_swap b]
    cases a.order b <;> rfl
  all_goals exact same_comm _ _

/-! ### Ranking -/

/-- The text of a value, empty if it has none. -/
def rankText : Json → String
  | string s => s
  | _ => ""

/-- The amount of a number, zero if the value is none. -/
def rankUnits : Json → Int
  | number n => n.units
  | _ => 0

/-- The truth value of a value, false if it has none. -/
def rankBool : Json → Bool
  | bool b => b
  | _ => false

/-- Ranking compares kinds, truth values, numbers and texts, one after the other. -/
lemma rank_eq_compareLex :
    rank = compareLex (compareOn kindRank)
      (compareLex (compareOn rankBool)
        (compareLex (compareOn rankUnits) (compareOn rankText))) := by
  funext v w
  -- values of different kinds are compared by their kinds, which are known here
  cases v <;> cases w <;> first
    | rfl
    | simp [rank, compareLex, compareOn, kindRank, rankBool, rankUnits, rankText]

instance : Std.TransCmp rank := by
  rw [rank_eq_compareLex]
  infer_instance

/-- Ranking stays an order where values may be absent. -/
instance : Std.TransCmp rank? where
  eq_swap {v w} := by
    cases v with
    | none => cases w <;> rfl
    | some v =>
      cases w with
      | none => rfl
      | some w => exact (Std.OrientedCmp.eq_swap : v.rank w = (w.rank v).swap)
  isLE_trans {u v w} huv hvw := by
    cases u with
    | none => cases w <;> rfl
    | some u =>
      -- nothing that is present comes before what is absent
      cases v with
      | none => cases huv
      | some v =>
        cases w with
        | none => cases hvw
        | some w =>
          have hrank : (u.rank v).isLE → (v.rank w).isLE → (u.rank w).isLE :=
            Std.TransCmp.isLE_trans
          exact hrank huv hvw

end Json

/-! ### Tests -/

namespace Test

variable (v w : Json)

lemma passes_equal : equal.passes v w = v.looseEq w := rfl

lemma passes_greater : greater.passes v w = decide (v.order? w = some .gt) := rfl

lemma passes_greaterEqual : greaterEqual.passes v w = (v.order? w).any (· ≠ .lt) := rfl

lemma passes_less : less.passes v w = decide (v.order? w = some .lt) := rfl

lemma passes_lessEqual : lessEqual.passes v w = (v.order? w).any (· ≠ .gt) := rfl

end Test

end Retrieval
