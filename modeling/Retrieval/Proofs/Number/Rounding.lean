/-
# Rounding to binary64

An integer is compared with binary64 numbers by the nearest of them.  Rounding keeps the order of
two integers, but not strictly: two different ones may have the same nearest number.  They then lie
as close as the numbers of 53 significant bits around them.
-/
import Mathlib.Algebra.Order.Ring.Abs
import Mathlib.Algebra.Order.Ring.Int
import Mathlib.Tactic.Linarith
import Mathlib.Tactic.Ring
import Retrieval.Number.Binary64

namespace Retrieval

/-! ### Quotients -/

/-- A rounded quotient is at most half a unit off. -/
lemma roundDiv_error (num : Nat) {den : Nat} (h : 0 < den) :
    2 * (roundDiv num den * den) ≤ 2 * num + den ∧
      2 * num ≤ 2 * (roundDiv num den * den) + den := by
  have hdiv : num / den * den + num % den = num := Nat.div_add_mod' num den
  have hmod := Nat.mod_lt num h
  simp only [roundDiv]
  split
  · have hnext : (num / den + 1) * den = num / den * den + den := Nat.succ_mul _ _
    omega
  · omega

lemma roundDiv_mul (q : Nat) {den : Nat} (h : 0 < den) : roundDiv (q * den) den = q := by
  simp [roundDiv, Nat.mul_div_cancel q h, h.ne]

lemma roundDiv_mono {m n : Nat} (den : Nat) (h : m ≤ n) : roundDiv m den ≤ roundDiv n den := by
  have hdiv : m / den ≤ n / den := Nat.div_le_div_right h
  simp only [roundDiv]
  rcases Nat.lt_or_eq_of_le hdiv with hlt | heq
  · -- the quotients differ, and rounding adds at most one
    split <;> split <;> omega
  · have hm := Nat.div_add_mod m den
    have hn := Nat.div_add_mod n den
    rw [heq] at hm ⊢
    split <;> split <;> omega

/-! ### Natural numbers of 53 significant bits -/

/-- The natural number of at most 53 significant bits that is nearest to a given one. -/
def nearest (n : Nat) : Nat := roundDiv n (2 ^ (n.log2 - 52)) * 2 ^ (n.log2 - 52)

lemma nearest_of_dvd {n : Nat} (h : 2 ^ (n.log2 - 52) ∣ n) : nearest n = n := by
  obtain ⟨q, hq⟩ := h
  have hround := roundDiv_mul q (Nat.two_pow_pos (n.log2 - 52))
  rw [Nat.mul_comm, ← hq] at hround
  rw [nearest, hround, Nat.mul_comm, ← hq]

/-- Rounding stays between the two powers of two around a number. -/
lemma nearest_bounds {n : Nat} (h : n ≠ 0) :
    2 ^ n.log2 ≤ nearest n ∧ nearest n ≤ 2 ^ (n.log2 + 1) := by
  have hpos := Nat.two_pow_pos (n.log2 - 52)
  -- a power of two that is a multiple of the unit is its own quotient times the unit
  have hpower : ∀ k, n.log2 ≤ k →
      roundDiv (2 ^ k) (2 ^ (n.log2 - 52)) * 2 ^ (n.log2 - 52) = 2 ^ k := by
    intro k hk
    have hsplit : 2 ^ k = 2 ^ (k - (n.log2 - 52)) * 2 ^ (n.log2 - 52) := by
      rw [← Nat.pow_add, Nat.sub_add_cancel (by omega)]
    rw [hsplit, roundDiv_mul _ hpos]
  constructor
  · rw [← hpower n.log2 le_rfl]
    exact Nat.mul_le_mul_right _ (roundDiv_mono _ (Nat.log2_self_le h))
  · rw [← hpower (n.log2 + 1) (by omega)]
    exact Nat.mul_le_mul_right _ (roundDiv_mono _ Nat.lt_log2_self.le)

lemma nearest_mono {m n : Nat} (h : m ≤ n) : nearest m ≤ nearest n := by
  rcases Nat.eq_zero_or_pos m with rfl | hm
  · simp [nearest, roundDiv]
  have hlog : m.log2 ≤ n.log2 := (Nat.le_log2 (by omega)).2 ((Nat.log2_self_le hm.ne').trans h)
  rcases Nat.lt_or_eq_of_le hlog with hlt | heq
  · -- a power of two lies between the two
    calc nearest m ≤ 2 ^ (m.log2 + 1) := (nearest_bounds hm.ne').2
      _ ≤ 2 ^ n.log2 := Nat.pow_le_pow_right (by decide) hlt
      _ ≤ nearest n := (nearest_bounds (by omega)).1
  · rw [nearest, nearest, heq]
    exact Nat.mul_le_mul_right _ (roundDiv_mono _ h)

/-- Rounding is at most half a unit of the last of 53 bits off. -/
lemma nearest_error {n k : Nat} (h : n < 2 ^ (53 + k)) :
    2 * nearest n ≤ 2 * n + 2 ^ k ∧ 2 * n ≤ 2 * nearest n + 2 ^ k := by
  have hscale : 2 ^ (n.log2 - 52) ≤ 2 ^ k := by
    rcases Nat.eq_zero_or_pos n with rfl | hn
    · exact Nat.pow_le_pow_right (by decide) (by simp)
    · have hlog := (Nat.log2_lt hn.ne').2 h
      exact Nat.pow_le_pow_right (by decide) (by omega)
  have herror := roundDiv_error n (Nat.two_pow_pos (n.log2 - 52))
  rw [nearest]
  omega

/-- A number of at most 53 bits times a power of two is not changed by rounding. -/
lemma nearest_mul_two_pow {n : Nat} (h : n < 2 ^ 53) (k : Nat) :
    nearest (n * 2 ^ k) = n * 2 ^ k := by
  rcases Nat.eq_zero_or_pos n with rfl | hn
  · simp [nearest, roundDiv]
  refine nearest_of_dvd (Dvd.dvd.mul_left (Nat.pow_dvd_pow 2 ?_) n)
  have hlt : n * 2 ^ k < 2 ^ (53 + k) := by
    rw [Nat.pow_add]
    exact Nat.mul_lt_mul_of_pos_right h (Nat.two_pow_pos k)
  have hlog := (Nat.log2_lt (Nat.mul_pos hn (Nat.two_pow_pos k)).ne').2 hlt
  omega

/-! ### Integers -/

lemma roundUnits_one (n : Nat) :
    (Binary64.roundUnits n 1).1 * Nat.pow 2 (Binary64.roundUnits n 1).2 = nearest n := by
  simp only [Binary64.roundUnits, Nat.div_one, Nat.one_mul, Nat.pow_eq, nearest]
  split
  · next h =>
    dsimp only
    rw [h, Nat.pow_succ]
    omega
  · rfl

/-- One whole in the units of binary64 numbers. -/
def wholeUnits : Nat := Nat.pow 2 1074

lemma two_pow_eq_wholeUnits : Nat.pow 2 1074 = wholeUnits := by
  delta wholeUnits
  with_reducible rfl

lemma exists_two_pow_eq_wholeUnits : ∃ k, 2 ^ k = wholeUnits := by
  rw [← two_pow_eq_wholeUnits]
  generalize 1074 = k
  exact ⟨k, rfl⟩

lemma wholeUnits_pos : 0 < wholeUnits := by
  obtain ⟨k, hk⟩ := exists_two_pow_eq_wholeUnits
  rw [← hk]
  exact Nat.two_pow_pos k

-- As an equation of functions, this compares two bodies without computing with the large power.
lemma roundedUnits_eq_fun :
    roundedUnits = fun n => match Binary64.roundUnits (n.natAbs * Nat.pow 2 1074) 1 with
      | (mantissa, scale) => n.sign * (mantissa * Nat.pow 2 scale : Nat) := by
  delta roundedUnits
  with_reducible rfl

/-- An integer is rounded without its sign. -/
lemma roundedUnits_eq (n : Int) :
    roundedUnits n = n.sign * nearest (n.natAbs * wholeUnits) := by
  have hround := roundUnits_one (n.natAbs * wholeUnits)
  refine (congrFun roundedUnits_eq_fun n).trans ?_
  rw [two_pow_eq_wholeUnits]
  generalize Binary64.roundUnits (n.natAbs * wholeUnits) 1 = rounded at hround ⊢
  cases rounded
  rw [← hround]

lemma roundedUnits_natCast (n : Nat) : roundedUnits n = nearest (n * wholeUnits) := by
  rw [roundedUnits_eq, Int.natAbs_natCast]
  rcases Nat.eq_zero_or_pos n with rfl | hn
  · simp [nearest, roundDiv]
  · rw [Int.sign_natCast_of_ne_zero hn.ne', Int.one_mul]

lemma roundedUnits_neg (n : Int) : roundedUnits (-n) = -roundedUnits n := by
  rw [roundedUnits_eq, roundedUnits_eq, Int.sign_neg, Int.natAbs_neg, Int.neg_mul]

/-- Rounding keeps the order of integers. -/
lemma roundedUnits_mono {m n : Int} (h : m ≤ n) : roundedUnits m ≤ roundedUnits n := by
  have hnat : ∀ {m n : Nat}, m ≤ n → roundedUnits m ≤ roundedUnits n := by
    intro m n h
    rw [roundedUnits_natCast, roundedUnits_natCast]
    exact Int.ofNat_le.2 (nearest_mono (Nat.mul_le_mul_right _ h))
  have hnonneg : ∀ n : Nat, 0 ≤ roundedUnits n := by
    intro n
    rw [roundedUnits_natCast]
    exact Int.natCast_nonneg _
  obtain ⟨m, rfl | rfl⟩ := m.eq_nat_or_neg <;> obtain ⟨n, rfl | rfl⟩ := n.eq_nat_or_neg
  · exact hnat (by omega)
  · -- a number is at most the opposite of another one only if both are zero
    obtain ⟨rfl, rfl⟩ : m = 0 ∧ n = 0 := by omega
    exact le_rfl
  · have hm := hnonneg m
    have hn := hnonneg n
    rw [roundedUnits_neg]
    omega
  · have hle := hnat (m := n) (n := m) (by omega)
    rw [roundedUnits_neg, roundedUnits_neg]
    omega

/-- An integer of at most 53 bits is not changed by rounding. -/
lemma roundedUnits_of_natAbs_lt {n : Int} (h : n.natAbs < 2 ^ 53) :
    roundedUnits n = n * wholeUnits := by
  obtain ⟨k, hk⟩ := exists_two_pow_eq_wholeUnits
  rw [roundedUnits_eq, ← hk, nearest_mul_two_pow h k, Int.natCast_mul, ← Int.mul_assoc,
    Int.sign_mul_natAbs]

/-- An integer of at most `53 + k` bits is rounded by at most half of `2 ^ k`. -/
lemma roundedUnits_error {n : Int} {k : Nat} (h : n.natAbs < 2 ^ (53 + k)) :
    2 * |roundedUnits n - n * wholeUnits| ≤ 2 ^ k * wholeUnits := by
  have hnat : ∀ m : Nat, m < 2 ^ (53 + k) →
      2 * |roundedUnits m - m * wholeUnits| ≤ 2 ^ k * wholeUnits := by
    intro m hm
    obtain ⟨j, hj⟩ := exists_two_pow_eq_wholeUnits
    have hlt : m * wholeUnits < 2 ^ (53 + (k + j)) := by
      rw [← hj, ← Nat.add_assoc, Nat.pow_add]
      exact Nat.mul_lt_mul_of_pos_right hm (Nat.two_pow_pos j)
    obtain ⟨hupper, hlower⟩ := nearest_error hlt
    rw [Nat.pow_add, hj] at hupper hlower
    rw [roundedUnits_natCast]
    zify at hupper hlower
    rcases abs_cases ((nearest (m * wholeUnits) : Int) - m * wholeUnits) with ⟨habs, -⟩ | ⟨habs, -⟩
    · rw [habs]
      linarith only [hupper]
    · rw [habs]
      linarith only [hlower]
  obtain ⟨m, rfl | rfl⟩ := n.eq_nat_or_neg
  · exact hnat m h
  · rw [roundedUnits_neg, Int.neg_mul, ← neg_sub', abs_neg]
    exact hnat m (by simpa using h)

/-! ### Collisions -/

/-- Whether two integers are different and have the same nearest binary64 number. -/
def Collide (a b : Int) : Prop := a ≠ b ∧ roundedUnits a = roundedUnits b

instance (a b : Int) : Decidable (Collide a b) := instDecidableAnd

lemma Collide.symm {a b : Int} (h : Collide a b) : Collide b a := ⟨h.1.symm, h.2.symm⟩

/-- Integers of at most 53 bits do not collide. -/
lemma not_collide_of_natAbs_lt {a b : Int} (ha : a.natAbs < 2 ^ 53) (hb : b.natAbs < 2 ^ 53) :
    ¬ Collide a b := by
  rintro ⟨hne, heq⟩
  rw [roundedUnits_of_natAbs_lt ha, roundedUnits_of_natAbs_lt hb] at heq
  exact hne (Int.eq_of_mul_eq_mul_right (Int.natCast_ne_zero.2 wholeUnits_pos.ne') heq)

/-- Integers of at most `53 + k` bits collide only within a distance of `2 ^ k`. -/
lemma Collide.abs_sub_le {a b : Int} {k : Nat} (h : Collide a b) (ha : a.natAbs < 2 ^ (53 + k))
    (hb : b.natAbs < 2 ^ (53 + k)) : |a - b| ≤ 2 ^ k := by
  have hpos : (0 : Int) < wholeUnits := Int.natCast_pos.2 wholeUnits_pos
  have herror := roundedUnits_error ha
  rw [h.2] at herror
  have hsplit : (a - b) * wholeUnits =
      (roundedUnits b - b * wholeUnits) - (roundedUnits b - a * wholeUnits) := by ring
  have hdistance : |a - b| * wholeUnits ≤ 2 ^ k * wholeUnits := by
    calc |a - b| * wholeUnits
        = |(roundedUnits b - b * wholeUnits) - (roundedUnits b - a * wholeUnits)| := by
          rw [← hsplit, abs_mul, abs_of_pos hpos]
      _ ≤ |roundedUnits b - b * wholeUnits| + |roundedUnits b - a * wholeUnits| := abs_sub _ _
      _ ≤ 2 ^ k * wholeUnits := by linarith only [herror, roundedUnits_error hb]
  exact le_of_mul_le_mul_right hdistance hpos

/-- Rounding keeps the order of two integers exactly unless they collide. -/
lemma compare_roundedUnits_eq_iff {a b : Int} :
    compare (roundedUnits a) (roundedUnits b) = compare a b ↔ ¬ Collide a b := by
  rcases lt_trichotomy a b with hlt | rfl | hgt
  · have hle := roundedUnits_mono hlt.le
    rw [compare_lt_iff_lt.2 hlt, compare_lt_iff_lt, Collide]
    omega
  · simp [Collide]
  · have hle := roundedUnits_mono hgt.le
    rw [compare_gt_iff_gt.2 hgt, compare_gt_iff_gt, Collide]
    omega

end Retrieval
