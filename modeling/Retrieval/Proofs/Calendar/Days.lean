/-
# Days and minutes

Dates are in the order of their numbers as days, and the day after a date has the next number.  So
instants are in the order of their minutes, and universal time and the clocks that are a fixed
offset ahead of it agree about what is earlier.
-/
import Mathlib.Algebra.Order.Ring.Int
import Mathlib.Tactic.Lemma
import Retrieval.Calendar

namespace Retrieval

/-- Two comparisons agree if they agree about what is less. -/
lemma compare_congr {α β : Type} [LinearOrder α] [LinearOrder β] {a b : α} {c d : β}
    (hlt : a < b ↔ c < d) (hgt : b < a ↔ d < c) : compare a b = compare c d := by
  rcases lt_trichotomy a b with h | rfl | h
  · rw [compare_lt_iff_lt.2 h, compare_lt_iff_lt.2 (hlt.1 h)]
  · have heq : c = d := le_antisymm (by simpa using hgt) (by simpa using hlt)
    rw [compare_eq_iff_eq.2 rfl, compare_eq_iff_eq.2 heq]
  · rw [compare_gt_iff_gt.2 h, compare_gt_iff_gt.2 (hgt.1 h)]

/-- Numbers to the base `r` are compared by their last digits if they agree before them. -/
lemma compare_mul_add {r a b : Nat} (m n : Int) (ha : a < r) (hb : b < r) :
    compare (m * r + a) (n * r + b) = (compare m n).then (compare a b) := by
  have hstep : ∀ {m n : Int}, m < n → m * r + r ≤ n * r := by
    intro m n h
    have hle := Int.mul_le_mul_of_nonneg_right (show m + 1 ≤ n from h) (Int.natCast_nonneg r)
    rwa [Int.add_mul, Int.one_mul] at hle
  rcases lt_trichotomy m n with h | rfl | h
  · have hle := hstep h
    rw [compare_lt_iff_lt.2 h, Ordering.lt_then, compare_lt_iff_lt]
    omega
  · rw [compare_eq_iff_eq.2 rfl, Ordering.eq_then]
    exact compare_congr (by omega) (by omega)
  · have hle := hstep h
    rw [compare_gt_iff_gt.2 h, Ordering.gt_then, compare_gt_iff_gt]
    omega

lemma compare_natCast (m n : Nat) : compare (m : Int) n = compare m n :=
  compare_congr Int.ofNat_lt Int.ofNat_lt

lemma compare_mul_add_nat {r a b : Nat} (m n : Nat) (ha : a < r) (hb : b < r) :
    compare (m * r + a) (n * r + b) = (compare m n).then (compare a b) := by
  rw [← compare_natCast m, ← compare_mul_add m n ha hb, ← compare_natCast]
  push_cast
  rfl

namespace Calendar

/-- The number of days before a year, counted from the beginning of the year zero. -/
def daysBeforeYear (year : Int) : Int :=
  365 * year + (year - 1) / 4 - (year - 1) / 100 + (year - 1) / 400

/-- The number of days of a year before a month. -/
def daysBeforeMonth (year : Int) : Nat → Nat
  | 0 | 1 => 0
  | month + 2 => daysBeforeMonth year (month + 1) + daysInMonth year (month + 1)

lemma daysBeforeYear_le {year later : Int} (h : year < later) :
    daysBeforeYear (year + 1) ≤ daysBeforeYear later := by
  simp only [daysBeforeYear]
  omega

lemma daysBeforeMonth_one (year : Int) : daysBeforeMonth year 1 = 0 := rfl

lemma daysBeforeMonth_succ (year : Int) {month : Nat} (h : 1 ≤ month) :
    daysBeforeMonth year (month + 1) = daysBeforeMonth year month + daysInMonth year month := by
  obtain ⟨month, rfl⟩ := Nat.exists_eq_add_of_le' h
  rfl

lemma daysBeforeMonth_mono (year : Int) {month later : Nat} (h : month ≤ later) :
    daysBeforeMonth year month ≤ daysBeforeMonth year later := by
  induction h with
  | refl => exact le_rfl
  | @step later _ ih =>
    rcases Nat.eq_zero_or_pos later with rfl | hpos
    · exact ih
    · rw [daysBeforeMonth_succ year hpos]
      omega

/-- The days of a year are those of its twelve months. -/
lemma daysBeforeYear_succ (year : Int) :
    daysBeforeYear (year + 1) = daysBeforeYear year + daysBeforeMonth year 13 := by
  have hleap : isLeapYear year = true ↔
      year % 4 = 0 ∧ (year % 100 ≠ 0 ∨ year % 400 = 0) := by
    simp [isLeapYear]
  simp only [daysBeforeYear, daysBeforeMonth, daysInMonth, hleap]
  split <;> simp <;> omega

end Calendar

namespace Date

open Calendar

variable (a b d : Date)

/-- The number of a date as a day. -/
def dayNumber : Int := daysBeforeYear d.year + daysBeforeMonth d.year d.month + d.day

lemma bounds : 1 ≤ d.month ∧ d.month ≤ 12 ∧ 1 ≤ d.day ∧ d.day ≤ daysInMonth d.year d.month := by
  have hvalid := d.valid
  simp only [exists?, Bool.and_eq_true, decide_eq_true_eq] at hvalid
  omega

/-- A date comes after the end of the month before it and not after the end of its own. -/
lemma dayNumber_bounds :
    daysBeforeYear d.year + daysBeforeMonth d.year d.month < d.dayNumber ∧
      d.dayNumber ≤ daysBeforeYear d.year + daysBeforeMonth d.year (d.month + 1) := by
  obtain ⟨hmonth, -, hday, hlast⟩ := d.bounds
  rw [daysBeforeMonth_succ _ hmonth, dayNumber]
  omega

lemma dayNumber_bounds_year :
    daysBeforeYear d.year < d.dayNumber ∧ d.dayNumber ≤ daysBeforeYear (d.year + 1) := by
  obtain ⟨-, hmonth, -, -⟩ := d.bounds
  have hbounds := d.dayNumber_bounds
  have hyear : daysBeforeMonth d.year (d.month + 1) ≤ daysBeforeMonth d.year 13 :=
    daysBeforeMonth_mono _ (by omega)
  rw [daysBeforeYear_succ]
  omega

/-- An earlier date has a smaller number. -/
lemma dayNumber_lt_of_lt (h : Date.compare a b = .lt) : a.dayNumber < b.dayNumber := by
  rw [Date.compare, Ordering.then_eq_lt, Ordering.then_eq_lt, compare_lt_iff_lt, compare_eq_iff_eq,
    compare_lt_iff_lt, compare_eq_iff_eq, compare_lt_iff_lt] at h
  rcases h with hyear | ⟨hyear, hmonth | ⟨hmonth, hday⟩⟩
  · have hle := daysBeforeYear_le hyear
    have ha := a.dayNumber_bounds_year
    have hb := b.dayNumber_bounds_year
    omega
  · have hle := daysBeforeMonth_mono a.year (show a.month + 1 ≤ b.month from hmonth)
    have ha := a.dayNumber_bounds
    have hb := b.dayNumber_bounds
    rw [← hyear] at hb
    omega
  · rw [dayNumber, dayNumber, hyear, hmonth]
    omega

lemma compare_eq_eq_iff : Date.compare a b = .eq ↔ a = b := by
  rw [Date.compare, Ordering.then_eq_eq, Ordering.then_eq_eq, compare_eq_iff_eq, compare_eq_iff_eq,
    compare_eq_iff_eq]
  constructor
  · rintro ⟨hyear, hmonth, hday⟩
    cases a
    cases b
    cases hyear
    cases hmonth
    cases hday
    rfl
  · rintro rfl
    exact ⟨rfl, rfl, rfl⟩

lemma compare_swap : (Date.compare a b).swap = Date.compare b a := by
  rw [Date.compare, Date.compare, Ordering.swap_then, Ordering.swap_then,
    ← Std.OrientedOrd.eq_swap, ← Std.OrientedOrd.eq_swap, ← Std.OrientedOrd.eq_swap]

/-- Dates are in the order of their numbers. -/
lemma compare_eq : Date.compare a b = compare a.dayNumber b.dayNumber := by
  cases h : Date.compare a b with
  | lt => exact (compare_lt_iff_lt.2 (dayNumber_lt_of_lt a b h)).symm
  | eq =>
    obtain rfl := (compare_eq_eq_iff a b).1 h
    exact (compare_eq_iff_eq.2 rfl).symm
  | gt =>
    have hswap : Date.compare b a = .lt := by rw [← compare_swap, h, Ordering.swap_gt]
    exact (compare_gt_iff_gt.2 (dayNumber_lt_of_lt b a hswap)).symm

/-! ### Neighbours -/

lemma dayNumber_next : d.next.dayNumber = d.dayNumber + 1 := by
  obtain ⟨hmonth, htwelve, -, hday⟩ := d.bounds
  rw [next]
  split
  · simp only [dayNumber]
    omega
  · have hlast : d.day = daysInMonth d.year d.month := by omega
    have hsucc := daysBeforeMonth_succ d.year hmonth
    split
    · simp only [dayNumber, hsucc]
      omega
    · -- the last day of December
      have hdecember : d.month = 12 := by omega
      rw [hdecember] at hsucc hlast
      simp only [dayNumber, daysBeforeYear_succ, hdecember, hsucc, hlast, daysBeforeMonth_one]
      omega

lemma dayNumber_previous : d.previous.dayNumber = d.dayNumber - 1 := by
  obtain ⟨hmonth, -, hfirst, -⟩ := d.bounds
  rw [previous]
  split
  · simp only [dayNumber]
    omega
  · split
    · have hpred := daysBeforeMonth_succ d.year (show 1 ≤ d.month - 1 by omega)
      rw [Nat.sub_add_cancel hmonth] at hpred
      simp only [dayNumber, hpred]
      omega
    · -- the first day of January
      have hjanuary : d.month = 1 := by omega
      have hday : d.day = 1 := by omega
      have hyear := daysBeforeYear_succ (d.year - 1)
      have hdecember : daysBeforeMonth (d.year - 1) 13 = daysBeforeMonth (d.year - 1) 12 + 31 :=
        daysBeforeMonth_succ (d.year - 1) (by decide)
      rw [Int.sub_add_cancel, hdecember] at hyear
      simp only [dayNumber, hjanuary, hday, hyear, daysBeforeMonth_one]
      omega

end Date

namespace Instant

/-- The number of the minute of an instant. -/
def minuteNumber (x : Instant) : Int := x.date.dayNumber * 1440 + x.minute

variable {date date' : Date} {minute minute' : Nat} {offset : Int}

/-- Instants are in the order of their minutes, and within a minute in that of their seconds. -/
lemma compare_eq {x y : Instant} (hx : x.minute < 1440) (hy : y.minute < 1440) :
    Instant.compare x y = (compare x.minuteNumber y.minuteNumber).then
      ((compare x.second y.second).then (compare x.nanosecond y.nanosecond)) := by
  have hminute : compare x.minuteNumber y.minuteNumber =
      (Date.compare x.date y.date).then (compare x.minute y.minute) := by
    rw [Date.compare_eq]
    exact compare_mul_add _ _ hx hy
  rw [Instant.compare, hminute, Ordering.then_assoc]

lemma ofLocal_second (second nanosecond : Nat) :
    (ofLocal date minute second nanosecond offset).second = second := by
  simp only [ofLocal]
  split
  · rfl
  · split <;> rfl

lemma ofLocal_nanosecond (second nanosecond : Nat) :
    (ofLocal date minute second nanosecond offset).nanosecond = nanosecond := by
  simp only [ofLocal]
  split
  · rfl
  · split <;> rfl

lemma ofLocal_zero {second nanosecond : Nat} (h : minute < 1440) :
    ofLocal date minute second nanosecond 0 = ⟨date, minute, second, nanosecond⟩ := by
  simp only [ofLocal]
  rw [if_neg (by omega), if_neg (by omega)]
  simp

/-- Universal time is the time that clocks show less what they are ahead. -/
lemma minuteNumber_ofLocal (date : Date) (second nanosecond : Nat) (hminute : minute < 1440)
    (hoffset : offset.natAbs < 1440) :
    (ofLocal date minute second nanosecond offset).minuteNumber =
      date.dayNumber * 1440 + minute - offset ∧
    (ofLocal date minute second nanosecond offset).minute < 1440 := by
  simp only [ofLocal]
  split
  · simp only [minuteNumber, Date.dayNumber_previous]
    omega
  · split
    · simp only [minuteNumber, Date.dayNumber_next]
      omega
    · simp only [minuteNumber]
      omega

/-- Universal time keeps the order of dates and times of clocks that are equally far ahead. -/
lemma compare_ofLocal (second second' nanosecond nanosecond' : Nat) (hminute : minute < 1440)
    (hminute' : minute' < 1440) (hoffset : offset.natAbs < 1440) :
    Instant.compare (ofLocal date minute second nanosecond offset)
        (ofLocal date' minute' second' nanosecond' offset) =
      (Date.compare date date').then ((compare minute minute').then
        ((compare second second').then (compare nanosecond nanosecond'))) := by
  obtain ⟨hnumber, hbound⟩ := minuteNumber_ofLocal date second nanosecond hminute hoffset
  obtain ⟨hnumber', hbound'⟩ :=
    minuteNumber_ofLocal date' second' nanosecond' hminute' hoffset
  have hlocal := compare_eq (x := ⟨date, minute, second, nanosecond⟩)
    (y := ⟨date', minute', second', nanosecond'⟩) hminute hminute'
  have hshift : ∀ a b : Int, compare (a - offset) (b - offset) = compare a b :=
    fun a b => compare_congr (by omega) (by omega)
  rw [compare_eq hbound hbound', hnumber, hnumber', hshift, ofLocal_second, ofLocal_nanosecond,
    ofLocal_second, ofLocal_nanosecond]
  exact hlocal.symm

lemma compare_eq_eq_iff (x y : Instant) : Instant.compare x y = .eq ↔ x = y := by
  rw [Instant.compare, Ordering.then_eq_eq, Ordering.then_eq_eq, Ordering.then_eq_eq,
    Date.compare_eq_eq_iff, compare_eq_iff_eq, compare_eq_iff_eq, compare_eq_iff_eq]
  constructor
  · rintro ⟨hdate, hminute, hsecond, hnanosecond⟩
    cases x
    cases y
    cases hdate
    cases hminute
    cases hsecond
    cases hnanosecond
    rfl
  · rintro rfl
    exact ⟨rfl, rfl, rfl, rfl⟩

end Instant

end Retrieval
