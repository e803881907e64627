/-
# Calendar dates and instants

Dates of the Gregorian calendar, carried back before its introduction and on without end, and
instants of universal time.  A leap second is the sixtieth second of its minute.
-/

namespace Retrieval

namespace Calendar

/-- Whether a year has a twenty-ninth of February. -/
def isLeapYear (year : Int) : Bool :=
  year % 4 = 0 && (year % 100 != 0 || year % 400 = 0)

/-- The number of days of a month. -/
def daysInMonth (year : Int) (month : Nat) : Nat :=
  if month = 2 then (if isLeapYear year then 29 else 28)
  else if month = 4 ∨ month = 6 ∨ month = 9 ∨ month = 11 then 30
  else 31

theorem one_le_daysInMonth (year : Int) (month : Nat) : 1 ≤ daysInMonth year month := by
  unfold daysInMonth
  split
  · split <;> omega
  · split <;> omega

/-- Whether a year has a month and the month a day of the given numbers. -/
def exists? (year : Int) (month day : Nat) : Bool :=
  1 ≤ month && month ≤ 12 && 1 ≤ day && day ≤ daysInMonth year month

end Calendar

/-- A date that exists. -/
structure Date where
  year : Int
  month : Nat
  day : Nat
  valid : Calendar.exists? year month day
deriving DecidableEq

namespace Date

open Calendar

/-- The date of three numbers, if it exists. -/
def of? (year : Int) (month day : Nat) : Option Date :=
  if h : exists? year month day then some ⟨year, month, day, h⟩ else none

/-- The day after. -/
def next (d : Date) : Date :=
  if h : d.day < daysInMonth d.year d.month then
    ⟨d.year, d.month, d.day + 1, by
      have := d.valid; simp [exists?] at this ⊢; omega⟩
  else if h : d.month < 12 then
    ⟨d.year, d.month + 1, 1, by
      have := d.valid; have := one_le_daysInMonth d.year (d.month + 1)
      simp [exists?] at *; omega⟩
  else ⟨d.year + 1, 1, 1, by
    have := one_le_daysInMonth (d.year + 1) 1
    simp [exists?]; omega⟩

/-- The day before. -/
def previous (d : Date) : Date :=
  if h : 1 < d.day then
    ⟨d.year, d.month, d.day - 1, by
      have := d.valid; simp [exists?] at this ⊢; omega⟩
  else if h : 1 < d.month then
    ⟨d.year, d.month - 1, daysInMonth d.year (d.month - 1), by
      have := d.valid; have := one_le_daysInMonth d.year (d.month - 1)
      simp [exists?] at *; omega⟩
  else ⟨d.year - 1, 12, 31, by simp [exists?, daysInMonth]⟩

/-- Earlier or later, by year, then month, then day. -/
protected def compare (a b : Date) : Ordering :=
  (compare a.year b.year).then ((compare a.month b.month).then (compare a.day b.day))

end Date

/-- An instant of universal time. -/
structure Instant where
  date : Date
  /-- Minutes since the date began. -/
  minute : Nat
  /-- Seconds since the minute began, `60` in a leap second. -/
  second : Nat
  nanosecond : Nat
deriving DecidableEq

namespace Instant

/-- The instant at which clocks `offset` minutes ahead of universal time show the given date and
time.  The offset is less than a day. -/
def ofLocal (date : Date) (minute second nanosecond : Nat) (offset : Int) : Instant :=
  let shifted := (minute : Int) - offset
  if shifted < 0 then ⟨date.previous, (shifted + 1440).toNat, second, nanosecond⟩
  else if 1440 ≤ shifted then ⟨date.next, (shifted - 1440).toNat, second, nanosecond⟩
  else ⟨date, shifted.toNat, second, nanosecond⟩

/-- Earlier or later. -/
protected def compare (a b : Instant) : Ordering :=
  (Date.compare a.date b.date).then ((compare a.minute b.minute).then
    ((compare a.second b.second).then (compare a.nanosecond b.nanosecond)))

end Instant

end Retrieval
