/-
# The shortest decimal that reads back

The decimal text of a binary64 number has the fewest significant digits among all decimals that
round to the number, and among those with so few digits the nearest to it.  The decimals that round
to a number form an interval around it; for one, two, three … digits the two neighbours of the
number on the decimal grid are tested against that interval in exact arithmetic, and the first grid
with a hit wins.
-/
import Retrieval.Number.Decimal

namespace Retrieval

/-- The magnitudes that round to a binary64 number, in units of `2 ^ -1076`. -/
structure RoundingInterval where
  /-- The number itself. -/
  value : Nat
  /-- Half-way to the next smaller number. -/
  lower : Nat
  /-- Half-way to the next larger number. -/
  upper : Nat
  /-- Whether the two ends round to the number, as ties go to an even mantissa. -/
  closed : Bool

namespace RoundingInterval

/-- The interval of a number.  Below a power of two the neighbours lie twice as close. -/
def of (x : Binary64) : RoundingInterval where
  value := 4 * x.mantissa * Nat.pow 2 x.scale
  lower :=
    if x.mantissa = Nat.pow 2 52 ∧ 0 < x.scale then (4 * x.mantissa - 1) * Nat.pow 2 x.scale
    else (4 * x.mantissa - 2) * Nat.pow 2 x.scale
  upper := (4 * x.mantissa + 2) * Nat.pow 2 x.scale
  closed := x.mantissa % 2 = 0

/-- Whether the fraction `num / den` lies in the interval. -/
def holds (i : RoundingInterval) (num den : Nat) : Bool :=
  if i.closed then i.lower * den ≤ num && num ≤ i.upper * den
  else i.lower * den < num && num < i.upper * den

/-- One whole in the units of an interval. -/
def one : Nat := Nat.pow 2 1076

/-- The power of ten of the leading digit of a positive value. -/
def leadingPower (i : RoundingInterval) : Int :=
  if one ≤ i.value then (Decimal.width (i.value / one) : Int) - 1
  else -(Decimal.width (one / i.value) : Int)

/-- A multiple of `10 ^ power` in the interval, if the two multiples next to the value contain one:
the nearer if both do, and of two equally near the even one. -/
def multiple? (i : RoundingInterval) (power : Int) : Option Nat :=
  let den := Nat.pow 10 (-power).toNat
  let step := one * Nat.pow 10 power.toNat
  let below := i.value * den / step
  let above := below + 1
  match i.holds (below * step) den, i.holds (above * step) den with
  | false, false => none
  | true, false => some below
  | false, true => some above
  | true, true =>
    let twice := 2 * (i.value * den)
    let middle := (below + above) * step
    if twice < middle ∨ (twice = middle ∧ below % 2 = 0) then some below else some above

end RoundingInterval

/-- Significant decimal digits and the power of ten of the first of them. -/
structure Significant where
  /-- The digits, the last of them not zero. -/
  digits : List Char
  /-- The power of ten that the first digit counts. -/
  leading : Int
deriving DecidableEq

namespace Significant

/-- The significant digits of `n * 10 ^ power`. -/
def ofNat (n : Nat) (power : Int) : Significant :=
  let digits := Nat.toDigits 10 n
  ⟨(digits.reverse.dropWhile (· = '0')).reverse, power + digits.length - 1⟩

/-- The shortest decimal that reads back as the magnitude of `x`; no digits for zero.  Seventeen
digits are always enough. -/
def shortest (x : Binary64) : Significant :=
  let i := RoundingInterval.of x
  let top := i.leadingPower
  let hit := (List.range 17).findSome? fun (k : Nat) =>
    (i.multiple? (top - k)).map fun n => ofNat n (top - k)
  if x.mantissa = 0 then ⟨[], 0⟩ else hit.getD ⟨[], 0⟩

end Significant

end Retrieval
