/-
# Finite binary floating-point numbers

A finite number of the IEEE 754 format binary64 is a multiple of `2 ^ -1074` by a natural number
with at most 53 significant bits, with a sign.  The number is kept as that sign, mantissa and
scale, so that rounding and comparison are exact arithmetic on natural numbers and integers.
-/

namespace Retrieval

/-- The quotient of two natural numbers rounded to the nearest, a half to the even neighbour. -/
def roundDiv (num den : Nat) : Nat :=
  let q := num / den
  let r := num % den
  if den < 2 * r ∨ (2 * r = den ∧ q % 2 = 1) then q + 1 else q

/-- A finite binary64 number: `mantissa * 2 ^ scale` units of `2 ^ -1074`, with a sign. -/
structure Binary64 where
  /-- Whether the sign bit is set; zero has both signs. -/
  negative : Bool
  /-- The significand as an integer of at most 53 bits. -/
  mantissa : Nat
  /-- How many powers of two the significand stands above the smallest unit. -/
  scale : Nat
  /-- The mantissa fills its 53 bits unless the number lies in the lowest range. -/
  canonical : mantissa < Nat.pow 2 53 ∧ scale ≤ 2045 ∧ (Nat.pow 2 52 ≤ mantissa ∨ scale = 0)
deriving DecidableEq

namespace Binary64

/-- The magnitude in units of `2 ^ -1074`. -/
def magnitude (x : Binary64) : Nat := x.mantissa * Nat.pow 2 x.scale

/-- The number in units of `2 ^ -1074`; both zeros are `0`. -/
def units (x : Binary64) : Int := if x.negative then -(x.magnitude : Int) else x.magnitude

/-- The zero of the given sign. -/
def zero (negative : Bool) : Binary64 := ⟨negative, 0, 0, by decide⟩

/-- The mantissa and scale of the number nearest to `num / den` units, without a bound on the
scale.  A mantissa that rounds up to 54 bits moves to the next scale. -/
def roundUnits (num den : Nat) : Nat × Nat :=
  let scale := (num / den).log2 - 52
  let mantissa := roundDiv num (den * Nat.pow 2 scale)
  if mantissa = Nat.pow 2 53 then (Nat.pow 2 52, scale + 1) else (mantissa, scale)

/-- The number nearest to `num / den`, a tie going to the even mantissa; `none` beyond the largest
finite number. -/
def ofRatio? (negative : Bool) (num den : Nat) : Option Binary64 :=
  let (mantissa, scale) := roundUnits (num * Nat.pow 2 1074) den
  if h : mantissa < Nat.pow 2 53 ∧ scale ≤ 2045 ∧ (Nat.pow 2 52 ≤ mantissa ∨ scale = 0) then
    some ⟨negative, mantissa, scale, h⟩
  else none

/-- The product of a number and a power of ten, each rounded: a power of ten is itself rounded to
binary64 before the product or, for a negative power, the quotient is rounded. -/
def scaleByTen? (x : Binary64) (exponent : Int) : Option Binary64 := do
  let power ← ofRatio? false (Nat.pow 10 exponent.natAbs) 1
  if exponent < 0 then
    ofRatio? x.negative x.magnitude power.magnitude
  else
    ofRatio? x.negative (x.magnitude * power.magnitude) (Nat.pow 2 2148)

end Binary64

/-- An integer rounded to 53 significant bits, in units of `2 ^ -1074`: the value by which an
integer is compared with a binary64 number. -/
def roundedUnits (n : Int) : Int :=
  let (mantissa, scale) := Binary64.roundUnits (n.natAbs * Nat.pow 2 1074) 1
  n.sign * (mantissa * Nat.pow 2 scale : Nat)

end Retrieval
