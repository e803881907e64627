/-
# Numerals of JSON texts

A numeral is a number as it is written: a sign, digits, and optionally a fraction and an exponent.
An integer of the 64-bit ranges keeps its value; any other numeral means a binary64 number, or
nothing if it is too large for one.
-/
import Retrieval.Json
import Retrieval.Number.Decimal

namespace Retrieval.Json

/-- A number as it is written. -/
structure Numeral where
  negative : Bool
  /-- The digits in front of the point. -/
  whole : List Char
  /-- The digits behind the point, if there is one. -/
  fraction : Option (List Char)
  exponent : Option Int
deriving DecidableEq

namespace Numeral

/-! ### Form -/

/-- The fraction in front of a text, if there is one, and what follows it; a point needs a digit
after it. -/
def splitFraction? : List Char → Option (Option (List Char) × List Char)
  | '.' :: cs =>
    let (digits, rest) := spanDigits cs
    if digits.isEmpty then none else some (some digits, rest)
  | cs => some (none, cs)

/-- A whole text as the exponent of a numeral, if there is one. -/
def readExponent? : List Char → Option (Option Int)
  | [] => some none
  | cs => (Decimal.readExponent? cs).map some

/-- A whole text as a numeral without a sign: a zero alone or digits that start with another one, and
an optional fraction and exponent. -/
def ofUnsigned? (negative : Bool) (cs : List Char) : Option Numeral := do
  let (whole, rest) := spanDigits cs
  if whole.isEmpty || (whole.head? == some '0' && whole.length != 1) then none
  else
    let (fraction, rest) ← splitFraction? rest
    let exponent ← readExponent? rest
    some ⟨negative, whole, fraction, exponent⟩

/-- A whole text as a numeral. -/
def ofChars? : List Char → Option Numeral
  | '-' :: cs => ofUnsigned? true cs
  | cs => ofUnsigned? false cs

/-! ### Value -/

/-- Take digits into a natural number as long as it stays below `2 ^ 64`; the number, how many
digits were taken and how many were left. -/
def takeDigits (n : Nat) : List Char → Nat × Nat × Nat
  | [] => (n, 0, 0)
  | c :: cs =>
    let next := n * 10 + (c.toNat - '0'.toNat)
    if next < 0x10000000000000000 then
      let (m, taken, left) := takeDigits next cs
      (m, taken + 1, left)
    else (n, 0, cs.length + 1)

/-- Scale by a power of ten, in steps of at most `10 ^ 308`; `none` if the number grows beyond the
largest finite one. -/
def scaled? (x : Binary64) (exponent : Int) : Option Binary64 :=
  if exponent.natAbs ≤ 308 then x.scaleByTen? exponent
  else if x.mantissa = 0 then some x
  else if 0 < exponent then none
  else (x.scaleByTen? (-308)).bind (scaled? · (exponent + 308))
termination_by exponent.natAbs
decreasing_by omega

/-- The binary64 number of a numeral.  The digits that fit 64 bits are kept, rounded and then
scaled, which rounds once more. -/
def float? (n : Numeral) : Option Binary64 := do
  let (m, _, dropped) := takeDigits 0 n.whole
  let (m, taken, _) := takeDigits m (n.fraction.getD [])
  let x ← Binary64.ofRatio? n.negative m 1
  scaled? x (dropped - taken + n.exponent.getD 0)

/-- The integer of a numeral without a fraction and an exponent, if it is one of the 64-bit ranges.
Minus zero is not an integer. -/
def integer? (n : Numeral) : Option Int :=
  let m := ofDigits n.whole
  if n.fraction.isSome || n.exponent.isSome then none
  else if n.negative then
    if 0 < m ∧ m ≤ 0x8000000000000000 then some (-(m : Int)) else none
  else if m < 0x10000000000000000 then some m
  else none

/-- The number that a numeral means. -/
def value? (n : Numeral) : Option Number :=
  match n.integer? with
  | some m => some (.integer m)
  | none => n.float?.map .float

end Numeral

end Retrieval.Json
