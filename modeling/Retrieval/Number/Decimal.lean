/-
# Decimal literals

A decimal literal is a sign, a natural number of digits and a power of ten.  It has two readings
as a binary64 number: the nearest one, used for operands of a filter, and the *scaled* one, used
for numbers of a JSON text, which rounds the digits first and the scaled value once more.
-/
import Retrieval.Number.Binary64

namespace Retrieval

/-- The natural number written by decimal digits; other characters do not occur. -/
def ofDigits (digits : List Char) : Nat :=
  digits.foldl (fun n c => n * 10 + (c.toNat - '0'.toNat)) 0

/-- Whether the character is one of the ten ASCII digits. -/
def isDigit (c : Char) : Bool := '0' ≤ c && c ≤ '9'

/-- The digits in front of a text and what follows them. -/
def spanDigits (cs : List Char) : List Char × List Char :=
  (cs.takeWhile isDigit, cs.dropWhile isDigit)

/-- A sign in front of a text, as whether it is a minus, and what follows it. -/
def splitSign : List Char → Bool × List Char
  | '-' :: cs => (true, cs)
  | '+' :: cs => (false, cs)
  | cs => (false, cs)

/-- A whole text as an integer: an optional sign and at least one digit. -/
def readInteger? (cs : List Char) : Option Int :=
  let (negative, digits) := splitSign cs
  if digits.isEmpty || !digits.all isDigit then none
  else if negative then some (-(ofDigits digits : Int)) else some (ofDigits digits)

/-- A whole text as a natural number: an optional plus sign and at least one digit.  A minus sign
is refused, also before zero. -/
def readNatural? (cs : List Char) : Option Nat :=
  let (negative, digits) := splitSign cs
  if negative || digits.isEmpty || !digits.all isDigit then none else some (ofDigits digits)

/-- A decimal literal: `digits * 10 ^ exponent`, with a sign. -/
structure Decimal where
  /-- Whether a minus sign stands in front. -/
  negative : Bool
  /-- The digits before and after the point, read as one natural number. -/
  digits : Nat
  /-- The power of ten that the digits are multiplied by. -/
  exponent : Int
deriving DecidableEq

namespace Decimal

/-- The number of decimal digits of a natural number; zero has one. -/
def width (n : Nat) : Nat := (Nat.toDigits 10 n).length

/-- The nearest binary64 number, `none` beyond the largest finite one.  A literal far outside the
range is settled by its leading power of ten. -/
def nearest? (d : Decimal) : Option Binary64 :=
  let top : Int := width d.digits + d.exponent
  if d.digits = 0 ∨ top < -400 then some (Binary64.zero d.negative)
  else if 400 < top then none
  else if d.exponent < 0 then
    Binary64.ofRatio? d.negative d.digits (Nat.pow 10 d.exponent.natAbs)
  else Binary64.ofRatio? d.negative (d.digits * Nat.pow 10 d.exponent.natAbs) 1

/-- The optional exponent of a literal: nothing, or `e` or `E`, an optional sign and at least one
digit up to the end of the text. -/
def readExponent? : List Char → Option Int
  | [] => some 0
  | c :: cs => if c = 'e' ∨ c = 'E' then readInteger? cs else none

/-- A whole text as a decimal literal: an optional sign, digits with an optional point among, before
or after them, and an optional exponent.  The names of infinity and of no number are not literals. -/
def read? (cs : List Char) : Option Decimal := do
  let (negative, body) := splitSign cs
  let (whole, rest) := spanDigits body
  let (fraction, rest) := match rest with
    | '.' :: more => spanDigits more
    | more => ([], more)
  if whole.isEmpty && fraction.isEmpty then none
  else
    let exponent ← readExponent? rest
    some ⟨negative, ofDigits (whole ++ fraction), exponent - fraction.length⟩

end Decimal

end Retrieval
