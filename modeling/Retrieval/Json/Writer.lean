/-
# Writing JSON values as text

The text form is compact: no blank space, members in the order they are held, characters outside
ASCII as they are.  Between quotes only the quote, the backslash and the control characters below
the space are escaped.
-/
import Retrieval.Json
import Retrieval.Number.Shortest

namespace Retrieval

/-- How a binary64 number is laid out in text. -/
structure FloatLayout where
  /-- The least power of ten of the leading digit that is written positionally. -/
  least : Int
  /-- The greatest such power. -/
  greatest : Int

namespace FloatLayout

/-- The layout of JSON numbers: positional from `0.00001` up to sixteen digits before the point. -/
def json : FloatLayout := ⟨-5, 15⟩

/-- Digits around a point, which has at least one digit on either side. -/
def positional (d : Significant) : List Char :=
  if d.leading < 0 then
    '0' :: '.' :: List.replicate (-d.leading - 1).toNat '0' ++ d.digits
  else
    let n := d.leading.toNat + 1
    let fraction := d.digits.drop n
    d.digits.take n ++ List.replicate (n - d.digits.length) '0' ++ '.' ::
      (if fraction.isEmpty then ['0'] else fraction)

/-- One digit before the point, if there is a point, and a signed exponent. -/
def scientific (d : Significant) : List Char :=
  let fraction := d.digits.drop 1
  d.digits.take 1 ++ (if fraction.isEmpty then [] else '.' :: fraction) ++ 'e' ::
    (if d.leading < 0 then '-' else '+') :: Nat.toDigits 10 d.leading.natAbs

/-- The text of a number; zero keeps its sign. -/
def write (l : FloatLayout) (x : Binary64) : List Char :=
  let d := Significant.shortest x
  let body :=
    if d.digits.isEmpty then ['0', '.', '0']
    else if l.least ≤ d.leading ∧ d.leading ≤ l.greatest then positional d
    else scientific d
  if x.negative then '-' :: body else body

end FloatLayout

/-- The decimal text of an integer. -/
def integerChars (n : Int) : List Char :=
  if n < 0 then '-' :: Nat.toDigits 10 n.natAbs else Nat.toDigits 10 n.natAbs

/-- The text of a JSON number. -/
def Number.chars : Number → List Char
  | integer n => integerChars n
  | float x => FloatLayout.json.write x

namespace Json

/-- The lower-case hexadecimal digit of a number below sixteen. -/
def hexDigit (n : Nat) : Char := "0123456789abcdef".toList.getD n '0'

/-- A character as it stands between quotes. -/
def escapeChar (c : Char) : List Char :=
  if c = '"' then ['\\', '"']
  else if c = '\\' then ['\\', '\\']
  else if c = '\x08' then ['\\', 'b']
  else if c = '\x0c' then ['\\', 'f']
  else if c = '\n' then ['\\', 'n']
  else if c = '\r' then ['\\', 'r']
  else if c = '\t' then ['\\', 't']
  else if c.toNat < 0x20 then
    ['\\', 'u', '0', '0', hexDigit (c.toNat / 16), hexDigit (c.toNat % 16)]
  else [c]

/-- A text between quotes. -/
def quoted (s : String) : List Char := '"' :: s.toList.flatMap escapeChar ++ ['"']

mutual

/-- The text form of a value. -/
def chars : Json → List Char
  | null => "null".toList
  | bool b => if b then "true".toList else "false".toList
  | number n => n.chars
  | string s => quoted s
  | array items => '[' :: itemChars items ++ [']']
  | object members => '{' :: memberChars members ++ ['}']

/-- The text of items with commas between them. -/
def itemChars : List Json → List Char
  | [] => []
  | item :: rest => chars item ++ moreItemChars rest

/-- The text of items each with a comma in front. -/
def moreItemChars : List Json → List Char
  | [] => []
  | item :: rest => ',' :: chars item ++ moreItemChars rest

/-- The text of members with commas between them. -/
def memberChars : List (String × Json) → List Char
  | [] => []
  | (name, value) :: rest => quoted name ++ ':' :: chars value ++ moreMemberChars rest

/-- The text of members each with a comma in front. -/
def moreMemberChars : List (String × Json) → List Char
  | [] => []
  | (name, value) :: rest => ',' :: quoted name ++ ':' :: chars value ++ moreMemberChars rest

end

/-- The text form of a value. -/
def text (v : Json) : String := String.ofList v.chars

end Json

end Retrieval
