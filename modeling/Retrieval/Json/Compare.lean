/-
# Comparing JSON values

Three comparisons are in use.  *Sameness* is equality of values as they are written, up to the order
of members and the sign of zero.  *Loose equality* also compares integers with binary64 numbers by
value.  *Ranking* puts all values, and the absence of a value, into one order for sorting.
-/
import Retrieval.Json

namespace Retrieval

namespace Number

/-- Whether two numbers are the same kind of number with the same value. -/
def same : Number → Number → Bool
  | integer a, integer b => a = b
  | float a, float b => a.units = b.units
  | _, _ => false

/-- The order of two numbers: that of integers of the 64-bit signed range, else that of the nearest
binary64 numbers. -/
def order (a b : Number) : Ordering :=
  match a.int64?, b.int64? with
  | some m, some n => compare m n
  | _, _ => compare a.units b.units

end Number

namespace Json

mutual

/-- Whether two values are the same. -/
def same : Json → Json → Bool
  | null, null => true
  | bool a, bool b => a = b
  | number a, number b => a.same b
  | string a, string b => a = b
  | array as, array bs => sameItems as bs
  | object as, object bs => sameMembers as bs
  | _, _ => false

/-- Whether two lists of items are the same. -/
def sameItems : List Json → List Json → Bool
  | [], [] => true
  | a :: as, b :: bs => same a b && sameItems as bs
  | _, _ => false

/-- Whether two lists of members are the same. -/
def sameMembers : List (String × Json) → List (String × Json) → Bool
  | [], [] => true
  | (m, a) :: as, (n, b) :: bs => m = n && same a b && sameMembers as bs
  | _, _ => false

end

/-- Whether two values are equal, numbers by value. -/
def looseEq : Json → Json → Bool
  | number a, number b => a.order b = .eq
  | a, b => same a b

/-- The order of two numbers, two texts or two truth values; other values have none. -/
def order? : Json → Json → Option Ordering
  | number a, number b => some (a.order b)
  | string a, string b => some (compare a b)
  | bool a, bool b => some (compare a b)
  | _, _ => none

/-- The rank of the kind of a value among all kinds. -/
def kindRank : Json → Nat
  | null => 0
  | bool _ => 1
  | number _ => 2
  | string _ => 3
  | array _ => 4
  | object _ => 5

/-- The order of two values for sorting: by kind, and within a kind by value; all arrays are alike,
and so are all objects. -/
def rank (a b : Json) : Ordering :=
  match a, b with
  | bool a, bool b => compare a b
  | number a, number b => compare a.units b.units
  | string a, string b => compare a b
  | a, b => compare a.kindRank b.kindRank

/-- The order for sorting of values that may be absent; what is absent comes first. -/
def rank? : Option Json → Option Json → Ordering
  | none, none => .eq
  | none, some _ => .lt
  | some _, none => .gt
  | some a, some b => a.rank b

end Json

end Retrieval
