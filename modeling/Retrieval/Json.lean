/-
# JSON values

A JSON value as the program holds it.  Integers and binary64 numbers are kept apart, because `1`
and `1.0` are different values.  An object is a list of members; the objects of values in use are
in *canonical* form, with distinct names in increasing order.
-/
import Retrieval.Number.Binary64

namespace Retrieval

/-- A JSON number.  The integers in use lie between `-2 ^ 63` and `2 ^ 64 - 1`. -/
inductive Number where
  /-- A number written without a point and an exponent. -/
  | integer (n : Int)
  /-- Any other number. -/
  | float (x : Binary64)
deriving DecidableEq

namespace Number

/-- The value in units of `2 ^ -1074`, an integer rounded to 53 bits. -/
def units : Number → Int
  | integer n => roundedUnits n
  | float x => x.units

/-- The integer, if the number is one of the 64-bit signed range. -/
def int64? : Number → Option Int
  | integer n => if -0x8000000000000000 ≤ n ∧ n < 0x8000000000000000 then some n else none
  | float _ => none

end Number

/-- A JSON value. -/
inductive Json where
  | null
  | bool (b : Bool)
  | number (n : Number)
  | string (s : String)
  | array (items : List Json)
  | object (members : List (String × Json))
deriving Inhabited

namespace Json

/-- An integer as a JSON value. -/
def int (n : Int) : Json := .number (.integer n)

/-- Whether the value is `null`. -/
def isNull : Json → Bool
  | null => true
  | _ => false

/-- Whether the value is an object. -/
def isObject : Json → Bool
  | object _ => true
  | _ => false

/-- The text of a string. -/
def string? : Json → Option String
  | string s => some s
  | _ => none

/-- The items of an array. -/
def array? : Json → Option (List Json)
  | array items => some items
  | _ => none

/-- The truth value of a boolean. -/
def bool? : Json → Option Bool
  | bool b => some b
  | _ => none

/-- The integer of a number of the 64-bit signed range. -/
def int64? : Json → Option Int
  | number n => n.int64?
  | _ => none

/-! ### Equality -/

mutual

/-- Whether two values are equal. -/
def beq : Json → Json → Bool
  | null, null => true
  | bool a, bool b => a = b
  | number a, number b => a = b
  | string a, string b => a = b
  | array as, array bs => beqItems as bs
  | object as, object bs => beqMembers as bs
  | _, _ => false

/-- Whether two lists of items are equal. -/
def beqItems : List Json → List Json → Bool
  | [], [] => true
  | a :: as, b :: bs => beq a b && beqItems as bs
  | _, _ => false

/-- Whether two lists of members are equal. -/
def beqMembers : List (String × Json) → List (String × Json) → Bool
  | [], [] => true
  | (m, a) :: as, (n, b) :: bs => m = n && beq a b && beqMembers as bs
  | _, _ => false

end

mutual

theorem beq_iff (v w : Json) : beq v w ↔ v = w := by
  cases v <;> cases w <;> simp [beq, beqItems_iff, beqMembers_iff]

theorem beqItems_iff (as bs : List Json) : beqItems as bs ↔ as = bs := by
  cases as <;> cases bs <;> simp [beqItems, beq_iff _ _, beqItems_iff _ _]

theorem beqMembers_iff (as bs : List (String × Json)) : beqMembers as bs ↔ as = bs := by
  cases as <;> cases bs <;> simp [beqMembers, beq_iff _ _, beqMembers_iff _ _, Prod.ext_iff]

end

instance : DecidableEq Json := fun v w => decidable_of_iff _ (beq_iff v w)

/-! ### Members of objects -/

/-- The value of the first member of the given name. -/
def member? (name : String) : List (String × Json) → Option Json
  | [] => none
  | (key, value) :: rest => if key = name then some value else member? name rest

/-- Set a member, keeping increasing order of names. -/
def setMember (name : String) (value : Json) : List (String × Json) → List (String × Json)
  | [] => [(name, value)]
  | (key, old) :: rest =>
    if name < key then (name, value) :: (key, old) :: rest
    else if name = key then (name, value) :: rest
    else (key, old) :: setMember name value rest

/-- Members in increasing order of names, the last value of a repeated name kept. -/
def sortMembers (members : List (String × Json)) : List (String × Json) :=
  members.foldl (fun sorted (name, value) => setMember name value sorted) []

/-- An object of the given members, in canonical form. -/
def ofMembers (members : List (String × Json)) : Json := .object (sortMembers members)

/-- The value of a member of an object; `none` also for a value that is no object. -/
def get? (v : Json) (name : String) : Option Json :=
  match v with
  | object members => member? name members
  | _ => none

/-- Set a member of an object; a value that is no object stays as it is. -/
def set (v : Json) (name : String) (value : Json) : Json :=
  match v with
  | object members => .object (setMember name value members)
  | other => other

@[simp] theorem member?_setMember (name : String) (value : Json) (members : List (String × Json)) :
    member? name (setMember name value members) = some value := by
  induction members with
  | nil => simp [setMember, member?]
  | cons m rest ih =>
    obtain ⟨key, old⟩ := m
    rw [setMember]
    split
    · simp [member?]
    · split
      · simp [member?]
      · next h => rw [member?, if_neg (fun e => h e.symm), ih]

theorem member?_setMember_of_ne {name other : String} (h : other ≠ name) (value : Json)
    (members : List (String × Json)) :
    member? other (setMember name value members) = member? other members := by
  induction members with
  | nil => simp [setMember, member?, h.symm]
  | cons m rest ih =>
    obtain ⟨key, old⟩ := m
    rw [setMember]
    split
    · rw [member?, if_neg h.symm]
    · split
      · next e => subst e; rw [member?, member?, if_neg h.symm, if_neg h.symm]
      · rw [member?, member?, ih]

/-! ### Canonical form -/

mutual

/-- The value with the objects at every depth in canonical form. -/
def canonical : Json → Json
  | null => null
  | bool b => bool b
  | number n => number n
  | string s => string s
  | array items => array (canonicalItems items)
  | object members => object (sortMembers (canonicalMembers members))

/-- The items of an array in canonical form. -/
def canonicalItems : List Json → List Json
  | [] => []
  | item :: rest => canonical item :: canonicalItems rest

/-- The members of an object with their values in canonical form. -/
def canonicalMembers : List (String × Json) → List (String × Json)
  | [] => []
  | (name, value) :: rest => (name, canonical value) :: canonicalMembers rest

end

end Json

end Retrieval
