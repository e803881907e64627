/-
# Predicates

A predicate is a boolean expression over comparisons.  The smart constructors `Predicate.and` and
`Predicate.or` dissolve nested expressions of the same kind and leave a single part as it is.
-/
import Retrieval.Filter.Test
import Retrieval.Json.Record
import Retrieval.Json.Writer
import Retrieval.Text

namespace Retrieval

/-- A test of the values under a path. -/
structure Comparison where
  path : List String
  test : Test
  /-- The operand, `null` for a test without one. -/
  value : Json
  negated : Bool
deriving DecidableEq

namespace Comparison

/-- The path with dots between its segments. -/
def dotted (c : Comparison) : String := Text.joined "." c.path

/-- A comparison in words. -/
def display (c : Comparison) : String :=
  let head := c.dotted ++ " " ++ (if c.negated then "not " else "") ++ c.test.name
  if c.test.isNullCheck then head else head ++ " " ++ c.value.text

end Comparison

/-- A boolean expression over comparisons. -/
inductive Predicate where
  | compare (c : Comparison)
  /-- All parts hold; without parts it always holds. -/
  | and (parts : List Predicate)
  /-- Some part holds; without parts it never holds. -/
  | or (parts : List Predicate)
  | not (part : Predicate)

namespace Predicate

/-! ### Equality -/

mutual

/-- Whether two predicates are equal. -/
def beq : Predicate → Predicate → Bool
  | .compare c, .compare d => c = d
  | .and ps, .and qs => beqParts ps qs
  | .or ps, .or qs => beqParts ps qs
  | .not p, .not q => beq p q
  | _, _ => false

/-- Whether two lists of predicates are equal. -/
def beqParts : List Predicate → List Predicate → Bool
  | [], [] => true
  | p :: ps, q :: qs => beq p q && beqParts ps qs
  | _, _ => false

end

mutual

theorem beq_iff (p q : Predicate) : beq p q ↔ p = q := by
  cases p <;> cases q <;> simp [beq, beqParts_iff, beq_iff]

theorem beqParts_iff (ps qs : List Predicate) : beqParts ps qs ↔ ps = qs := by
  cases ps <;> cases qs <;> simp [beqParts, beq_iff, beqParts_iff]

end

instance : DecidableEq Predicate := fun p q => decidable_of_iff _ (beq_iff p q)

/-! ### Construction -/

/-- The predicate that always holds. -/
def always : Predicate := .and []

/-- Whether the predicate is the one that always holds, as it is written. -/
def isAlways : Predicate → Bool
  | .and [] => true
  | _ => false

/-- The parts that a predicate brings into a conjunction. -/
def conjuncts : Predicate → List Predicate
  | .and parts => parts
  | other => [other]

/-- The parts that a predicate brings into a disjunction. -/
def disjuncts : Predicate → List Predicate
  | .or parts => parts
  | other => [other]

/-- The conjunction of predicates. -/
def all (ps : List Predicate) : Predicate :=
  match ps.flatMap conjuncts with
  | [only] => only
  | parts => .and parts

/-- The disjunction of predicates. -/
def any (ps : List Predicate) : Predicate :=
  match ps.flatMap disjuncts with
  | [only] => only
  | parts => .or parts

mutual

/-- The comparisons from left to right. -/
def comparisons : Predicate → List Comparison
  | .compare c => [c]
  | .and parts => comparisonsOf parts
  | .or parts => comparisonsOf parts
  | .not part => part.comparisons

/-- The comparisons of several predicates from left to right. -/
def comparisonsOf : List Predicate → List Comparison
  | [] => []
  | p :: rest => p.comparisons ++ comparisonsOf rest

end

/-- The distinct paths that the predicate mentions, in increasing order. -/
def paths (p : Predicate) : List String :=
  ((p.comparisons.map Comparison.dotted).mergeSort (fun a b => decide (a ≤ b))).eraseDups

/-! ### In words -/

mutual

/-- A predicate in words. -/
def display : Predicate → String
  | .compare c => c.display
  | .and parts => "AND(" ++ displayParts parts ++ ")"
  | .or parts => "OR(" ++ displayParts parts ++ ")"
  | .not part => "NOT(" ++ part.display ++ ")"

/-- Predicates in words with commas between them. -/
def displayParts : List Predicate → String
  | [] => ""
  | p :: rest => p.display ++ displayMore rest

/-- Predicates in words each with a comma in front. -/
def displayMore : List Predicate → String
  | [] => ""
  | p :: rest => ", " ++ p.display ++ displayMore rest

end

end Predicate

/-! ### JSON form -/

namespace Comparison

/-- The fields of the JSON form, in order. -/
def fieldNames : List String := ["path", "op", "value", "negated"]

/-- The JSON form of a comparison; that it is negated is written only if it is. -/
def toJson (c : Comparison) : Json :=
  .ofMembers <|
    [("path", .array (c.path.map .string)), ("op", .string c.test.name), ("value", c.value)] ++
    if c.negated then [("negated", .bool true)] else []

/-- Read the JSON form of a comparison. -/
def ofJson? (v : Json) : Option Comparison := do
  let field ← v.fields? fieldNames 3
  let path ← (field "path").bind (Json.list? Json.string?)
  let test ← ((field "op").bind Json.enumerator?).bind Test.ofName?
  let value ← field "value"
  let negated ← Json.withDefault? Json.bool? false (field "negated")
  some ⟨path, test, value, negated⟩

end Comparison

namespace Predicate

mutual

/-- The JSON form of a predicate: an object whose only member names the kind. -/
def toJson : Predicate → Json
  | .compare c => .object [("compare", c.toJson)]
  | .and parts => .object [("and", .array (partsToJson parts))]
  | .or parts => .object [("or", .array (partsToJson parts))]
  | .not part => .object [("not", part.toJson)]

/-- The JSON forms of several predicates. -/
def partsToJson : List Predicate → List Json
  | [] => []
  | p :: rest => p.toJson :: partsToJson rest

end

mutual

/-- Read the JSON form of a predicate. -/
def ofJson? : Json → Option Predicate
  | .object [(kind, value)] =>
    if kind = "compare" then (Comparison.ofJson? value).map .compare
    else if kind = "not" then (ofJson? value).map .not
    else
      match value with
      | .array parts =>
        if kind = "and" then (partsOfJson? parts).map .and
        else if kind = "or" then (partsOfJson? parts).map .or
        else none
      | _ => none
  | _ => none

/-- Read the JSON forms of several predicates. -/
def partsOfJson? : List Json → Option (List Predicate)
  | [] => some []
  | v :: rest => do
    let p ← ofJson? v
    let ps ← partsOfJson? rest
    some (p :: ps)

end

end Predicate

end Retrieval
