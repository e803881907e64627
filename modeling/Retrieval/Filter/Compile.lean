/-
# From filters to predicates

A leaf becomes a comparison: its path is resolved, its operator turned into a test, and its literal
typed by the last attribute of the path, in this order.  Groups become boolean expressions.  The
first leaf that is refused ends the work.
-/
import Retrieval.Filter.Coercion
import Retrieval.Filter.Conversion
import Retrieval.Filter.Order
import Retrieval.Filter.Path
import Retrieval.Filter.Predicate
import Retrieval.Filter.Reader

namespace Retrieval

/-- The value of an operand of a test on the last attribute of a path. -/
def Operand.coerce {g : Graph} (p : ResolvedPath g) (test : Test) :
    Operand → Except QueryError Json
  | text s => p.type.coerceFor test p.terminal s
  | flag b => .ok (.bool b)
  | list items => do
    let values ← items.mapM (p.type.coerce p.terminal)
    .ok (.array values)
  | none => .ok .null

namespace Graph

/-- The comparison of a leaf. -/
def compileLeaf (g : Graph) (root : g.Id) (path : List String) (operator : String)
    (value : Literal) : Except QueryError Comparison := do
  let p ← g.resolvePath root path
  let c ← Conversion.of operator value
  let v ← c.operand.coerce p c.test
  .ok ⟨p.segments, c.test, v, c.negated⟩

/-- The predicate of a group. -/
def joinParts : Connective → List Predicate → Predicate
  | .and, parts => .all parts
  | .or, parts => .any parts
  | .not, parts => .not (.all parts)

mutual

/-- The predicate of a token. -/
def compileToken (g : Graph) (root : g.Id) : Token → Except QueryError Predicate
  | .leaf path operator value => do
    let c ← g.compileLeaf root path operator value
    .ok (.compare c)
  | .group c children => do
    let parts ← compileTokens g root children
    .ok (joinParts c parts)

/-- The predicates of tokens. -/
def compileTokens (g : Graph) (root : g.Id) : List Token → Except QueryError (List Predicate)
  | [] => .ok []
  | t :: rest => do
    let p ← compileToken g root t
    let ps ← compileTokens g root rest
    .ok (p :: ps)

end

/-- The predicate that all tokens together mean. -/
def compile (g : Graph) (root : g.Id) (tokens : List Token) : Except QueryError Predicate := do
  let parts ← g.compileTokens root tokens
  .ok (.all parts)

/-- The schema that a filter or an order is asked of. -/
def queried (g : Graph) (schema : String) : Except QueryError g.Id :=
  match g.find? schema with
  | some i => .ok i
  | none => .error (.unknownSchema schema)

/-- The predicate of a filter on the schema of a name. -/
def compileFilter (g : Graph) (schema filter : String) : Except QueryError Predicate := do
  let root ← g.queried schema
  let tokens ← readFilter filter
  g.compile root tokens

/-- The keys of an order on the schema of a name. -/
def compileOrder (g : Graph) (schema order : String) : Except QueryError (List OrderKey) := do
  let root ← g.queried schema
  let tokens ← readOrder order
  OrderKey.ofTokens g root tokens

end Graph

end Retrieval
