/-
# Tokens of filters

A filter is a list of tokens.  A leaf compares the attribute at a path with a literal by an operator,
`path.operator.value`, and a group joins tokens by a connective, `or(...)`.  The piece of text in
front of a bracket says what the bracket holds: a connective opens a group, a leaf without a value
opens the list of its values, and an empty piece a bracket whose tokens belong to the surrounding
group.
-/
import Retrieval.Filter.Error
import Retrieval.Text

namespace Retrieval

/-- An operand as it is written. -/
inductive Literal where
  | scalar (text : String)
  | list (items : List String)
deriving DecidableEq

/-- The text of a literal, a list in brackets. -/
def Literal.text : Literal → String
  | scalar text => text
  | list items => "(" ++ Text.joined "," items ++ ")"

/-- A token of a filter. -/
inductive Token where
  | leaf (path : List String) (operator : String) (value : Literal)
  | group (connective : Connective) (children : List Token)

/-! ### Pieces -/

/-- What the text between two commas or brackets is. -/
inductive Piece where
  | empty
  | connective (c : Connective)
  | leaf (path : List String) (operator value : String)
deriving DecidableEq

namespace Piece

/-- Split the segments after the first one into the rest of a path, an operator and the segments of
a value.  The first segment that is an operator and has another one behind it is the operator; if
there is none, the last segment but one is taken for it. -/
def splitSegments? : List String → Option (List String × String × List String)
  | word :: next :: rest =>
    if (Operator.ofName? word).isSome || rest.isEmpty then some ([], word, next :: rest)
    else (splitSegments? (next :: rest)).map fun (path, operator, value) =>
      (word :: path, operator, value)
  | _ => none

/-- What a piece of text is; `none` if it is nothing that a filter may hold. -/
def ofChars? (cs : List Char) : Option Piece :=
  let cs := Text.trim cs
  if cs.isEmpty then some empty
  else
    match Connective.ofName? (String.ofList cs) with
    | some c => some (connective c)
    | none =>
      match (cs.splitOn '.').map String.ofList with
      | [] => none
      | first :: rest => do
        let (path, operator, value) ← splitSegments? rest
        if (first :: path).any String.isEmpty then none
        else some (leaf (first :: path) operator (Text.joined "." value))

end Piece

/-- What a bracket holds. -/
inductive Opening where
  /-- Tokens of the surrounding group. -/
  | splice
  | group (c : Connective)
  /-- The values of a leaf. -/
  | values (path : List String) (operator : String)
deriving DecidableEq

/-- What a piece of text in front of a bracket opens. -/
def Opening.ofPiece? : Piece → Option Opening
  | .empty => some splice
  | .connective c => some (group c)
  | .leaf path operator value =>
    if value.isEmpty && ((Operator.ofName? operator).map Operator.takesList).getD false then
      some (values path operator)
    else none

/-! ### Reading pieces -/

namespace Token

/-- The refusal of a piece of text. -/
def malformed (input : String) (piece : List Char) : QueryError :=
  .malformedToken (String.ofList (Text.trim piece)) input

/-- The leaf of a piece of text, or nothing if the piece is empty. -/
def ofPiece (input : String) (piece : List Char) : Except QueryError (List Token) :=
  match Piece.ofChars? piece with
  | some .empty => .ok []
  | some (.leaf path operator value) => .ok [leaf path operator (.scalar value)]
  | _ => .error (malformed input piece)

/-- The leaves of pieces of text. -/
def ofPieces (input : String) (pieces : List (List Char)) : Except QueryError (List Token) := do
  let tokens ← pieces.mapM (ofPiece input)
  .ok tokens.flatten

/-- The values of a list: what stands between commas, trimmed and not empty. -/
def listItems (run : List Char) : List String :=
  ((run.splitOn ',').map Text.trim).filterMap fun item =>
    if item.isEmpty then none else some (String.ofList item)

/-- What opens after a run of text: what its last piece says. -/
def opening (input : String) (run : List Char) : Except QueryError Opening :=
  let last := (run.splitOn ',').getLastD []
  match (Piece.ofChars? last).bind Opening.ofPiece? with
  | some o => .ok o
  | none => .error (malformed input last)

end Token

end Retrieval
