/-
# JSON texts as they are written

The tree of a JSON text keeps numerals and strings as they are written, so that a text may be well
formed although one of its parts has no value: a numeral may be too large, and an escape may be
half of a character.  The lexemes of a text are read from the left with a stack of the containers
that are open; a value that is complete is put into the innermost of them.
-/
import Retrieval.Json.Lexeme
import Retrieval.Json.Numeral

namespace Retrieval.Json

/-- A JSON text as it is written. -/
inductive Written where
  | null
  | bool (b : Bool)
  | number (n : Numeral)
  | string (parts : List StringPart)
  | array (items : List Written)
  | object (members : List (List StringPart × Written))

namespace Written

/-- What a word is: one of the three names or a numeral. -/
def ofWord? (cs : List Char) : Option Written :=
  if cs = "null".toList then some null
  else if cs = "true".toList then some (bool true)
  else if cs = "false".toList then some (bool false)
  else (Numeral.ofChars? cs).map number

/-! ### From lexemes to trees -/

/-- A container that is open, with what it already holds in reverse order. -/
inductive Frame where
  | items (done : List Written)
  /-- The name is that of the member being read. -/
  | members (done : List (List StringPart × Written)) (name : List StringPart)

mutual

/-- Read a value ahead inside the open containers. -/
def ahead? (opened : List Frame) : List Lexeme → Option Written
  | .string parts :: rest => behind? opened (string parts) rest
  | .word cs :: rest =>
    match ofWord? cs with
    | some w => behind? opened w rest
    | none => none
  | .mark '[' :: .mark ']' :: rest => behind? opened (array []) rest
  | .mark '[' :: rest => ahead? (.items [] :: opened) rest
  | .mark '\x7b' :: .mark '\x7d' :: rest => behind? opened (object []) rest
  | .mark '\x7b' :: .string name :: .mark ':' :: rest => ahead? (.members [] name :: opened) rest
  | _ => none

/-- Go on behind a value: put it into the innermost open container, or end the text with it. -/
def behind? (opened : List Frame) (w : Written) : List Lexeme → Option Written
  | [] => if opened.isEmpty then some w else none
  | .mark c :: rest =>
    match opened with
    | .items done :: outer =>
      if c = ',' then ahead? (.items (w :: done) :: outer) rest
      else if c = ']' then behind? outer (array (w :: done).reverse) rest
      else none
    | .members done name :: outer =>
      if c = ',' then
        match rest with
        | .string next :: .mark ':' :: rest =>
          ahead? (.members ((name, w) :: done) next :: outer) rest
        | _ => none
      else if c = '\x7d' then behind? outer (object ((name, w) :: done).reverse) rest
      else none
    | [] => none
  | _ => none

end

/-- The tree of a text. -/
def ofText? (s : String) : Option Written := (lexemes? s.toList).bind (ahead? [])

end Written

end Retrieval.Json
