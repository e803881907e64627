/-
# Writing filters and orders

The written form of tokens, from which they can be read again: a leaf is its path, its operator and
its literal with dots between them, a group its connective with its tokens in brackets behind it, and
commas stand between tokens.
-/
import Retrieval.Filter.Order
import Retrieval.Filter.Token

namespace Retrieval

/-- Texts with a character between them. -/
def Text.joinTexts (sep : Char) (texts : List String) : List Char :=
  [sep].intercalate (texts.map String.toList)

namespace Token

mutual

/-- The written form of a token. -/
def chars : Token → List Char
  | leaf path operator value => Text.joinTexts '.' (path ++ [operator, value.text])
  | group c children => c.name.toList ++ '(' :: charsOf children ++ [')']

/-- The written form of several tokens. -/
def charsOf : List Token → List Char
  | [] => []
  | t :: rest => t.chars ++ charsBehind rest

/-- The written form of tokens behind another one. -/
def charsBehind : List Token → List Char
  | [] => []
  | t :: rest => ',' :: t.chars ++ charsBehind rest

end

end Token

/-- The written form of a filter. -/
def writeFilter (tokens : List Token) : String := String.ofList (Token.charsOf tokens)

/-- The written form of a token of an order, always with its direction. -/
def OrderToken.chars (t : OrderToken) : List Char :=
  Text.joinTexts '.' (t.path ++ [t.direction])

/-- The written form of an order. -/
def writeOrder (tokens : List OrderToken) : String :=
  String.ofList ([','].intercalate (tokens.map OrderToken.chars))

end Retrieval
