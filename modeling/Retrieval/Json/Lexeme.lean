/-
# Lexemes of JSON texts

A JSON text is a sequence of marks of punctuation, strings between quotes and words, where a word is
a numeral or one of the three names.  Cutting a text into lexemes resolves the escapes of its strings
and drops the blank space between lexemes.
-/

namespace Retrieval.Json

/-- A character of a string or a 16-bit unit of an escape, which may be half of a character. -/
inductive StringPart where
  | char (c : Char)
  | unit (n : Nat)
deriving DecidableEq

/-- A lexeme of a JSON text. -/
inductive Lexeme where
  /-- A bracket, a brace, a comma or a colon. -/
  | mark (c : Char)
  /-- The text between two quotes. -/
  | string (parts : List StringPart)
  /-- A run of other characters. -/
  | word (cs : List Char)
deriving DecidableEq

/-- The four characters that may stand between lexemes. -/
def isSpace (c : Char) : Bool := c == ' ' || c == '\n' || c == '\t' || c == '\r'

/-- The six characters of punctuation. -/
def isMark (c : Char) : Bool :=
  c == '[' || c == ']' || c == '\x7b' || c == '\x7d' || c == ',' || c == ':'

/-- The characters of words. -/
def isWordChar (c : Char) : Bool := !isSpace c && !isMark c && c != '"'

/-! ### The text between quotes -/

/-- The value of a hexadecimal digit. -/
def hexValue? (c : Char) : Option Nat :=
  if '0' ≤ c ∧ c ≤ '9' then some (c.toNat - '0'.toNat)
  else if 'a' ≤ c ∧ c ≤ 'f' then some (c.toNat - 'a'.toNat + 10)
  else if 'A' ≤ c ∧ c ≤ 'F' then some (c.toNat - 'A'.toNat + 10)
  else none

/-- The number written by four hexadecimal digits. -/
def hex4? (a b c d : Char) : Option Nat := do
  let a ← hexValue? a
  let b ← hexValue? b
  let c ← hexValue? c
  let d ← hexValue? d
  some (((a * 16 + b) * 16 + c) * 16 + d)

/-- The character that a backslash and one letter stand for. -/
def escaped? (c : Char) : Option Char :=
  match c with
  | '"' => some '"'
  | '\\' => some '\\'
  | '/' => some '/'
  | 'b' => some '\x08'
  | 'f' => some '\x0c'
  | 'n' => some '\n'
  | 'r' => some '\r'
  | 't' => some '\t'
  | _ => none

/-- Resolve the escapes of the text between two quotes. -/
def stringParts? : List Char → Option (List StringPart)
  | [] => some []
  | '\\' :: 'u' :: a :: b :: c :: d :: rest => do
    let n ← hex4? a b c d
    let parts ← stringParts? rest
    some (.unit n :: parts)
  | '\\' :: c :: rest => do
    let e ← escaped? c
    let parts ← stringParts? rest
    some (.char e :: parts)
  | c :: rest => if c.toNat < 0x20 then none else (stringParts? rest).map (.char c :: ·)

/-- Join the units of escapes: a high surrogate and the low one after it are one character, and
neither may stand alone. -/
def joinUnits? : List StringPart → Option (List Char)
  | [] => some []
  | .char c :: rest => (joinUnits? rest).map (c :: ·)
  | .unit high :: .unit low :: rest =>
    if 0xD800 ≤ high ∧ high < 0xDC00 then
      if 0xDC00 ≤ low ∧ low < 0xE000 then
        (joinUnits? rest).map
          (Char.ofNat (0x10000 + (high - 0xD800) * 0x400 + (low - 0xDC00)) :: ·)
      else none
    else if 0xDC00 ≤ high ∧ high < 0xE000 then none
    else (joinUnits? (.unit low :: rest)).map (Char.ofNat high :: ·)
  | .unit n :: rest =>
    if 0xD800 ≤ n ∧ n < 0xE000 then none else (joinUnits? rest).map (Char.ofNat n :: ·)

/-- The text of a string. -/
def stringText? (parts : List StringPart) : Option String := (joinUnits? parts).map String.ofList

/-! ### Cutting a text into lexemes -/

/-- Put a character in front of the word that the lexemes start with. -/
def consWord (c : Char) : List Lexeme → List Lexeme
  | .word cs :: rest => .word (c :: cs) :: rest
  | other => .word [c] :: other

mutual

/-- The lexemes of a text. -/
def lexemes? : List Char → Option (List Lexeme)
  | [] => some []
  | c :: rest =>
    if isSpace c then lexemes? rest
    else if isMark c then (lexemes? rest).map (.mark c :: ·)
    else if c = '"' then do
      let (body, after) ← stringBody? rest
      let parts ← stringParts? body
      some (.string parts :: after)
    else
      match rest with
      | [] => some [.word [c]]
      | d :: _ =>
        if isWordChar d then (lexemes? rest).map (consWord c)
        else (lexemes? rest).map (.word [c] :: ·)

/-- The characters up to the next quote that no backslash escapes, and the lexemes after it. -/
def stringBody? : List Char → Option (List Char × List Lexeme)
  | [] => none
  | '"' :: rest => (lexemes? rest).map ([], ·)
  | '\\' :: c :: rest => (stringBody? rest).map fun (body, after) => ('\\' :: c :: body, after)
  | c :: rest => (stringBody? rest).map fun (body, after) => (c :: body, after)

end

end Retrieval.Json
