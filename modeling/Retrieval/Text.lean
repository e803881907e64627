/-
# Blank space and trimming of text

A filter is cut at commas and its pieces at dots, and what is cut off is trimmed of blank space.
Blank means the Unicode property `White_Space`, so a no-break space is trimmed and a zero-width
space is not.  The functions work on lists of characters; `String` stands at the borders.
-/

namespace Retrieval.Text

/-- The characters with the Unicode property `White_Space`. -/
def isBlank (c : Char) : Bool :=
  let n := c.toNat
  (0x09 ≤ n && n ≤ 0x0D) || n == 0x20 || n == 0x85 || n == 0xA0 || n == 0x1680 ||
    (0x2000 ≤ n && n ≤ 0x200A) || n == 0x2028 || n == 0x2029 || n == 0x202F || n == 0x205F ||
    n == 0x3000

/-- Without the blank characters in front. -/
def trimStart (cs : List Char) : List Char := cs.dropWhile isBlank

/-- Without the blank characters at the end. -/
def trimEnd (cs : List Char) : List Char := (cs.reverse.dropWhile isBlank).reverse

/-- Without the blank characters at both ends. -/
def trim (cs : List Char) : List Char := trimEnd (trimStart cs)

/-- A text without the blank characters at both ends. -/
def trimmed (s : String) : String := String.ofList (trim s.toList)

/-- Whether a text has no character but blank ones. -/
def isBlankText (s : String) : Bool := s.toList.all isBlank

/-- Texts with a separating text between them. -/
def joined (sep : String) (texts : List String) : String := sep.intercalate texts

end Retrieval.Text
