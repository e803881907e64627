/-
# Percent-encoding

In the query of a link a byte of a text stands for itself if it is that of an unreserved character:
an ASCII letter or digit, a hyphen, a full stop, an underscore or a tilde.  Any other byte of the
text in UTF-8 is written as a percent sign and two hexadecimal digits.  Decoding takes the digits
back to bytes and the bytes to text, and finds what was encoded (`decode?_encode`).
-/

namespace Retrieval.PercentEncoding

/-! ### Encoding -/

/-- The upper-case hexadecimal digit of a number below sixteen. -/
def hexDigit (n : Nat) : Char := "0123456789ABCDEF".toList.getD n '0'

/-- Whether a character stands for itself. -/
def isUnreserved (c : Char) : Bool :=
  ('A' ≤ c && c ≤ 'Z') || ('a' ≤ c && c ≤ 'z') || ('0' ≤ c && c ≤ '9') ||
    c == '-' || c == '.' || c == '_' || c == '~'

/-- A byte as a percent sign and two digits. -/
def encodeByte (b : UInt8) : List Char :=
  ['%', hexDigit (b.toNat / 16), hexDigit (b.toNat % 16)]

/-- The encoding of a character. -/
def encodeChar (c : Char) : List Char :=
  if isUnreserved c then [c] else (String.utf8EncodeChar c).flatMap encodeByte

/-- The encoding of a text. -/
def encode (s : String) : String := String.ofList (s.toList.flatMap encodeChar)

/-! ### Decoding -/

/-- The value of a hexadecimal digit of either case. -/
def hexValue? (c : Char) : Option Nat :=
  if '0' ≤ c ∧ c ≤ '9' then some (c.toNat - '0'.toNat)
  else if 'A' ≤ c ∧ c ≤ 'F' then some (c.toNat - 'A'.toNat + 10)
  else if 'a' ≤ c ∧ c ≤ 'f' then some (c.toNat - 'a'.toNat + 10)
  else none

/-- The bytes of an encoded text.  A percent sign that no two digits follow stands for itself. -/
def decodeBytes : List Char → List UInt8
  | [] => []
  | '%' :: high :: low :: rest =>
    match hexValue? high, hexValue? low with
    | some m, some n => UInt8.ofNat (m * 16 + n) :: decodeBytes rest
    | _, _ => String.utf8EncodeChar '%' ++ decodeBytes (high :: low :: rest)
  | c :: rest => String.utf8EncodeChar c ++ decodeBytes rest

/-- The text of an encoded text; `none` if its bytes are not UTF-8. -/
def decode? (s : String) : Option String :=
  String.fromUTF8? (decodeBytes s.toList).toByteArray

theorem hexValue?_hexDigit (n : Nat) (h : n < 16) : hexValue? (hexDigit n) = some n := by
  have : ∀ n : Fin 16, hexValue? (hexDigit n) = some n.val := by decide
  exact this ⟨n, h⟩

theorem decodeBytes_encodeByte (b : UInt8) (rest : List Char) :
    decodeBytes (encodeByte b ++ rest) = b :: decodeBytes rest := by
  have hb : b.toNat < 256 := b.toNat_lt
  have e : b.toNat / 16 * 16 + b.toNat % 16 = b.toNat := by omega
  simp only [encodeByte, List.cons_append, List.nil_append, decodeBytes,
    hexValue?_hexDigit (b.toNat / 16) (by omega), hexValue?_hexDigit (b.toNat % 16) (by omega), e,
    UInt8.ofNat_toNat]

theorem decodeBytes_encodeBytes (bs : List UInt8) (rest : List Char) :
    decodeBytes (bs.flatMap encodeByte ++ rest) = bs ++ decodeBytes rest := by
  induction bs with
  | nil => rfl
  | cons b bs ih =>
    rw [List.flatMap_cons, List.append_assoc, decodeBytes_encodeByte, ih, List.cons_append]

theorem decodeBytes_cons_of_ne {c : Char} (h : c ≠ '%') (rest : List Char) :
    decodeBytes (c :: rest) = String.utf8EncodeChar c ++ decodeBytes rest := by
  rw [decodeBytes.eq_def]
  split
  · next e => cases e
  · next e =>
    injection e with e _
    exact absurd e h
  · next e =>
    injection e with e e'
    rw [e, e']

theorem decodeBytes_encodeChar (c : Char) (rest : List Char) :
    decodeBytes (encodeChar c ++ rest) = String.utf8EncodeChar c ++ decodeBytes rest := by
  unfold encodeChar
  split
  · next h =>
    refine decodeBytes_cons_of_ne ?_ rest
    rintro rfl
    exact absurd h (by decide)
  · exact decodeBytes_encodeBytes _ rest

theorem decodeBytes_flatMap_encodeChar (cs : List Char) :
    decodeBytes (cs.flatMap encodeChar) = cs.flatMap String.utf8EncodeChar := by
  induction cs with
  | nil => rfl
  | cons c cs ih => rw [List.flatMap_cons, decodeBytes_encodeChar, ih, List.flatMap_cons]

/-- The bytes of a text read back as the text. -/
theorem fromUTF8?_utf8Encode (cs : List Char) :
    String.fromUTF8? (cs.flatMap String.utf8EncodeChar).toByteArray = some (String.ofList cs) := by
  have h : (cs.flatMap String.utf8EncodeChar).toByteArray.IsValidUTF8 := .intro cs rfl
  rw [String.fromUTF8?, dif_pos h]
  rfl

/-- Decoding inverts encoding. -/
theorem decode?_encode (s : String) : decode? (encode s) = some s := by
  rw [decode?, encode, String.toList_ofList, decodeBytes_flatMap_encodeChar, fromUTF8?_utf8Encode,
    String.ofList_toList]

end Retrieval.PercentEncoding
