/-
# Integers as text

The decimal text of an integer is read as that integer.  It has digits and a sign only, so none of
its characters structures a filter or has to be encoded in a link.
-/
import Mathlib.Data.List.Basic
import Retrieval.Filter.Coercion
import Retrieval.Json.Writer
import Retrieval.PercentEncoding
import Retrieval.Text

namespace Retrieval

/-! ### Digits -/

lemma isDigit_eq_true_iff {c : Char} : isDigit c = true ↔ c.isDigit = true := by
  simp [isDigit, Char.isDigit, Char.le_def]

lemma isDigit_of_mem_toDigits {n : Nat} {c : Char} (h : c ∈ Nat.toDigits 10 n) : isDigit c = true :=
  isDigit_eq_true_iff.2 (Nat.isDigit_of_mem_toDigits (by decide) (by decide) h)

lemma ofDigits_toDigits (n : Nat) : ofDigits (Nat.toDigits 10 n) = n := by
  have h := Nat.ofDigitChars_toDigits (b := 10) (n := n) (by decide) (by decide)
  simpa only [Nat.ofDigitChars, ofDigits, Nat.mul_comm] using h

/-- A text of digits has no sign to be split off. -/
lemma splitSign_digits {cs : List Char} (h : ∀ c ∈ cs, isDigit c = true) :
    splitSign cs = (false, cs) := by
  rw [splitSign.eq_def]
  split
  · next cs => exact absurd (h '-' List.mem_cons_self) (by decide)
  · next cs => exact absurd (h '+' List.mem_cons_self) (by decide)
  · rfl

lemma splitSign_toDigits (n : Nat) : splitSign (Nat.toDigits 10 n) = (false, Nat.toDigits 10 n) :=
  splitSign_digits fun _ => isDigit_of_mem_toDigits

/-! ### Numerals -/

/-- A numeral of a natural number: one digit or more, with an optional plus sign. -/
inductive WritesNatural : List Char → Nat → Prop where
  | digits {cs : List Char} : cs ≠ [] → (∀ c ∈ cs, isDigit c = true) → WritesNatural cs (ofDigits cs)
  | plus {cs : List Char} :
    cs ≠ [] → (∀ c ∈ cs, isDigit c = true) → WritesNatural ('+' :: cs) (ofDigits cs)

/-- A numeral of an integer: one of a natural number, or digits behind a minus sign. -/
inductive WritesInteger : List Char → Int → Prop where
  | natural {cs : List Char} {n : Nat} : WritesNatural cs n → WritesInteger cs n
  | minus {cs : List Char} :
    cs ≠ [] → (∀ c ∈ cs, isDigit c = true) → WritesInteger ('-' :: cs) (-(ofDigits cs : Int))

lemma splitSign_cases (cs : List Char) :
    (∃ digits, cs = '-' :: digits) ∨ (∃ digits, cs = '+' :: digits) ∨
      splitSign cs = (false, cs) := by
  rw [splitSign.eq_def]
  split <;> simp

lemma readNatural?_eq_some_iff {cs : List Char} {n : Nat} :
    readNatural? cs = some n ↔ WritesNatural cs n := by
  constructor
  · intro h
    rcases splitSign_cases cs with ⟨digits, rfl⟩ | ⟨digits, rfl⟩ | hsplit
    · simp [readNatural?, splitSign] at h
    · obtain ⟨⟨hne, hdigits⟩, rfl⟩ : (digits ≠ [] ∧ ∀ c ∈ digits, isDigit c = true) ∧
          ofDigits digits = n := by
        simpa [readNatural?, splitSign] using h
      exact .plus hne hdigits
    · obtain ⟨⟨hne, hdigits⟩, rfl⟩ : (cs ≠ [] ∧ ∀ c ∈ cs, isDigit c = true) ∧ ofDigits cs = n := by
        simpa [readNatural?, hsplit] using h
      exact .digits hne hdigits
  · rintro (⟨hne, hdigits⟩ | ⟨hne, hdigits⟩)
    · rw [readNatural?, splitSign_digits hdigits]
      simpa [hne] using hdigits
    · rw [readNatural?, splitSign]
      simpa [hne] using hdigits

/-- An integer is read like a natural number, unless a minus sign stands in front. -/
lemma readInteger?_eq_some_iff {cs : List Char} {n : Int} :
    readInteger? cs = some n ↔ WritesInteger cs n := by
  constructor
  · intro h
    rcases splitSign_cases cs with ⟨digits, rfl⟩ | ⟨digits, rfl⟩ | hsplit
    · obtain ⟨⟨hne, hdigits⟩, rfl⟩ : (digits ≠ [] ∧ ∀ c ∈ digits, isDigit c = true) ∧
          -(ofDigits digits : Int) = n := by
        simpa [readInteger?, splitSign] using h
      exact .minus hne hdigits
    · obtain ⟨⟨hne, hdigits⟩, rfl⟩ : (digits ≠ [] ∧ ∀ c ∈ digits, isDigit c = true) ∧
          (ofDigits digits : Int) = n := by
        simpa [readInteger?, splitSign] using h
      exact .natural (.plus hne hdigits)
    · obtain ⟨⟨hne, hdigits⟩, rfl⟩ : (cs ≠ [] ∧ ∀ c ∈ cs, isDigit c = true) ∧
          (ofDigits cs : Int) = n := by
        simpa [readInteger?, hsplit] using h
      exact .natural (.digits hne hdigits)
  · rintro ((⟨hne, hdigits⟩ | ⟨hne, hdigits⟩) | ⟨hne, hdigits⟩)
    · rw [readInteger?, splitSign_digits hdigits]
      simpa [hne] using hdigits
    · rw [readInteger?, splitSign]
      simpa [hne] using hdigits
    · rw [readInteger?, splitSign]
      simpa [hne] using hdigits

/-! ### Integers -/

/-- The text of an integer is read as it was written. -/
lemma readInteger?_integerChars (n : Int) : readInteger? (integerChars n) = some n := by
  have hall : (Nat.toDigits 10 n.natAbs).all isDigit = true :=
    List.all_eq_true.2 fun c hc => isDigit_of_mem_toDigits hc
  have hne : (Nat.toDigits 10 n.natAbs).isEmpty = false := by
    simp [Nat.toDigits_ne_nil]
  rw [integerChars]
  split
  · next hneg =>
    have habs : -(n.natAbs : Int) = n := by omega
    simp only [readInteger?, splitSign, hall, hne, ofDigits_toDigits, habs]
    rfl
  · next hpos =>
    have habs : (n.natAbs : Int) = n := by omega
    simp only [readInteger?, splitSign_toDigits, hall, hne, ofDigits_toDigits, habs]
    rfl

/-- The characters of integers. -/
lemma isDigit_or_of_mem_integerChars {n : Int} {c : Char} (h : c ∈ integerChars n) :
    isDigit c = true ∨ c = '-' := by
  rw [integerChars] at h
  split at h
  · rcases List.mem_cons.1 h with rfl | h
    · exact .inr rfl
    · exact .inl (isDigit_of_mem_toDigits h)
  · exact .inl (isDigit_of_mem_toDigits h)

/-- No character of an integer means anything in a filter or in a link. -/
lemma plain_of_mem_integerChars {n : Int} {c : Char} (h : c ∈ integerChars n) :
    c ≠ ',' ∧ c ≠ '(' ∧ c ≠ ')' ∧ c ≠ '%' ∧ Text.isBlank c = false := by
  rcases isDigit_or_of_mem_integerChars h with hdigit | rfl
  · have hrange : 48 ≤ c.toNat ∧ c.toNat ≤ 57 := by
      simpa [isDigit, Char.le_def, UInt32.le_iff_toNat_le] using hdigit
    have hne : ∀ d, isDigit d = false → c ≠ d := by
      rintro d hd rfl
      rw [hdigit] at hd
      cases hd
    refine ⟨hne _ (by decide), hne _ (by decide), hne _ (by decide), hne _ (by decide), ?_⟩
    simp only [Text.isBlank, Bool.or_eq_false_iff, Bool.and_eq_false_iff, decide_eq_false_iff_not,
      beq_eq_false_iff_ne]
    omega
  · decide

/-- The integers that a filter can be asked for: those of 64 bits with a sign. -/
def InInt64 (n : Int) : Prop := -0x8000000000000000 ≤ n ∧ n < 0x8000000000000000

instance (n : Int) : Decidable (InInt64 n) := instDecidableAnd

lemma readInt64?_integerChars {n : Int} (h : InInt64 n) :
    ValueType.readInt64? (String.ofList (integerChars n)) = some n := by
  rw [ValueType.readInt64?, String.toList_ofList, readInteger?_integerChars, Option.filter_some]
  exact if_pos (by simpa [InInt64] using h)

/-- The text of an integer is its own encoding. -/
lemma encode_integerChars (n : Int) :
    PercentEncoding.encode (String.ofList (integerChars n)) = String.ofList (integerChars n) := by
  have hself : ∀ c ∈ integerChars n, PercentEncoding.encodeChar c = [c] := by
    intro c hc
    refine if_pos ?_
    rcases isDigit_or_of_mem_integerChars hc with hdigit | rfl
    · rw [isDigit] at hdigit
      simp [PercentEncoding.isUnreserved, hdigit]
    · rfl
  rw [PercentEncoding.encode, String.toList_ofList, List.flatMap_congr hself, List.flatMap_singleton']

end Retrieval
