/-
# Strings between quotes

A string is written between quotes with its quotes, backslashes and control characters escaped.
Cutting such a text into lexemes finds the closing quote, and resolving the escapes gives back the
characters of the string.
-/
import Mathlib.Data.List.Forall2
import Mathlib.Tactic.Lemma
import Retrieval.Json.Lexeme
import Retrieval.Json.Writer

namespace Retrieval.Json

/-! ### Characters -/

lemma hexValue?_hexDigit {n : Nat} (h : n < 16) : hexValue? (hexDigit n) = some n := by
  have hall : ∀ n : Fin 16, hexValue? (hexDigit n) = some n.val := by decide
  exact hall ⟨n, h⟩

lemma hexDigit_ne {n : Nat} (h : n < 16) :
    hexDigit n ≠ '"' ∧ hexDigit n ≠ '\\' ∧ hexDigit n ≠ '\n' := by
  have hall : ∀ n : Fin 16, hexDigit n ≠ '"' ∧ hexDigit n ≠ '\\' ∧ hexDigit n ≠ '\n' := by decide
  exact hall ⟨n, h⟩

/-- How a character may stand between quotes: as it is, behind a backslash as the letter that
stands for it, or, if it is a control character, by its number. -/
inductive Escapes (c : Char) : List Char → Prop where
  | self : c ≠ '"' → c ≠ '\\' → 0x20 ≤ c.toNat → Escapes c [c]
  | letter {d : Char} : d ≠ 'u' → escaped? d = some c → Escapes c ['\\', d]
  | unit : c.toNat < 0x20 →
    Escapes c ['\\', 'u', '0', '0', hexDigit (c.toNat / 16), hexDigit (c.toNat % 16)]

lemma escapes_escapeChar (c : Char) : Escapes c (escapeChar c) := by
  rw [escapeChar]
  split_ifs with hquote hbackslash hb hf hn hr ht hcontrol
  · exact .letter (d := '"') (by decide) (by rw [hquote]; rfl)
  · exact .letter (d := '\\') (by decide) (by rw [hbackslash]; rfl)
  · exact .letter (d := 'b') (by decide) (hb ▸ rfl)
  · exact .letter (d := 'f') (by decide) (hf ▸ rfl)
  · exact .letter (d := 'n') (by decide) (hn ▸ rfl)
  · exact .letter (d := 'r') (by decide) (hr ▸ rfl)
  · exact .letter (d := 't') (by decide) (ht ▸ rfl)
  · exact .unit hcontrol
  · exact .self hquote hbackslash (Nat.le_of_not_lt hcontrol)

/-- A line break is never written between quotes. -/
lemma Escapes.newline_notMem {c : Char} {written : List Char} (h : Escapes c written) :
    '\n' ∉ written := by
  cases h with
  | self hquote hbackslash hprintable =>
    rw [List.mem_singleton]
    rintro rfl
    exact absurd hprintable (by decide)
  | @letter d hd hc =>
    have hline : d ≠ '\n' := by
      rintro rfl
      cases hc
    simp [hline.symm]
  | unit hcontrol =>
    have hhigh := (hexDigit_ne (n := c.toNat / 16) (by omega)).2.2
    have hlow := (hexDigit_ne (n := c.toNat % 16) (by omega)).2.2
    simp [hhigh.symm, hlow.symm]

/-! ### The closing quote -/

lemma stringBody?_cons {c : Char} (hquote : c ≠ '"') (hbackslash : c ≠ '\\') (cs : List Char) :
    stringBody? (c :: cs) = (stringBody? cs).map fun (body, after) => (c :: body, after) := by
  rw [stringBody?.eq_def]
  split <;> simp_all

lemma stringBody?_escape (c : Char) (cs : List Char) :
    stringBody? ('\\' :: c :: cs) =
      (stringBody? cs).map fun (body, after) => ('\\' :: c :: body, after) := by
  rw [stringBody?]

/-- What is written for a character does not hold the closing quote. -/
lemma Escapes.stringBody? {c : Char} {written : List Char} (h : Escapes c written)
    (cs : List Char) :
    Json.stringBody? (written ++ cs) =
      (Json.stringBody? cs).map fun (body, after) => (written ++ body, after) := by
  cases h with
  | self hquote hbackslash => exact stringBody?_cons hquote hbackslash cs
  | letter => exact stringBody?_escape _ cs
  | unit hcontrol =>
    obtain ⟨hquote, hbackslash, -⟩ := hexDigit_ne (n := c.toNat / 16) (by omega)
    obtain ⟨hquote', hbackslash', -⟩ := hexDigit_ne (n := c.toNat % 16) (by omega)
    simp only [List.cons_append, List.nil_append]
    rw [stringBody?_escape, stringBody?_cons (by decide) (by decide),
      stringBody?_cons (by decide) (by decide), stringBody?_cons hquote hbackslash,
      stringBody?_cons hquote' hbackslash']
    simp [Function.comp_def]

lemma stringBody?_flatMap_escapeChar (cs rest : List Char) :
    stringBody? (cs.flatMap escapeChar ++ '"' :: rest) =
      (lexemes? rest).map (cs.flatMap escapeChar, ·) := by
  induction cs with
  | nil => rw [List.flatMap_nil, List.nil_append, stringBody?]
  | cons c cs ih =>
    rw [List.flatMap_cons, List.append_assoc, (escapes_escapeChar c).stringBody?, ih,
      Option.map_map]
    rfl

/-! ### The characters -/

/-- The character that a part of a string means. -/
inductive StringPart.Means : StringPart → Char → Prop where
  | char (c : Char) : Means (.char c) c
  | unit {c : Char} : c.toNat < 0x20 → Means (.unit c.toNat) c

lemma stringParts?_cons {c : Char} (h : c ≠ '\\') (cs : List Char) :
    stringParts? (c :: cs) =
      if c.toNat < 0x20 then none else (stringParts? cs).map (.char c :: ·) := by
  rw [stringParts?.eq_def]
  split <;> simp_all

lemma stringParts?_letter {c : Char} (h : c ≠ 'u') (cs : List Char) :
    stringParts? ('\\' :: c :: cs) = (do
      let e ← escaped? c
      let parts ← stringParts? cs
      some (.char e :: parts)) := by
  rw [stringParts?.eq_def]
  split <;> grind

lemma Escapes.stringParts? {c : Char} {written : List Char} (h : Escapes c written) :
    ∃ part : StringPart, part.Means c ∧
      ∀ cs, Json.stringParts? (written ++ cs) = (Json.stringParts? cs).map (part :: ·) := by
  cases h with
  | self hquote hbackslash hprintable =>
    refine ⟨.char c, .char c, fun cs => ?_⟩
    rw [List.singleton_append, stringParts?_cons hbackslash, if_neg (Nat.not_lt.2 hprintable)]
  | letter hd hc =>
    refine ⟨.char c, .char c, fun cs => ?_⟩
    simp only [List.cons_append, List.nil_append, stringParts?_letter hd, hc]
    cases Json.stringParts? cs <;> rfl
  | unit hcontrol =>
    refine ⟨.unit c.toNat, .unit hcontrol, fun cs => ?_⟩
    have hvalue : hex4? '0' '0' (hexDigit (c.toNat / 16)) (hexDigit (c.toNat % 16)) =
        some c.toNat := by
      have hzero : hexValue? '0' = some 0 := by decide
      simp only [hex4?, hzero, hexValue?_hexDigit (show c.toNat / 16 < 16 by omega),
        hexValue?_hexDigit (show c.toNat % 16 < 16 by omega), Option.bind_eq_bind, Option.bind_some,
        Option.some.injEq]
      omega
    simp only [List.cons_append, List.nil_append, Json.stringParts?, hvalue]
    cases Json.stringParts? cs <;> rfl

lemma exists_stringParts?_flatMap_escapeChar (cs : List Char) :
    ∃ parts, stringParts? (cs.flatMap escapeChar) = some parts ∧
      List.Forall₂ StringPart.Means parts cs := by
  induction cs with
  | nil => exact ⟨[], rfl, .nil⟩
  | cons c cs ih =>
    obtain ⟨parts, hparts, hmeans⟩ := ih
    obtain ⟨part, hpart, hread⟩ := (escapes_escapeChar c).stringParts?
    exact ⟨part :: parts, by rw [List.flatMap_cons, hread, hparts]; rfl, .cons hpart hmeans⟩

/-- A small number is not that of half of a character. -/
lemma joinUnits?_unit {n : Nat} (h : n < 0xD800) (parts : List StringPart) :
    joinUnits? (.unit n :: parts) = (joinUnits? parts).map (Char.ofNat n :: ·) := by
  have hhigh : ¬ (0xD800 ≤ n ∧ n < 0xDC00) := by omega
  have hlow : ¬ (0xDC00 ≤ n ∧ n < 0xE000) := by omega
  have hhalf : ¬ (0xD800 ≤ n ∧ n < 0xE000) := by omega
  cases parts with
  | nil => simp only [joinUnits?, if_neg hhalf]
  | cons part parts =>
    cases part with
    | char c => simp only [joinUnits?, if_neg hhalf]
    | unit low => rw [joinUnits?, if_neg hhigh, if_neg hlow]

lemma joinUnits?_of_means {parts : List StringPart} {cs : List Char}
    (h : List.Forall₂ StringPart.Means parts cs) : joinUnits? parts = some cs := by
  induction h with
  | nil => rfl
  | @cons part c parts cs hpart hrest ih =>
    cases hpart with
    | char => rw [joinUnits?, ih, Option.map_some]
    | unit hcontrol =>
      rw [joinUnits?_unit (by omega), ih, Option.map_some, Char.ofNat_toNat]

/-! ### Strings -/

lemma newline_notMem_quoted (s : String) : '\n' ∉ quoted s := by
  have hbody : '\n' ∉ s.toList.flatMap escapeChar := by
    rw [List.mem_flatMap]
    rintro ⟨c, -, hc⟩
    exact (escapes_escapeChar c).newline_notMem hc
  simp [quoted, hbody]

lemma lexemes?_quote (rest : List Char) :
    lexemes? ('"' :: rest) = (do
      let (body, after) ← stringBody? rest
      let parts ← stringParts? body
      some (.string parts :: after)) := by
  rw [lexemes?.eq_def]
  rfl

/-- A string between quotes is one lexeme, whose text is the string. -/
lemma exists_lexemes?_quoted (s : String) :
    ∃ parts, stringText? parts = some s ∧
      ∀ rest, lexemes? (quoted s ++ rest) = (lexemes? rest).map (.string parts :: ·) := by
  obtain ⟨parts, hparts, hmeans⟩ := exists_stringParts?_flatMap_escapeChar s.toList
  refine ⟨parts, by rw [stringText?, joinUnits?_of_means hmeans, Option.map_some,
    String.ofList_toList], fun rest => ?_⟩
  have hquoted : quoted s ++ rest = '"' :: (s.toList.flatMap escapeChar ++ '"' :: rest) := by
    simp [quoted]
  rw [hquoted, lexemes?_quote, stringBody?_flatMap_escapeChar]
  cases lexemes? rest <;> simp [hparts]

end Retrieval.Json
