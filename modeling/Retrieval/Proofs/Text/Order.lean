/-
# Texts in byte order

Texts are compared character by character.  In UTF-8 a greater character begins with greater bytes,
so that this is also the order of the texts as sequences of bytes.  What has distinct names can be put
into byte order of the names in one way only.
-/
import Mathlib.Data.Char
import Mathlib.Data.List.Basic
import Mathlib.Data.String.Basic
import Mathlib.Tactic.Lemma
import Retrieval.Text

namespace Retrieval.Text

/-- The bytes of a text in UTF-8. -/
def bytes (s : String) : List UInt8 := s.toUTF8.data.toList

lemma bytes_eq (s : String) : bytes s = s.toList.flatMap String.utf8EncodeChar := by
  obtain ⟨cs, rfl⟩ : ∃ cs, s = String.ofList cs := ⟨s.toList, String.ofList_toList.symm⟩
  simp [bytes, String.toUTF8, String.toByteArray_ofList, List.utf8Encode]

/-! ### One character -/

/-- The bytes of a character as numbers. -/
lemma map_toNat_utf8EncodeChar (c : Char) :
    (String.utf8EncodeChar c).map UInt8.toNat =
      if c.toNat ≤ 0x7f then [c.toNat]
      else if c.toNat ≤ 0x7ff then [c.toNat / 64 + 192, c.toNat % 64 + 128]
      else if c.toNat ≤ 0xffff then
        [c.toNat / 4096 + 224, c.toNat / 64 % 64 + 128, c.toNat % 64 + 128]
      else [c.toNat / 262144 + 240, c.toNat / 4096 % 64 + 128, c.toNat / 64 % 64 + 128,
        c.toNat % 64 + 128] := by
  have hbound : c.toNat < 0x110000 := by
    rcases c.valid with h | h
    · exact Nat.lt_trans h (by decide)
    · exact h.2
  have hval : c.val.toNat = c.toNat := rfl
  rw [String.utf8EncodeChar]
  simp only [hval]
  split_ifs <;> simp <;> omega

lemma map_toNat_lt_iff {as bs : List UInt8} :
    as.map UInt8.toNat < bs.map UInt8.toNat ↔ as < bs := by
  induction as generalizing bs with
  | nil => cases bs <;> simp
  | cons a as ih =>
    cases bs with
    | nil => simp
    | cons b bs =>
      rw [List.map_cons, List.map_cons, List.cons_lt_cons_iff, List.cons_lt_cons_iff, ih,
        UInt8.lt_iff_toNat_lt, UInt8.toNat_inj]

/-- A greater character has greater bytes, whatever comes behind. -/
lemma utf8EncodeChar_append_lt {c d : Char} (h : c < d) (as bs : List UInt8) :
    String.utf8EncodeChar c ++ as < String.utf8EncodeChar d ++ bs := by
  have hlt : c.toNat < d.toNat := by
    simpa [Char.lt_def, UInt32.lt_iff_toNat_lt] using h
  rw [← map_toNat_lt_iff, List.map_append, List.map_append, map_toNat_utf8EncodeChar,
    map_toNat_utf8EncodeChar]
  split_ifs <;>
    simp only [List.cons_append, List.nil_append, List.cons_lt_cons_iff] <;> omega

/-! ### Texts -/

lemma flatMap_utf8EncodeChar_lt {as bs : List Char} (h : as < bs) :
    as.flatMap String.utf8EncodeChar < bs.flatMap String.utf8EncodeChar := by
  induction as generalizing bs with
  | nil =>
    cases bs with
    | nil => simp at h
    | cons b bs =>
      obtain ⟨first, rest, hb⟩ :=
        List.exists_cons_of_length_pos (String.length_utf8EncodeChar b ▸ b.utf8Size_pos)
      rw [List.flatMap_cons, hb]
      exact List.nil_lt_cons _ _
  | cons a as ih =>
    cases bs with
    | nil => simp at h
    | cons b bs =>
      rw [List.flatMap_cons, List.flatMap_cons]
      rcases List.cons_lt_cons_iff.1 h with hlt | ⟨rfl, hlt⟩
      · exact utf8EncodeChar_append_lt hlt _ _
      · exact List.append_left_lt (ih hlt)

lemma bytes_lt_of_lt {a b : String} (h : a < b) : bytes a < bytes b := by
  rw [bytes_eq, bytes_eq]
  exact flatMap_utf8EncodeChar_lt (String.lt_iff_toList_lt.1 h)

/-- The order of texts is that of their bytes. -/
theorem bytes_lt_iff {a b : String} : bytes a < bytes b ↔ a < b := by
  refine ⟨fun h => ?_, bytes_lt_of_lt⟩
  rcases lt_trichotomy a b with hlt | rfl | hgt
  · exact hlt
  · exact absurd h (List.lt_irrefl _)
  · exact absurd (List.lt_trans h (bytes_lt_of_lt hgt)) (List.lt_irrefl _)

/-! ### Sorting by names -/

section

variable {α : Type} {name : α → String} {as bs : List α}

/-- Sorting what has distinct names puts the names in byte order. -/
lemma pairwise_bytes_mergeSort (h : (as.map name).Nodup) :
    (as.mergeSort fun a b => decide (name a ≤ name b)).Pairwise
      fun a b => bytes (name a) < bytes (name b) := by
  have hsorted : (as.mergeSort fun a b => decide (name a ≤ name b)).Pairwise
      fun a b => decide (name a ≤ name b) = true :=
    List.pairwise_mergeSort (by simpa using fun a b c => le_trans)
      (by simpa using fun a b => le_total (name a) (name b)) as
  have hdistinct : (as.mergeSort fun a b => decide (name a ≤ name b)).Pairwise
      fun a b => name a ≠ name b :=
    List.pairwise_map.1 (((List.mergeSort_perm as _).map name).nodup_iff.2 h)
  refine (hsorted.and hdistinct).imp fun {a b} hab => bytes_lt_iff.2 ?_
  exact lt_of_le_of_ne (of_decide_eq_true hab.1) hab.2

/-- What is sorted already is what sorting it from any other order comes to. -/
lemma mergeSort_eq_of_perm (hperm : as.Perm bs)
    (hsorted : bs.Pairwise fun a b => bytes (name a) < bytes (name b)) :
    as.mergeSort (fun a b => decide (name a ≤ name b)) = bs := by
  have hdistinct : (as.map name).Nodup := by
    refine (hperm.map name).nodup_iff.2 (List.pairwise_map.2 (hsorted.imp ?_))
    exact fun h => (bytes_lt_iff.1 h).ne
  refine List.Perm.eq_of_pairwise (fun a b _ _ hab hba => ?_) (pairwise_bytes_mergeSort hdistinct)
    hsorted ((List.mergeSort_perm as _).trans hperm)
  exact absurd (bytes_lt_iff.1 hba) (bytes_lt_iff.1 hab).asymm

end

end Retrieval.Text
