/-
# Trimmed and cut text

Trimming a text takes blank characters off its ends until none is there, and a text that has none
there stays as it is.  The pieces between separators hold the characters of the text other than the
separator.
-/
import Mathlib.Data.List.DropRight
import Retrieval.Text

namespace Retrieval.Text

lemma ne_of_isBlank {c d : Char} (hc : isBlank c = true) (hd : isBlank d = false) : c ≠ d := by
  rintro rfl
  rw [hc] at hd
  cases hd

/-- A text with no blank character at either end. -/
structure Trimmed (cs : List Char) : Prop where
  head : ∀ c, cs.head? = some c → isBlank c = false
  last : ∀ c, cs.getLast? = some c → isBlank c = false

lemma trim_eq_rdropWhile (cs : List Char) :
    trim cs = (cs.dropWhile isBlank).rdropWhile isBlank := rfl

lemma mem_of_mem_trim {c : Char} {cs : List Char} (h : c ∈ trim cs) : c ∈ cs := by
  rw [trim_eq_rdropWhile] at h
  exact List.dropWhile_subset _ ((List.rdropWhile_prefix _ _).subset h)

lemma trimmed_trim (cs : List Char) : Trimmed (trim cs) := by
  rw [trim_eq_rdropWhile]
  constructor
  · -- what is left after the end is cut begins as it did before
    intro c hc
    obtain ⟨rest, hrest⟩ := List.rdropWhile_prefix isBlank (cs.dropWhile isBlank)
    have hhead : (cs.dropWhile isBlank).head? = some c := by
      rw [← hrest, List.head?_append, hc, Option.some_or]
    have hnot := List.head?_dropWhile_not isBlank cs
    rwa [hhead] at hnot
  · intro c hc
    have hne : (cs.dropWhile isBlank).rdropWhile isBlank ≠ [] := by
      rintro hnil
      simp [hnil] at hc
    rw [List.getLast?_eq_some_getLast hne, Option.some.injEq] at hc
    simpa [hc] using List.rdropWhile_last_not isBlank (cs.dropWhile isBlank) hne

lemma Trimmed.trim_eq {cs : List Char} (h : Trimmed cs) : trim cs = cs := by
  have hhead : cs.dropWhile isBlank = cs := by
    cases cs with
    | nil => rfl
    | cons c cs => simp [h.head c rfl]
  rw [trim_eq_rdropWhile, hhead, List.rdropWhile_eq_self_iff]
  intro hne
  simp [h.last _ (List.getLast?_eq_some_getLast hne)]

/-- The trimmed texts are those with nothing to trim. -/
lemma trimmed_iff {cs : List Char} : Trimmed cs ↔ trim cs = cs :=
  ⟨Trimmed.trim_eq, fun h => h ▸ trimmed_trim cs⟩

instance (cs : List Char) : Decidable (Trimmed cs) := decidable_of_iff _ trimmed_iff.symm

/-! ### Trimming at the end -/

lemma trimEnd_eq_rdropWhile (cs : List Char) : trimEnd cs = cs.rdropWhile isBlank := rfl

lemma trimEnd_eq_self_iff {cs : List Char} :
    trimEnd cs = cs ↔ ∀ c ∈ cs.getLast?, isBlank c = false := by
  rw [trimEnd_eq_rdropWhile, List.rdropWhile_eq_self_iff]
  constructor
  · intro h c hc
    have hne : cs ≠ [] := by
      rintro rfl
      cases hc
    rw [List.getLast?_eq_some_getLast hne, Option.mem_some_iff] at hc
    simpa [hc] using h hne
  · intro h hne
    simp [h _ (List.getLast?_eq_some_getLast hne)]

/-- Trimming the end of a text stops at a front that ends in a character that is not blank. -/
lemma trimEnd_append {front : List Char} (h : trimEnd front = front) (back : List Char) :
    trimEnd (front ++ back) = front ++ trimEnd back := by
  simp only [trimEnd_eq_rdropWhile] at h ⊢
  induction back using List.reverseRecOn with
  | nil => simpa using h
  | append_singleton back c ih =>
    rw [← List.append_assoc, List.rdropWhile_concat, List.rdropWhile_concat, ih]
    split <;> simp

/-- Behind a trimmed text only the end is left to trim. -/
lemma Trimmed.trim_append {front : List Char} (h : Trimmed front) (hne : front ≠ [])
    (back : List Char) : trim (front ++ back) = front ++ trimEnd back := by
  have hstart : trimStart (front ++ back) = front ++ back := by
    obtain ⟨c, cs, rfl⟩ := List.exists_cons_of_ne_nil hne
    simp [trimStart, h.head c rfl]
  rw [trim, hstart, trimEnd_append (trimEnd_eq_self_iff.2 fun c hc => h.last c hc)]

/-! ### Cutting -/

variable {sep : Char}

/-- The pieces of a text hold no separator, and nothing that is not in the text. -/
lemma of_mem_splitOn {cs piece : List Char} (h : piece ∈ cs.splitOn sep) :
    ∀ c ∈ piece, c ≠ sep ∧ c ∈ cs := by
  induction cs generalizing piece with
  | nil =>
    rw [List.splitOn_nil, List.mem_singleton] at h
    simp [h]
  | cons d cs ih =>
    rw [List.splitOn_cons_eq_if_modifyHead] at h
    by_cases hd : d = sep
    · rw [if_pos (by simpa using hd), List.mem_cons] at h
      rcases h with rfl | h
      · simp
      · intro c hc
        exact ⟨(ih h c hc).1, List.mem_cons_of_mem _ (ih h c hc).2⟩
    · rw [if_neg (by simpa using hd)] at h
      obtain ⟨first, pieces, hcs⟩ := List.exists_cons_of_ne_nil (List.splitOn_ne_nil sep cs)
      rw [hcs] at h
      simp only [List.modifyHead_cons, List.mem_cons] at h
      rcases h with rfl | h
      · intro c hc
        rcases List.mem_cons.1 hc with rfl | hc
        · exact ⟨hd, by simp⟩
        · have := ih (show first ∈ cs.splitOn sep by simp [hcs]) c hc
          exact ⟨this.1, List.mem_cons_of_mem _ this.2⟩
      · intro c hc
        have := ih (show piece ∈ cs.splitOn sep by simp [hcs, h]) c hc
        exact ⟨this.1, List.mem_cons_of_mem _ this.2⟩

/-- The last text may be cut itself when texts are put together. -/
lemma intercalate_append_intercalate {pieces : List (List Char)} (h : pieces ≠ [])
    (texts : List (List Char)) :
    [sep].intercalate (texts ++ [[sep].intercalate pieces]) =
      [sep].intercalate (texts ++ pieces) := by
  induction texts with
  | nil => exact List.intercalate_singleton
  | cons text texts ih =>
    rw [List.cons_append, List.cons_append, List.intercalate_cons_of_ne_nil (by simp),
      List.intercalate_cons_of_ne_nil (by simp [h]), ih]

/-- Texts without the separator are the pieces of what they are put together to, and only the last
one may be cut further. -/
lemma splitOn_intercalate_append {texts : List (List Char)} (h : ∀ text ∈ texts, sep ∉ text)
    (last : List Char) :
    ([sep].intercalate (texts ++ [last])).splitOn sep = texts ++ last.splitOn sep := by
  have hne := List.splitOn_ne_nil sep last
  have hlast : [sep].intercalate (last.splitOn sep) = last := List.intercalate_splitOn sep
  rw [← hlast, intercalate_append_intercalate hne, hlast]
  refine List.splitOn_intercalate sep (fun piece hpiece => ?_) (by simp [hne])
  rcases List.mem_append.1 hpiece with hpiece | hpiece
  · exact h piece hpiece
  · exact fun hsep => (of_mem_splitOn hpiece sep hsep).1 rfl

lemma mem_intercalate_iff {c : Char} {texts : List (List Char)} :
    c ∈ [sep].intercalate texts ↔
      (c = sep ∧ 2 ≤ texts.length) ∨ ∃ text ∈ texts, c ∈ text := by
  induction texts with
  | nil => simp
  | cons text texts ih =>
    cases texts with
    | nil => simp
    | cons next texts =>
      rw [List.intercalate_cons_cons, List.mem_append, List.mem_append, ih]
      simp only [List.mem_singleton, List.length_cons, List.exists_mem_cons_iff]
      constructor
      · rintro ((h | h) | ⟨h, -⟩ | h)
        · exact .inr (.inl h)
        · exact .inl ⟨h, by omega⟩
        · exact .inl ⟨h, by omega⟩
        · exact .inr (.inr h)
      · rintro (⟨h, -⟩ | h | h)
        · exact .inl (.inr h)
        · exact .inl (.inl h)
        · exact .inr (.inr h)

/-! ### Putting texts together -/

lemma toList_joined (sep : String) (texts : List String) :
    (joined sep texts).toList = sep.toList.intercalate (texts.map String.toList) :=
  String.toList_intercalate

/-- A text more is put behind a separator. -/
lemma joined_concat (sep : String) {texts : List String} (h : texts ≠ []) (text : String) :
    joined sep (texts ++ [text]) = joined sep texts ++ sep ++ text := by
  induction texts with
  | nil => exact absurd rfl h
  | cons first texts ih =>
    cases texts with
    | nil => simp [joined]
    | cons next texts =>
      have hrest := ih (by simp)
      simp only [joined, List.cons_append, String.intercalate_cons_cons] at hrest ⊢
      rw [hrest]
      simp only [String.append_assoc]

lemma joined_cons_ne_empty (sep : String) {text : String} (h : text ≠ "") (texts : List String) :
    joined sep (text :: texts) ≠ "" := by
  intro hempty
  have hchars := congrArg String.toList hempty
  rw [toList_joined] at hchars
  cases texts with
  | nil => simp [h] at hchars
  | cons next texts => simp [List.intercalate_cons_cons, h] at hchars

/-- Texts without the separator can be told from what they are put together to. -/
lemma eq_of_joined_eq {sep : String} {c : Char} (hsep : sep.toList = [c])
    {texts texts' : List String} (hne : texts ≠ []) (hne' : texts' ≠ [])
    (h : ∀ text ∈ texts, c ∉ text.toList) (h' : ∀ text ∈ texts', c ∉ text.toList)
    (heq : joined sep texts = joined sep texts') : texts = texts' := by
  have hchars : [c].intercalate (texts.map String.toList) =
      [c].intercalate (texts'.map String.toList) := by
    rw [← hsep, ← toList_joined, ← toList_joined, heq]
  have hpieces := congrArg (List.splitOn c) hchars
  rw [List.splitOn_intercalate c (by simpa using h) (by simpa using hne),
    List.splitOn_intercalate c (by simpa using h') (by simpa using hne')] at hpieces
  exact List.map_injective_iff.2 (fun _ _ => String.toList_inj.1) hpieces

end Retrieval.Text
