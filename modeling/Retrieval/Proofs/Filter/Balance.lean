/-
# Balanced brackets

The check that runs before a filter is read counts the open brackets from left to right.  It passes
exactly the texts whose brackets are balanced: no prefix closes more brackets than it opens, and the
whole text closes as many as it opens.
-/
import Mathlib.Data.List.Basic
import Retrieval.Filter.Reader

namespace Retrieval

/-- With `depth` brackets open before a text, no prefix of it closes more than are open. -/
def ClosesOpen (depth : Nat) (cs : List Char) : Prop :=
  ∀ read, read <+: cs → read.count ')' ≤ depth + read.count '('

/-- Brackets that match.  Along the way none is closed that is not open, and at the end none is
open. -/
structure Balanced (cs : List Char) : Prop where
  closed_le : ∀ read, read <+: cs → read.count ')' ≤ read.count '('
  settled : cs.count ')' = cs.count '('

lemma balanced_iff {cs : List Char} :
    Balanced cs ↔ ClosesOpen 0 cs ∧ cs.count ')' = cs.count '(' := by
  simp only [ClosesOpen, Nat.zero_add]
  exact ⟨fun h => ⟨h.closed_le, h.settled⟩, fun h => ⟨h.1, h.2⟩⟩

@[simp] lemma closesOpen_nil (depth : Nat) : ClosesOpen depth [] := by
  intro read hr
  simp [List.prefix_nil.1 hr]

lemma closesOpen_cons {depth : Nat} {c : Char} {cs : List Char} :
    ClosesOpen depth (c :: cs) ↔
      ∀ read, read <+: cs → (c :: read).count ')' ≤ depth + (c :: read).count '(' := by
  constructor
  · intro h read hr
    exact h _ (List.cons_prefix_cons.2 ⟨rfl, hr⟩)
  · intro h read hr
    rcases List.prefix_cons_iff.1 hr with rfl | ⟨behind, rfl, hbehind⟩
    · simp
    · exact h behind hbehind

lemma closesOpen_opening {depth : Nat} {cs : List Char} :
    ClosesOpen depth ('(' :: cs) ↔ ClosesOpen (depth + 1) cs := by
  rw [closesOpen_cons]
  simp [ClosesOpen, Nat.add_assoc, Nat.add_comm 1]

lemma closesOpen_closing {depth : Nat} {cs : List Char} :
    ClosesOpen depth (')' :: cs) ↔ 0 < depth ∧ ClosesOpen (depth - 1) cs := by
  rw [closesOpen_cons]
  simp only [ClosesOpen, List.count_cons_self,
    List.count_cons_of_ne (a := '(') (b := ')') (by decide)]
  constructor
  · intro h
    have hpos := h [] List.nil_prefix
    simp only [List.count_nil] at hpos
    exact ⟨by omega, fun read hr => by have := h read hr; omega⟩
  · rintro ⟨hpos, h⟩ read hr
    have := h read hr
    omega

lemma closesOpen_text {depth : Nat} {c : Char} {cs : List Char} (hopen : c ≠ '(')
    (hclose : c ≠ ')') : ClosesOpen depth (c :: cs) ↔ ClosesOpen depth cs := by
  rw [closesOpen_cons]
  simp [ClosesOpen, List.count_cons_of_ne hopen, List.count_cons_of_ne hclose]

/-! ### The check -/

/-- The check of the brackets of a text, with `depth` of them open before it, passes if at no point
more are closed than are open and in the end none is open. -/
lemma bracketsMatch_iff (depth : Nat) (cs : List Char) :
    bracketsMatch depth cs = true ↔
      ClosesOpen depth cs ∧ cs.count ')' = depth + cs.count '(' := by
  induction cs generalizing depth with
  | nil => simp [bracketsMatch, eq_comm]
  | cons c cs ih =>
    rw [bracketsMatch]
    by_cases hopen : c = '('
    · subst hopen
      rw [if_pos rfl, ih, closesOpen_opening]
      simp [Nat.add_assoc, Nat.add_comm 1]
    · by_cases hclose : c = ')'
      · -- a closing bracket takes one of the open ones, of which there has to be one
        subst hclose
        rw [if_neg hopen, if_pos rfl, Bool.and_eq_true, decide_eq_true_iff, ih,
          closesOpen_closing, List.count_cons_self, List.count_cons_of_ne hopen]
        constructor
        · rintro ⟨hpos, hle, heq⟩
          exact ⟨⟨hpos, hle⟩, by omega⟩
        · rintro ⟨⟨hpos, hle⟩, heq⟩
          exact ⟨hpos, hle, by omega⟩
      · rw [if_neg hopen, if_neg hclose, ih, closesOpen_text hopen hclose,
          List.count_cons_of_ne hopen, List.count_cons_of_ne hclose]

lemma bracketsMatch_zero_iff (cs : List Char) : bracketsMatch 0 cs = true ↔ Balanced cs := by
  rw [bracketsMatch_iff, balanced_iff, Nat.zero_add]

/-- What passes the check is the whole text, which is not blank and has matching brackets. -/
lemma readBrackets_eq_ok_iff {input : String} {cs : List Char} :
    readBrackets input = .ok cs ↔
      cs = input.toList ∧ Text.isBlankText input = false ∧ Balanced input.toList := by
  rw [← bracketsMatch_zero_iff, readBrackets]
  cases Text.isBlankText input <;> cases bracketsMatch 0 input.toList <;> simp [eq_comm]

/-- A text is refused if it is blank or its brackets do not match. -/
lemma readBrackets_eq_error_iff {input : String} {e : QueryError} :
    readBrackets input = .error e ↔
      e = .bracketImbalance input ∧
        (Text.isBlankText input = true ∨ ¬ Balanced input.toList) := by
  rw [← bracketsMatch_zero_iff, readBrackets]
  cases Text.isBlankText input <;> cases bracketsMatch 0 input.toList <;> simp [eq_comm]

/-! ### Nesting -/

/-- A text without brackets. -/
def BracketFree (cs : List Char) : Prop := ∀ c ∈ cs, c ≠ '(' ∧ c ≠ ')'

instance : DecidablePred BracketFree := fun cs =>
  decidable_of_iff (cs.all fun c => c != '(' && c != ')') (by simp [BracketFree])

@[simp] lemma bracketFree_nil : BracketFree [] := by simp [BracketFree]

/-- Texts with matching brackets by their structure: a run of text without brackets, perhaps with a
bracketed text and another text behind it. -/
inductive Nested : List Char → Prop where
  | text {run : List Char} : BracketFree run → Nested run
  | group {run inner rest : List Char} :
    BracketFree run → Nested inner → Nested rest → Nested (run ++ '(' :: inner ++ ')' :: rest)

lemma bracketsMatch_bracketFree {run : List Char} (h : BracketFree run) (depth : Nat)
    (rest : List Char) : bracketsMatch depth (run ++ rest) = bracketsMatch depth rest := by
  induction run with
  | nil => rfl
  | cons c run ih =>
    obtain ⟨hopen, hclose⟩ := h c (by simp)
    rw [List.cons_append, bracketsMatch, if_neg hopen, if_neg hclose]
    exact ih fun d hd => h d (by simp [hd])

/-- Nested text leaves the number of open brackets as it is. -/
lemma Nested.bracketsMatch_append {cs : List Char} (h : Nested cs) (depth : Nat)
    (rest : List Char) : bracketsMatch depth (cs ++ rest) = bracketsMatch depth rest := by
  induction h generalizing depth rest with
  | text hrun => exact bracketsMatch_bracketFree hrun depth rest
  | group hrun _ _ ihinner ihrest =>
    simp only [List.append_assoc, List.cons_append]
    rw [bracketsMatch_bracketFree hrun, bracketsMatch, if_pos rfl, ihinner, bracketsMatch,
      if_neg (by decide), if_pos rfl, Nat.add_sub_cancel, ihrest]
    simp

lemma Nested.balanced {cs : List Char} (h : Nested cs) : Balanced cs := by
  rw [← bracketsMatch_zero_iff, ← List.append_nil cs, h.bracketsMatch_append]
  rfl

lemma Nested.cons {cs : List Char} (h : Nested cs) {c : Char} (hopen : c ≠ '(')
    (hclose : c ≠ ')') : Nested (c :: cs) := by
  have hfree : ∀ {run}, BracketFree run → BracketFree (c :: run) := fun hrun d hd => by
    rcases List.mem_cons.1 hd with rfl | hd
    · exact ⟨hopen, hclose⟩
    · exact hrun d hd
  cases h with
  | text hrun => exact .text (hfree hrun)
  | group hrun hinner hrest => exact .group (hfree hrun) hinner hrest

/-- A text that closes `depth` open brackets and all of its own is nested text with `depth` closing
brackets in it, each with nested text behind it. -/
lemma exists_nested_of_bracketsMatch {depth : Nat} {cs : List Char}
    (h : bracketsMatch depth cs = true) :
    ∃ (first : List Char) (others : List (List Char)),
      cs = first ++ others.flatMap (')' :: ·) ∧ others.length = depth ∧
        Nested first ∧ ∀ other ∈ others, Nested other := by
  induction cs generalizing depth with
  | nil =>
    have hdepth : depth = 0 := by simpa [bracketsMatch] using h
    exact ⟨[], [], rfl, hdepth.symm, .text bracketFree_nil, by simp⟩
  | cons c cs ih =>
    rw [bracketsMatch] at h
    by_cases hopen : c = '('
    · -- the first of the texts behind closing brackets follows the bracket that is opened here
      subst hopen
      obtain ⟨first, others, rfl, hlen, hfirst, hothers⟩ := ih (by simpa using h)
      obtain ⟨other, others, rfl⟩ := List.exists_cons_of_length_eq_add_one hlen
      refine ⟨'(' :: first ++ ')' :: other, others, by simp, by simpa using hlen, ?_,
        fun o ho => hothers o (by simp [ho])⟩
      simpa using Nested.group bracketFree_nil hfirst (hothers other (by simp))
    · by_cases hclose : c = ')'
      · -- nothing stands in front of the first closing bracket
        subst hclose
        rw [if_neg hopen, if_pos rfl, Bool.and_eq_true, decide_eq_true_iff] at h
        obtain ⟨first, others, rfl, hlen, hfirst, hothers⟩ := ih h.2
        refine ⟨[], first :: others, by simp, by simp only [List.length_cons]; omega,
          .text bracketFree_nil, ?_⟩
        simpa using ⟨hfirst, hothers⟩
      · rw [if_neg hopen, if_neg hclose] at h
        obtain ⟨first, others, rfl, hlen, hfirst, hothers⟩ := ih h
        exact ⟨c :: first, others, rfl, hlen, hfirst.cons hopen hclose, hothers⟩

/-- Brackets are balanced exactly in nested text. -/
lemma balanced_iff_nested {cs : List Char} : Balanced cs ↔ Nested cs := by
  refine ⟨fun h => ?_, Nested.balanced⟩
  obtain ⟨first, others, rfl, hlen, hfirst, -⟩ :=
    exists_nested_of_bracketsMatch ((bracketsMatch_zero_iff cs).2 h)
  rw [List.length_eq_zero_iff.1 hlen]
  simpa using hfirst

end Retrieval
