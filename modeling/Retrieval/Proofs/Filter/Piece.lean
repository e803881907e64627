/-
# Leaves as pieces of text

A piece of text is read as a leaf exactly if, trimmed, it is the path, the operator and the value of
that leaf with dots between them, and the operator is where the reader looks for it
(`Piece.ofChars?_eq_leaf_iff`).
-/
import Retrieval.Filter.Writer
import Retrieval.Proofs.Text

namespace Retrieval

/-! ### Texts with dots between them -/

lemma mem_joinTexts_iff {sep c : Char} {texts : List String} :
    c ∈ Text.joinTexts sep texts ↔
      (c = sep ∧ 2 ≤ texts.length) ∨ ∃ text ∈ texts, c ∈ text.toList := by
  simp [Text.joinTexts, Text.mem_intercalate_iff]

lemma mem_joinTexts_of_mem {sep c : Char} {texts : List String} {text : String}
    (h : text ∈ texts) (hc : c ∈ text.toList) : c ∈ Text.joinTexts sep texts :=
  mem_joinTexts_iff.2 (.inr ⟨text, h, hc⟩)

/-- A text joined to others begins as it does alone. -/
lemma head?_joinTexts {sep : Char} {text : String} (h : text ≠ "") (texts : List String) :
    (Text.joinTexts sep (text :: texts)).head? = text.toList.head? := by
  obtain ⟨c, cs, htext⟩ := List.exists_cons_of_ne_nil (show text.toList ≠ [] by simpa using h)
  cases texts with
  | nil => simp [Text.joinTexts]
  | cons next texts =>
    rw [Text.joinTexts, List.map_cons, List.map_cons, List.intercalate_cons_cons, htext]
    rfl

/-- What stands behind the last separator may be split off. -/
lemma joinTexts_append_text (sep : Char) (texts : List String) (last : String) :
    Text.joinTexts sep (texts ++ [last]) = Text.joinTexts sep (texts ++ [""]) ++ last.toList := by
  simp only [Text.joinTexts, List.map_append, List.map_cons, List.map_nil]
  induction texts with
  | nil => simp
  | cons text texts ih =>
    rw [List.map_cons, List.cons_append, List.intercalate_cons_of_ne_nil (by simp), ih,
      List.cons_append, List.intercalate_cons_of_ne_nil (by simp), List.append_assoc,
      List.append_assoc, List.append_assoc]

/-- An empty text behind others brings a separator. -/
lemma joinTexts_append_empty {sep : Char} {texts : List String} (h : texts ≠ []) :
    Text.joinTexts sep (texts ++ [""]) = Text.joinTexts sep texts ++ [sep] := by
  simp only [Text.joinTexts, List.map_append, List.map_cons, List.map_nil]
  induction texts with
  | nil => exact absurd rfl h
  | cons text texts ih =>
    cases texts with
    | nil => simp [List.intercalate_cons_cons]
    | cons next texts =>
      have ih := ih (by simp)
      rw [List.map_cons, List.cons_append, List.intercalate_cons_of_ne_nil (by simp), ih,
        List.intercalate_cons_of_ne_nil (by simp), List.append_assoc, List.append_assoc,
        List.append_assoc]

/-- The pieces between the dots of a text that ends in a value. -/
lemma splitOn_joinTexts {sep : Char} {texts : List String}
    (h : ∀ text ∈ texts, sep ∉ text.toList) (last : String) :
    (Text.joinTexts sep (texts ++ [last])).splitOn sep =
      texts.map String.toList ++ last.toList.splitOn sep := by
  rw [Text.joinTexts, List.map_append]
  refine Text.splitOn_intercalate_append (fun piece hpiece => ?_) _
  obtain ⟨text, htext, rfl⟩ := List.mem_map.1 hpiece
  exact h text htext

/-- The texts between the dots, of which those behind the operator are the value. -/
lemma joinTexts_joined {value : List String} (h : value ≠ []) (texts : List String) :
    Text.joinTexts '.' (texts ++ [Text.joined "." value]) = Text.joinTexts '.' (texts ++ value) := by
  simp only [Text.joinTexts, List.map_append, List.map_cons, List.map_nil, Text.toList_joined]
  exact Text.intercalate_append_intercalate (by simpa using h) _

lemma joinTexts_map_ofList_splitOn (sep : Char) (cs : List Char) :
    Text.joinTexts sep ((cs.splitOn sep).map String.ofList) = cs := by
  have h : String.toList ∘ String.ofList = id := funext fun cs => String.toList_ofList
  rw [Text.joinTexts, List.map_map, h, List.map_id, List.intercalate_splitOn]

/-! ### Operators -/

lemma Operator.name_of_ofName? {word : String} {o : Operator} (h : ofName? word = some o) :
    o.name = word := by
  simpa using List.find?_some h

/-- The words for operators with lists of values. -/
lemma Operator.takesList_iff {word : String} :
    ((ofName? word).map takesList).getD false = true ↔ word ∈ ["in", "between", "ov"] := by
  constructor
  · intro h
    cases ho : ofName? word with
    | none => simp [ho] at h
    | some o =>
      rw [← name_of_ofName? ho]
      cases o <;> simp_all [takesList, name]
  · intro h
    simp only [List.mem_cons, List.not_mem_nil, or_false] at h
    rcases h with rfl | rfl | rfl <;> decide

/-! ### Pieces -/

namespace Piece

/-- The segments of a piece behind the first one, split at the operator: no segment in front of it is
an operator, and if it is none itself, it is the last segment but one. -/
structure Splits (words path : List String) (operator : String) (value : List String) : Prop where
  words_eq : words = path ++ operator :: value
  value_ne_nil : value ≠ []
  path_words : ∀ word ∈ path, Operator.ofName? word = none
  operator_word : (Operator.ofName? operator).isSome ∨ value.length = 1

lemma splits_of_splitSegments? {words path value : List String} {operator : String}
    (h : splitSegments? words = some (path, operator, value)) :
    Splits words path operator value := by
  induction words generalizing path with
  | nil => simp [splitSegments?] at h
  | cons word words ih =>
    cases words with
    | nil => simp [splitSegments?] at h
    | cons next rest =>
      rw [splitSegments?] at h
      split at h
      · next hword =>
        obtain ⟨rfl, rfl, rfl⟩ : [] = path ∧ word = operator ∧ next :: rest = value := by
          simpa using h
        refine ⟨rfl, by simp, by simp, ?_⟩
        simpa using hword
      · -- the segment is passed by, so it is no operator
        next hword =>
        simp only [Bool.or_eq_true, not_or, Bool.not_eq_true, Option.isSome_eq_false_iff,
          Option.isNone_iff_eq_none] at hword
        obtain ⟨⟨path', _, _⟩, hrest, h⟩ := Option.map_eq_some_iff.1 h
        cases h
        obtain ⟨hwords, hvalue, hpath, hoperator⟩ := ih hrest
        exact ⟨by rw [hwords, List.cons_append], hvalue,
          List.forall_mem_cons.2 ⟨hword.1, hpath⟩, hoperator⟩

lemma Splits.splitSegments? {words path value : List String} {operator : String}
    (h : Splits words path operator value) :
    splitSegments? words = some (path, operator, value) := by
  obtain ⟨rfl, hvalue, hpath, hoperator⟩ := h
  induction path with
  | nil =>
    obtain ⟨v, vs, rfl⟩ := List.exists_cons_of_ne_nil hvalue
    rw [List.nil_append, Piece.splitSegments?, if_pos (by simpa using hoperator)]
  | cons word path ih =>
    have ih := ih fun w hw => hpath w (by simp [hw])
    obtain ⟨next, rest, hrest⟩ :=
      List.exists_cons_of_ne_nil (show path ++ operator :: value ≠ [] by simp)
    -- a segment that is no operator is passed by, since one more than the next is there
    have hlong : rest.isEmpty = false := by
      have hlength := congrArg List.length hrest
      have := List.length_pos_iff.2 hvalue
      cases rest with
      | nil => simp at hlength; omega
      | cons _ _ => rfl
    rw [hrest] at ih
    rw [List.cons_append, hrest, Piece.splitSegments?, ih, hpath word (by simp), hlong]
    rfl

lemma splitSegments?_eq_some_iff {words path value : List String} {operator : String} :
    splitSegments? words = some (path, operator, value) ↔ Splits words path operator value :=
  ⟨splits_of_splitSegments?, Splits.splitSegments?⟩

/-- When a leaf is split again as it was written: its segments are not empty and hold no dot, no
segment of the path behind the first one is an operator, and only a known operator may have dots in
the value behind it. -/
structure Divides (path : List String) (operator value : String) : Prop where
  path_ne_nil : path ≠ []
  segment : ∀ s ∈ path, s ≠ "" ∧ '.' ∉ s.toList
  words : ∀ s ∈ path.tail, Operator.ofName? s = none
  operator_dot : '.' ∉ operator.toList
  value_dot : (Operator.ofName? operator).isSome ∨ '.' ∉ value.toList

/-- A text with a dot is no connective. -/
lemma connective_ofName?_eq_none {cs : List Char} (h : '.' ∈ cs) :
    Connective.ofName? (String.ofList cs) = none := by
  rw [Option.eq_none_iff_forall_ne_some]
  intro c hc
  have hname : c.name = String.ofList cs := by simpa using List.find?_some hc
  rw [← String.toList_ofList (l := cs), ← hname] at h
  cases c <;> exact absurd h (by decide)

lemma divides_of_ofChars? {cs : List Char} {path : List String} {operator value : String}
    (h : ofChars? cs = some (.leaf path operator value)) :
    Text.trim cs = Text.joinTexts '.' (path ++ [operator, value]) ∧
      Divides path operator value := by
  simp only [ofChars?] at h
  split at h
  · simp at h
  split at h
  · simp at h
  split at h
  · simp at h
  next first rest hwords =>
  obtain ⟨⟨path', operator', value'⟩, hsplit, h⟩ := Option.bind_eq_some_iff.1 h
  split at h
  · simp at h
  next hany =>
  obtain ⟨rfl, rfl, rfl⟩ :
      first :: path' = path ∧ operator' = operator ∧ Text.joined "." value' = value := by
    simpa using h
  obtain ⟨rfl, hvalue, hpath, hoperator⟩ := splitSegments?_eq_some_iff.1 hsplit
  -- the segments are what stands between the dots
  have hdots : ∀ word ∈ first :: (path' ++ operator' :: value'), '.' ∉ word.toList := by
    rw [← hwords]
    intro word hword hdot
    obtain ⟨piece, hpiece, rfl⟩ := List.mem_map.1 hword
    exact (Text.of_mem_splitOn hpiece '.' (by simpa using hdot)).1 rfl
  refine ⟨?_, by simp, fun s hs => ⟨?_, ?_⟩, hpath, hdots _ (by simp), ?_⟩
  · have hjoin := joinTexts_joined hvalue (first :: path' ++ [operator'])
    rw [List.append_assoc, List.append_assoc] at hjoin
    refine Eq.trans ?_ hjoin.symm
    rw [List.singleton_append, List.cons_append, ← hwords, joinTexts_map_ofList_splitOn]
  · rintro rfl
    exact hany (List.any_eq_true.2 ⟨"", hs, rfl⟩)
  · refine hdots s ?_
    rcases List.mem_cons.1 hs with rfl | hs <;> simp [*]
  · refine hoperator.imp_right fun hlength => ?_
    obtain ⟨v, rfl⟩ := List.length_eq_one_iff.1 hlength
    simpa [Text.joined] using hdots v (by simp)

lemma Divides.ofChars? {cs : List Char} {path : List String} {operator value : String}
    (h : Divides path operator value)
    (hcs : Text.trim cs = Text.joinTexts '.' (path ++ [operator, value])) :
    ofChars? cs = some (.leaf path operator value) := by
  obtain ⟨hpath, hsegment, hwords, hoperator, hvalue⟩ := h
  obtain ⟨first, rest, rfl⟩ := List.exists_cons_of_ne_nil hpath
  -- a leaf has a dot in it, so it is neither empty nor a connective
  have hdot : '.' ∈ Text.trim cs := by
    rw [hcs]
    exact mem_joinTexts_iff.2 (.inl ⟨rfl, by simp⟩)
  -- only the value may have dots of its own, and they are put back
  have hpieces : ((Text.trim cs).splitOn '.').map String.ofList =
      first :: (rest ++ operator :: (value.toList.splitOn '.').map String.ofList) := by
    have hfree : ∀ text ∈ first :: rest ++ [operator], '.' ∉ text.toList := by
      intro text htext
      rcases List.mem_append.1 htext with htext | htext
      · exact (hsegment text htext).2
      · rwa [List.mem_singleton.1 htext]
    have hsplit := splitOn_joinTexts hfree value
    rw [List.append_assoc, List.singleton_append, ← hcs] at hsplit
    rw [hsplit]
    simp [Function.comp_def]
  have hvalues : Text.joined "." ((value.toList.splitOn '.').map String.ofList) = value := by
    have hlist := joinTexts_map_ofList_splitOn '.' value.toList
    rw [← String.toList_inj, Text.toList_joined]
    exact hlist
  have hsplits : Splits (rest ++ operator :: (value.toList.splitOn '.').map String.ofList) rest
      operator ((value.toList.splitOn '.').map String.ofList) := by
    refine ⟨rfl, by simp [List.splitOn_ne_nil], hwords, hvalue.imp_right fun hv => ?_⟩
    rw [List.splitOn_eq_singleton hv]
    rfl
  have hany : ((first :: rest).any String.isEmpty) = false := by
    rw [List.any_eq_false]
    intro s hs
    simpa using (hsegment s hs).1
  have hne : (Text.trim cs).isEmpty = false := by
    rw [List.isEmpty_eq_false_iff]
    exact List.ne_nil_of_mem hdot
  simp only [Piece.ofChars?, hne, connective_ofName?_eq_none hdot, hpieces, hsplits.splitSegments?,
    Bool.false_eq_true, if_false, Option.bind_eq_bind, Option.bind_some, hany, hvalues]

/-- **Leaves.**  A piece of text is a leaf exactly if, trimmed, it is that leaf as it is written. -/
lemma ofChars?_eq_leaf_iff {cs : List Char} {path : List String} {operator value : String} :
    ofChars? cs = some (.leaf path operator value) ↔
      Text.trim cs = Text.joinTexts '.' (path ++ [operator, value]) ∧
        Divides path operator value :=
  ⟨divides_of_ofChars?, fun h => h.2.ofChars? h.1⟩

end Piece

end Retrieval
