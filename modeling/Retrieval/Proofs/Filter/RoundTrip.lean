/-
# Filters as they are written

The tokens that a filter can have are the well-formed ones, and the written form of well-formed
tokens is a filter with exactly these tokens.  Both directions go through the grammar: whatever a
text spells is well-formed, and the written form of a well-formed token spells it.
-/
import Retrieval.Proofs.Filter.Piece
import Retrieval.Proofs.Filter.Spelling

namespace Retrieval

/-- A text without the characters that structure a filter. -/
def Unmarked (text : String) : Prop := ∀ c ∈ text.toList, c ≠ ',' ∧ c ≠ '(' ∧ c ≠ ')'

instance (text : String) : Decidable (Unmarked text) :=
  decidable_of_iff (text.toList.all fun c => c != ',' && c != '(' && c != ')')
    (by simp [Unmarked, and_assoc])

/-- A token that a filter can have.  The dots of a leaf have to leave its operator where it is, and
no text of it may hold a comma or a bracket.  Trimming leaves a leaf with a single value as it is
written, and for a list it leaves the first segment and every value. -/
inductive Token.WellFormed : Token → Prop where
  | scalar {path : List String} {operator value : String} :
    Piece.Divides path operator value → (∀ text ∈ path ++ [operator, value], Unmarked text) →
      Text.Trimmed (Token.leaf path operator (.scalar value)).chars →
      WellFormed (.leaf path operator (.scalar value))
  | list {path : List String} {operator : String} {values : List String} :
    Piece.Divides path operator "" → operator ∈ ["in", "between", "ov"] →
      (∀ text ∈ path ++ values, Unmarked text) →
      (∀ first ∈ path.head?, ∀ c ∈ first.toList.head?, Text.isBlank c = false) →
      (∀ v ∈ values, v ≠ "" ∧ Text.Trimmed v.toList) →
      WellFormed (.leaf path operator (.list values))
  | group {c : Connective} {children : List Token} :
    (∀ t ∈ children, WellFormed t) → WellFormed (.group c children)

/-! ### Tokens of filters are well-formed -/

/-- The pieces of a run without brackets hold no character that structures a filter. -/
lemma BracketFree.of_mem_splitOn {run piece : List Char} (h : BracketFree run)
    (hpiece : piece ∈ run.splitOn ',') : ∀ c ∈ piece, c ≠ ',' ∧ c ≠ '(' ∧ c ≠ ')' := by
  intro c hc
  obtain ⟨hcomma, hrun⟩ := Text.of_mem_splitOn hpiece c hc
  exact ⟨hcomma, h c hrun⟩

lemma unmarked_of_ofChars? {piece : List Char} {path : List String} {operator value : String}
    (hpiece : ∀ c ∈ piece, c ≠ ',' ∧ c ≠ '(' ∧ c ≠ ')')
    (h : Piece.ofChars? piece = some (.leaf path operator value)) :
    ∀ text ∈ path ++ [operator, value], Unmarked text := by
  intro text htext c hc
  refine hpiece c (Text.mem_of_mem_trim ?_)
  rw [(Piece.ofChars?_eq_leaf_iff.1 h).1]
  exact mem_joinTexts_of_mem htext hc

lemma PiecesSpell.wellFormed {pieces : List (List Char)} {tokens : List Token}
    (h : PiecesSpell pieces tokens)
    (hpieces : ∀ piece ∈ pieces, ∀ c ∈ piece, c ≠ ',' ∧ c ≠ '(' ∧ c ≠ ')') :
    ∀ t ∈ tokens, t.WellFormed := by
  induction h with
  | nil => simp
  | empty _ _ ih => exact ih fun piece hpiece => hpieces piece (by simp [hpiece])
  | @leaf piece path operator value pieces tokens hp _ ih =>
    refine List.forall_mem_cons.2 ⟨?_, ih fun piece hpiece => hpieces piece (by simp [hpiece])⟩
    obtain ⟨htrim, hdivides⟩ := Piece.ofChars?_eq_leaf_iff.1 hp
    refine .scalar hdivides (unmarked_of_ofChars? (hpieces piece (by simp)) hp) ?_
    rw [Token.chars, Literal.text, ← htrim]
    exact Text.trimmed_trim piece

lemma Opening.ofPiece?_eq_values_iff {piece : Piece} {path : List String} {operator : String} :
    Opening.ofPiece? piece = some (.values path operator) ↔
      piece = .leaf path operator "" ∧ operator ∈ ["in", "between", "ov"] := by
  rw [← Operator.takesList_iff]
  cases piece with
  | empty => simp [ofPiece?]
  | connective c => simp [ofPiece?]
  | leaf path' operator' value =>
    simp only [ofPiece?, Bool.and_eq_true, String.isEmpty_iff]
    constructor
    · intro h
      split at h
      · next hvalue =>
        cases h
        exact ⟨by rw [hvalue.1], hvalue.2⟩
      · cases h
    · rintro ⟨⟨⟩, hlist⟩
      rw [if_pos ⟨rfl, hlist⟩]

/-- What a filter says of the values of a leaf, behind the piece that opens them. -/
lemma Opens.wellFormed_values {run items : List Char} {before : List Token} {path : List String}
    {operator : String} (h : Opens run before (.values path operator)) (hitems : BracketFree items) :
    (Token.leaf path operator (.list (Token.listItems items))).WellFormed := by
  obtain ⟨piece, hlast, hopen⟩ := Option.bind_eq_some_iff.1 h.last
  obtain ⟨rfl, hlist⟩ := Opening.ofPiece?_eq_values_iff.1 hopen
  have hne := List.splitOn_ne_nil ',' run
  rw [List.getLastD_eq_getLast?, List.getLast?_eq_some_getLast hne, Option.getD_some] at hlast
  obtain ⟨htrim, hdivides⟩ := Piece.ofChars?_eq_leaf_iff.1 hlast
  -- the path comes from the piece and the values from the bracket
  have hpath := unmarked_of_ofChars? (h.bracketFree.of_mem_splitOn (List.getLast_mem hne)) hlast
  have hvalue : ∀ v ∈ Token.listItems items, v ≠ "" ∧ Unmarked v ∧ Text.Trimmed v.toList := by
    intro v hv
    simp only [Token.listItems, List.mem_filterMap, List.mem_map] at hv
    obtain ⟨_, ⟨item, hitem, rfl⟩, hv⟩ := hv
    split at hv
    · cases hv
    next hempty =>
    cases hv
    refine ⟨by simpa using hempty, fun c hc => ?_, ?_⟩
    · rw [String.toList_ofList] at hc
      exact hitems.of_mem_splitOn hitem c (Text.mem_of_mem_trim hc)
    · rw [String.toList_ofList]
      exact Text.trimmed_trim item
  refine .list hdivides hlist ?_ ?_ fun v hv => ⟨(hvalue v hv).1, (hvalue v hv).2.2⟩
  · intro text htext
    rcases List.mem_append.1 htext with htext | htext
    · exact hpath text (by simp [htext])
    · exact (hvalue text htext).2.1
  · -- the piece is trimmed, and it begins as its first segment does
    intro first hfirst c hc
    obtain ⟨rest, rfl⟩ : ∃ rest, path = first :: rest := by
      cases path with
      | nil => simp at hfirst
      | cons s rest => exact ⟨rest, by simpa using hfirst⟩
    refine (Text.trimmed_trim ((run.splitOn ',').getLast hne)).head c ?_
    rw [htrim, List.cons_append, head?_joinTexts (hdivides.segment first (by simp)).1]
    exact hc

/-- Whatever a text spells is well-formed. -/
lemma Spells.wellFormed {cs : List Char} {tokens : List Token} (h : Spells cs tokens) :
    ∀ t ∈ tokens, t.WellFormed := by
  have hbefore {run : List Char} {before : List Token} {o : Opening} (ho : Opens run before o) :
      ∀ t ∈ before, t.WellFormed :=
    ho.front.wellFormed fun piece hpiece =>
      ho.bracketFree.of_mem_splitOn (List.dropLast_subset _ hpiece)
  induction h with
  | text hrun hp => exact hp.wellFormed fun piece hpiece => hrun.of_mem_splitOn hpiece
  | splice ho _ _ ihinner ihrest =>
    simp only [List.forall_mem_append]
    exact ⟨⟨hbefore ho, ihinner⟩, ihrest⟩
  | group ho _ _ ihinner ihrest =>
    simp only [List.forall_mem_append, List.forall_mem_singleton]
    exact ⟨⟨hbefore ho, .group ihinner⟩, ihrest⟩
  | values ho hitems _ ihrest =>
    simp only [List.forall_mem_append, List.forall_mem_singleton]
    exact ⟨⟨hbefore ho, ho.wellFormed_values hitems⟩, ihrest⟩

/-! ### Well-formed tokens are spelled by their written form -/

lemma unmarked_joinTexts {texts : List String} (h : ∀ text ∈ texts, Unmarked text) :
    ∀ c ∈ Text.joinTexts '.' texts, c ≠ ',' ∧ c ≠ '(' ∧ c ≠ ')' := by
  intro c hc
  rcases mem_joinTexts_iff.1 hc with ⟨rfl, -⟩ | ⟨text, htext, hc⟩
  · decide
  · exact h text htext c hc

/-- A text without commas or brackets is a single piece. -/
lemma spells_piece {cs : List Char} {path : List String} {operator value : String}
    (h : ∀ c ∈ cs, c ≠ ',' ∧ c ≠ '(' ∧ c ≠ ')')
    (hpiece : Piece.ofChars? cs = some (.leaf path operator value)) :
    Spells cs [.leaf path operator (.scalar value)] := by
  refine .text (fun c hc => (h c hc).2) ?_
  rw [List.splitOn_eq_singleton fun hc => (h _ hc).1 rfl]
  exact .leaf hpiece .nil

lemma opens_values {cs : List Char} {path : List String} {operator : String}
    (h : ∀ c ∈ cs, c ≠ ',' ∧ c ≠ '(' ∧ c ≠ ')')
    (hpiece : Piece.ofChars? cs = some (.leaf path operator ""))
    (hlist : operator ∈ ["in", "between", "ov"]) : Opens cs [] (.values path operator) := by
  have hsplit : cs.splitOn ',' = [cs] := List.splitOn_eq_singleton fun hc => (h _ hc).1 rfl
  refine ⟨fun c hc => (h c hc).2, ?_, ?_⟩
  · rw [hsplit]
    exact .nil
  · rw [hsplit]
    exact Option.bind_eq_some_iff.2 ⟨_, hpiece, Opening.ofPiece?_eq_values_iff.2 ⟨rfl, hlist⟩⟩

/-- Values that are not empty and have nothing to trim are read as they are written. -/
lemma listItems_joined {values : List String}
    (h : ∀ v ∈ values, v ≠ "" ∧ Unmarked v ∧ Text.Trimmed v.toList) :
    Token.listItems (Text.joined "," values).toList = values := by
  have hitem : ∀ v ∈ values,
      (if (Text.trim v.toList).isEmpty then none else some (String.ofList (Text.trim v.toList))) =
        some v := by
    intro v hv
    obtain ⟨hne, -, htrimmed⟩ := h v hv
    rw [htrimmed.trim_eq, String.ofList_toList, if_neg]
    simpa using hne
  have hjoin : (Text.joined "," values).toList = [','].intercalate (values.map String.toList) :=
    Text.toList_joined "," values
  rw [Token.listItems, hjoin]
  by_cases hvalues : values = []
  · -- an empty bracket is cut into one empty piece, which is no value
    subst hvalues
    rfl
  · rw [List.splitOn_intercalate]
    · rw [List.map_map, List.filterMap_map]
      exact (List.filterMap_congr hitem).trans (by simp)
    · intro item hitem hcomma
      obtain ⟨v, hv, rfl⟩ := List.mem_map.1 hitem
      exact ((h v hv).2.1 _ hcomma).1 rfl
    · simpa using hvalues

lemma Token.chars_list (path : List String) (operator : String) (values : List String) :
    (Token.leaf path operator (.list values)).chars =
      Text.joinTexts '.' (path ++ [operator, ""]) ++ '(' :: (Text.joined "," values).toList ++
        [')'] := by
  have h := joinTexts_append_text '.' (path ++ [operator]) (Literal.list values).text
  simp only [List.append_assoc, List.singleton_append] at h
  rw [Token.chars, h]
  simp [Literal.text]

/-- The piece in front of a list has nothing to trim if its first segment has not. -/
lemma trimmed_joinTexts {path : List String} (operator : String) (hpath : path ≠ [])
    (hsegment : ∀ s ∈ path, s ≠ "")
    (h : ∀ first ∈ path.head?, ∀ c ∈ first.toList.head?, Text.isBlank c = false) :
    Text.Trimmed (Text.joinTexts '.' (path ++ [operator, ""])) := by
  obtain ⟨first, rest, rfl⟩ := List.exists_cons_of_ne_nil hpath
  constructor
  · intro c hc
    rw [List.cons_append, head?_joinTexts (hsegment first (by simp))] at hc
    exact h first rfl c hc
  · -- the piece ends in the dot behind its operator
    have hlast : Text.joinTexts '.' (first :: rest ++ [operator, ""]) =
        Text.joinTexts '.' (first :: rest ++ [operator]) ++ ['.'] := by
      rw [← joinTexts_append_empty (by simp), List.append_assoc, List.singleton_append]
    intro c hc
    rw [hlast, List.getLast?_concat] at hc
    cases hc
    decide

lemma unmarked_of_mem_lists {operator : String} (h : operator ∈ ["in", "between", "ov"]) :
    Unmarked operator := by
  simp only [List.mem_cons, List.not_mem_nil, or_false] at h
  rcases h with rfl | rfl | rfl <;> simp [Unmarked]

lemma bracketFree_joined {values : List String} (h : ∀ v ∈ values, Unmarked v) :
    BracketFree (Text.joined "," values).toList := by
  intro c hc
  rw [Text.toList_joined] at hc
  rcases Text.mem_intercalate_iff.1 hc with ⟨rfl, -⟩ | ⟨item, hitem, hc⟩
  · decide
  · obtain ⟨v, hv, rfl⟩ := List.mem_map.1 hitem
    exact (h v hv c hc).2

/-- Tokens are spelled by their written forms with commas between them. -/
lemma spells_charsOf {tokens : List Token} (h : ∀ t ∈ tokens, Spells t.chars [t]) :
    Spells (Token.charsOf tokens) tokens := by
  induction tokens with
  | nil => exact spells_nil
  | cons t rest ih =>
    have ht : Spells t.chars [t] := h t (by simp)
    have ih := ih fun u hu => h u (by simp [hu])
    cases rest with
    | nil => simpa [Token.charsOf, Token.charsBehind] using ht
    | cons u rest => simpa [Token.charsOf, Token.charsBehind] using ht.comma ih

lemma Token.WellFormed.spells {t : Token} (h : t.WellFormed) : Spells t.chars [t] := by
  induction h with
  | @scalar path operator value hdivides hplain htrimmed =>
    exact spells_piece (unmarked_joinTexts hplain) (hdivides.ofChars? htrimmed.trim_eq)
  | @list path operator values hdivides hlist hplain hfirst hvalues =>
    have hfront : ∀ text ∈ path ++ [operator, ""], Unmarked text := by
      intro text htext
      rcases List.mem_append.1 htext with htext | htext
      · exact hplain text (by simp [htext])
      · rcases List.mem_pair.1 htext with rfl | rfl
        · exact unmarked_of_mem_lists hlist
        · simp [Unmarked]
    -- in front of the bracket stands a leaf with an empty value
    have htrimmed := trimmed_joinTexts operator hdivides.path_ne_nil
      (fun s hs => (hdivides.segment s hs).1) hfirst
    have hopens := opens_values (unmarked_joinTexts hfront)
      (hdivides.ofChars? htrimmed.trim_eq) hlist
    have hitems := bracketFree_joined fun v hv => hplain v (List.mem_append_right path hv)
    have hread : Token.listItems (Text.joined "," values).toList = values :=
      listItems_joined fun v hv => ⟨(hvalues v hv).1, hplain v (by simp [hv]), (hvalues v hv).2⟩
    have hspells := Spells.values hopens hitems spells_nil
    rw [hread] at hspells
    rw [Token.chars_list]
    simpa using hspells
  | @group c children _ ih =>
    rw [Token.chars]
    exact (spells_charsOf ih).connective c

lemma Token.dot_mem_chars (path : List String) (operator : String) (value : Literal) :
    '.' ∈ (Token.leaf path operator value).chars := by
  rw [Token.chars]
  exact mem_joinTexts_iff.2 (.inl ⟨rfl, by simp⟩)

/-- The written form of a token is not blank. -/
lemma Token.exists_mem_chars (t : Token) : ∃ c ∈ t.chars, Text.isBlank c = false := by
  cases t with
  | leaf path operator value => exact ⟨'.', Token.dot_mem_chars path operator value, by decide⟩
  | group c children => exact ⟨'(', by simp [Token.chars], by decide⟩

lemma isBlankText_writeFilter {tokens : List Token} (h : tokens ≠ []) :
    Text.isBlankText (writeFilter tokens) = false := by
  obtain ⟨t, rest, rfl⟩ := List.exists_cons_of_ne_nil h
  obtain ⟨c, hc, hblank⟩ := t.exists_mem_chars
  rw [Text.isBlankText, writeFilter, String.toList_ofList, List.all_eq_false]
  exact ⟨c, by simp [Token.charsOf, hc], by simp [hblank]⟩

/-- **Reading and writing filters are inverse.**  The tokens of a filter are well-formed, and
well-formed tokens are read again from their written form. -/
theorem readFilter_writeFilter :
    (∀ input tokens, readFilter input = .ok tokens → ∀ t ∈ tokens, t.WellFormed) ∧
      ∀ tokens, tokens ≠ [] → (∀ t ∈ tokens, t.WellFormed) →
        readFilter (writeFilter tokens) = .ok tokens := by
  constructor
  · intro input tokens h
    exact (readFilter_eq_ok_iff.1 h).2.wellFormed
  · intro tokens hne h
    refine readFilter_eq_ok_iff.2 ⟨isBlankText_writeFilter hne, ?_⟩
    rw [writeFilter, String.toList_ofList]
    exact spells_charsOf fun t ht => (h t ht).spells

theorem readFilter_writeFilter_nested :
    readFilter "name.eq.a.b,or(owner.age.in.(1,two words),not())" =
      .ok [.leaf ["name"] "eq" (.scalar "a.b"),
        .group .or [.leaf ["owner", "age"] "in" (.list ["1", "two words"]), .group .not []]] := by
  have htext : writeFilter [.leaf ["name"] "eq" (.scalar "a.b"),
      .group .or [.leaf ["owner", "age"] "in" (.list ["1", "two words"]), .group .not []]] =
        "name.eq.a.b,or(owner.age.in.(1,two words),not())" := by
    decide
  rw [← htext]
  refine readFilter_writeFilter.2 _ (by simp) ?_
  have hname : (Token.leaf ["name"] "eq" (.scalar "a.b")).WellFormed :=
    .scalar ⟨by decide, by decide, by decide, by decide, by decide⟩ (by decide) (by decide)
  have hage : (Token.leaf ["owner", "age"] "in" (.list ["1", "two words"])).WellFormed :=
    .list ⟨by decide, by decide, by decide, by decide, by decide⟩ (by decide) (by decide)
      (by rintro _ ⟨⟩ _ ⟨⟩; decide) (by decide)
  have hnot : (Token.group .not []).WellFormed := .group (by simp)
  have hor := Token.WellFormed.group (c := .or)
    (List.forall_mem_cons.2 ⟨hage, List.forall_mem_singleton.2 hnot⟩)
  exact List.forall_mem_cons.2 ⟨hname, List.forall_mem_singleton.2 hor⟩

end Retrieval
