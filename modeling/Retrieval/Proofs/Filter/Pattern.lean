/-
# Patterns with stars at their ends

A pattern is matched like the name of a file: a star in it stands for any text, and every other
character for itself.  The program does not walk along patterns.  It takes the stars off the ends
and looks for what is left as a whole, a front, an end or a part of the text, which comes to the same
if no star stands inside.
-/
import Retrieval.Proofs.Filter.Path
import Retrieval.Proofs.Store.Operators

namespace Retrieval

namespace Glob

/-- A text matches a pattern: it is cut into what the characters of the pattern stand for. -/
inductive Matches : List Char → List Char → Prop where
  | nil : Matches [] []
  | star (skipped : List Char) {pattern text : List Char} :
    Matches pattern text → Matches ('*' :: pattern) (skipped ++ text)
  | char {c : Char} {pattern text : List Char} :
    c ≠ '*' → Matches pattern text → Matches (c :: pattern) (c :: text)

/-- Every star of a pattern is its first or its last character. -/
def StarsAtEnds (pattern : List Char) : Prop :=
  ∀ front back, pattern = front ++ '*' :: back → front = [] ∨ back = []

variable {pattern text : List Char}

/-! ### Matching part by part -/

/-- Two patterns behind one another match what is cut into a text for each of them. -/
lemma matches_append_iff {more : List Char} :
    Matches (pattern ++ more) text ↔
      ∃ front back, text = front ++ back ∧ Matches pattern front ∧ Matches more back := by
  constructor
  · intro h
    induction pattern generalizing text with
    | nil => exact ⟨[], text, rfl, .nil, h⟩
    | cons c pattern ih =>
      cases h with
      | star skipped h =>
        obtain ⟨front, back, rfl, hfront, hback⟩ := ih h
        exact ⟨skipped ++ front, back, by rw [List.append_assoc], .star skipped hfront, hback⟩
      | char hc h =>
        obtain ⟨front, back, rfl, hfront, hback⟩ := ih h
        exact ⟨c :: front, back, rfl, .char hc hfront, hback⟩
  · rintro ⟨front, back, rfl, hfront, hback⟩
    induction hfront with
    | nil => exact hback
    | star skipped _ ih =>
      rw [List.append_assoc]
      exact .star skipped ih
    | char hc _ ih => exact .char hc ih

/-- A pattern without stars stands for itself alone. -/
lemma matches_plain_iff (h : '*' ∉ pattern) : Matches pattern text ↔ text = pattern := by
  induction pattern generalizing text with
  | nil =>
    constructor
    · rintro ⟨⟩
      rfl
    · rintro rfl
      exact .nil
  | cons c pattern ih =>
    have hc : c ≠ '*' := fun e => h (e ▸ List.mem_cons_self)
    have ih {text : List Char} : Matches pattern text ↔ text = pattern :=
      ih fun hmem => h (List.mem_cons_of_mem _ hmem)
    constructor
    · intro hmatches
      cases hmatches with
      | star => exact absurd rfl hc
      | char _ hrest => rw [ih.1 hrest]
    · rintro rfl
      exact .char hc (ih.2 rfl)

lemma matches_star (text : List Char) : Matches ['*'] text := by
  simpa using Matches.star text .nil

lemma matches_star_cons_iff (h : '*' ∉ pattern) :
    Matches ('*' :: pattern) text ↔ pattern <:+ text := by
  rw [← List.singleton_append, matches_append_iff]
  constructor
  · rintro ⟨front, back, rfl, -, hback⟩
    rw [(matches_plain_iff h).1 hback]
    exact List.suffix_append front pattern
  · rintro ⟨front, rfl⟩
    exact ⟨front, pattern, rfl, matches_star front, (matches_plain_iff h).2 rfl⟩

lemma matches_append_star_iff (h : '*' ∉ pattern) :
    Matches (pattern ++ ['*']) text ↔ pattern <+: text := by
  rw [matches_append_iff]
  constructor
  · rintro ⟨front, back, rfl, hfront, -⟩
    rw [(matches_plain_iff h).1 hfront]
    exact List.prefix_append pattern back
  · rintro ⟨back, rfl⟩
    exact ⟨pattern, back, rfl, (matches_plain_iff h).2 rfl, matches_star back⟩

lemma matches_star_both_iff (h : '*' ∉ pattern) :
    Matches ('*' :: pattern ++ ['*']) text ↔ pattern <:+: text := by
  rw [matches_append_iff, List.infix_iff_suffix_prefix]
  constructor
  · rintro ⟨front, back, rfl, hfront, -⟩
    exact ⟨front, (matches_star_cons_iff h).1 hfront, List.prefix_append front back⟩
  · rintro ⟨front, hfront, back, rfl⟩
    exact ⟨front, back, rfl, (matches_star_cons_iff h).2 hfront, matches_star back⟩

/-! ### The four kinds of patterns -/

lemma starsAtEnds_iff : StarsAtEnds pattern ↔ '*' ∉ pattern.tail.dropLast := by
  constructor
  · intro h hmem
    rcases pattern with _ | ⟨c, rest⟩
    · simp at hmem
    rcases List.eq_nil_or_concat' rest with rfl | ⟨inner, d, rfl⟩
    · simp at hmem
    rw [List.tail_cons, List.dropLast_concat] at hmem
    obtain ⟨front, back, rfl⟩ := List.append_of_mem hmem
    simpa using h (c :: front) (back ++ [d]) (by simp)
  · rintro h front back rfl
    rcases front with _ | ⟨c, front⟩
    · exact .inl rfl
    rcases List.eq_nil_or_concat' back with rfl | ⟨back, d, rfl⟩
    · exact .inr rfl
    have hinner : (c :: front ++ '*' :: (back ++ [d])).tail.dropLast = front ++ '*' :: back := by
      rw [List.cons_append, List.tail_cons, ← List.cons_append, ← List.append_assoc,
        List.dropLast_concat]
    rw [hinner] at h
    exact absurd (List.mem_append_right front List.mem_cons_self) h

instance (pattern : List Char) : Decidable (StarsAtEnds pattern) :=
  decidable_of_iff _ starsAtEnds_iff.symm

/-- A text without stars that is open at neither end, at its start, at its end, or at both. -/
lemma StarsAtEnds.exists_plain (h : StarsAtEnds pattern) :
    ∃ plain, '*' ∉ plain ∧ (pattern = plain ∨ pattern = '*' :: plain ∨
      (plain ≠ [] ∧ pattern = plain ++ ['*']) ∨ pattern = '*' :: plain ++ ['*']) := by
  rw [starsAtEnds_iff] at h
  cases pattern with
  | nil => exact ⟨[], by simp⟩
  | cons c rest =>
    rcases List.eq_nil_or_concat' rest with rfl | ⟨inner, d, rfl⟩
    · by_cases hc : c = '*'
      · exact ⟨[], by simp [hc]⟩
      · exact ⟨[c], by simp [Ne.symm hc]⟩
    · rw [List.tail_cons, List.dropLast_concat] at h
      by_cases hc : c = '*' <;> by_cases hd : d = '*'
      · exact ⟨inner, h, by simp [hc, hd]⟩
      · exact ⟨inner ++ [d], by simp [h, Ne.symm hd], by simp [hc]⟩
      · exact ⟨c :: inner, by simp [h, Ne.symm hc], by simp [hd]⟩
      · exact ⟨c :: inner ++ [d], by simp [h, Ne.symm hc, Ne.symm hd], by simp⟩

end Glob

/-! ### Tests of texts -/

lemma containsText_iff {whole part : List Char} :
    containsText whole part = true ↔ part <:+: whole := by
  induction whole with
  | nil => simp [containsText]
  | cons c cs ih =>
    rw [containsText, Bool.or_eq_true, List.isPrefixOf_iff_prefix, ih, List.infix_cons_iff]

namespace Test

variable {v : Json} {text : String}

lemma matchesText_iff {match? : List Char → List Char → Bool} :
    matchesText match? v (.string text) = true ↔
      ∃ s, v = .string s ∧ match? s.toList text.toList = true := by
  cases v <;> simp [matchesText]

lemma passes_equal_string_iff : equal.passes v (.string text) = true ↔ v = .string text := by
  cases v <;> simp [passes, Json.looseEq, Json.same]

end Test

/-! ### Tests of patterns -/

namespace Conversion

variable {pattern : String} {plain : List Char}

lemma ofPattern_eq (pattern : String) :
    ofPattern pattern =
      if '*' ∉ pattern.toList then (.equal, pattern)
      else if pattern.toList.head? = some '*' ∧ pattern.toList.getLast? = some '*' ∧
        2 ≤ pattern.toList.length then
        (.contains, String.ofList pattern.toList.tail.dropLast)
      else if pattern.toList.head? = some '*' then (.endsWith, String.ofList pattern.toList.tail)
      else if pattern.toList.getLast? = some '*' then
        (.startsWith, String.ofList pattern.toList.dropLast)
      else (.contains, pattern) := by
  simp only [ofPattern, Bool.not_eq_true', List.contains_eq_mem, decide_eq_false_iff_not,
    beq_iff_eq, Bool.and_eq_true, decide_eq_true_eq, and_assoc]

lemma ofPattern_plain (hplain : '*' ∉ plain) (h : pattern.toList = plain) :
    ofPattern pattern = (.equal, pattern) := by
  rw [ofPattern_eq, if_pos (by rwa [h])]

lemma ofPattern_star_cons (hplain : '*' ∉ plain) (h : pattern.toList = '*' :: plain) :
    ofPattern pattern = (.endsWith, String.ofList plain) := by
  have hends : ¬ (('*' :: plain).head? = some '*' ∧ ('*' :: plain).getLast? = some '*' ∧
      2 ≤ ('*' :: plain).length) := by
    rintro ⟨-, hlast, hlength⟩
    have hne : plain ≠ [] := by
      rintro rfl
      simp at hlength
    rw [List.getLast?_cons_of_ne_nil hne] at hlast
    exact hplain (List.mem_of_getLast? hlast)
  rw [ofPattern_eq, h, if_neg (by simp), if_neg hends, if_pos List.head?_cons,
    List.tail_cons]

lemma ofPattern_append_star (hplain : '*' ∉ plain) (hne : plain ≠ [])
    (h : pattern.toList = plain ++ ['*']) :
    ofPattern pattern = (.startsWith, String.ofList plain) := by
  have hhead : (plain ++ ['*']).head? ≠ some '*' := by
    rw [List.head?_append_of_ne_nil _ hne]
    exact fun hc => hplain (List.mem_of_mem_head? hc)
  rw [ofPattern_eq, h, if_neg (by simp), if_neg (fun hends => hhead hends.1), if_neg hhead,
    if_pos List.getLast?_concat, List.dropLast_concat]

lemma ofPattern_star_both (h : pattern.toList = '*' :: plain ++ ['*']) :
    ofPattern pattern = (.contains, String.ofList plain) := by
  rw [ofPattern_eq, h, if_neg (by simp), if_pos ⟨rfl, List.getLast?_concat, by simp⟩,
    List.cons_append, List.tail_cons, List.dropLast_concat]

/-- The test of a pattern with its stars at its ends is passed by the texts that match it. -/
lemma passes_ofPattern_iff (h : Glob.StarsAtEnds pattern.toList) {v : Json} :
    (ofPattern pattern).1.passes v (.string (ofPattern pattern).2) = true ↔
      ∃ text, v = .string text ∧ Glob.Matches pattern.toList text.toList := by
  obtain ⟨plain, hplain, hpattern | hpattern | ⟨hne, hpattern⟩ | hpattern⟩ := h.exists_plain
  · have hmatches (text : String) : Glob.Matches pattern.toList text.toList ↔ text = pattern := by
      rw [Glob.matches_plain_iff (hpattern ▸ hplain), String.toList_inj]
    rw [ofPattern_plain hplain hpattern, Test.passes_equal_string_iff]
    simp only [hmatches, exists_eq_right]
  · rw [ofPattern_star_cons hplain hpattern, hpattern]
    simp only [Test.passes, Test.matchesText_iff, String.toList_ofList,
      List.isSuffixOf_iff_suffix, Glob.matches_star_cons_iff hplain]
  · rw [ofPattern_append_star hplain hne hpattern, hpattern]
    simp only [Test.passes, Test.matchesText_iff, String.toList_ofList,
      List.isPrefixOf_iff_prefix, Glob.matches_append_star_iff hplain]
  · rw [ofPattern_star_both hpattern, hpattern]
    simp only [Test.passes, Test.matchesText_iff, String.toList_ofList, containsText_iff,
      Glob.matches_star_both_iff hplain]

lemma ofPattern_test (pattern : String) :
    (ofPattern pattern).1 ≠ .isNull ∧ (ofPattern pattern).1.isDatePart = false := by
  rw [ofPattern_eq]
  split_ifs <;> exact ⟨nofun, rfl⟩

lemma conversion_like (pattern : String) :
    of "like" (.scalar pattern) =
      .ok ⟨(ofPattern pattern).1, .text (ofPattern pattern).2, false⟩ := rfl

end Conversion

/-! ### Leaves with patterns -/

/-- The text of an operand is a value of an attribute with texts, whatever is done with it. -/
lemma Operand.coerce_text_string {g : Graph} {p : ResolvedPath g} (htype : p.type = .string)
    {test : Test} (hpart : test.isDatePart = false) (text : String) :
    (Operand.text text).coerce p test = .ok (.string text) := by
  rw [coerce, ValueType.coerceFor, hpart, htype]
  by_cases htext : test.isTextMatch = true
  · rw [htext]
    rfl
  · rw [Bool.eq_false_of_not_eq_true htext]
    rfl

namespace Token

variable {g : Graph} {s : Store g} {root : g.Id} {row : Record} {path : List String}
  {p : ResolvedPath g} {pattern : String}

lemma accepted_like (hp : g.resolvePath root path = .ok p) (htype : p.type = .string) :
    (leaf path "like" (.scalar pattern)).Accepted g root :=
  (accepted_leaf_iff (Conversion.conversion_like pattern)).2 ⟨p, hp, _,
    Operand.coerce_text_string htype (Conversion.ofPattern_test pattern).2 _⟩

/-- A pattern selects a record if one of the values under its path is a text that matches it. -/
lemma selects_like_iff (hp : g.resolvePath root path = .ok p) (htype : p.type = .string)
    (hstars : Glob.StarsAtEnds pattern.toList) :
    (leaf path "like" (.scalar pattern)).Selects s root row ↔
      ∃ text, .string text ∈ s.reached root row path ∧
        Glob.Matches pattern.toList text.toList := by
  obtain ⟨hnull, hpart⟩ := Conversion.ofPattern_test pattern
  rw [selects_leaf_iff (Conversion.conversion_like pattern) hp
    (Operand.coerce_text_string htype hpart _), Comparison.holdsOf_eq_any hnull]
  simp only [Bool.bne_false, List.any_eq_true, Conversion.passes_ofPattern_iff hstars]
  constructor
  · rintro ⟨_, hmem, text, rfl, hmatches⟩
    exact ⟨text, hmem, hmatches⟩
  · rintro ⟨text, hmem, hmatches⟩
    exact ⟨_, hmem, text, rfl, hmatches⟩

end Token

/-- The only value that a scalar attribute of a record has. -/
lemma Store.reached_scalar {g : Graph} {s : Store g} {root : g.Id} {segment name : String}
    {t : ValueType} (hroot : (g.schema root).Distinct)
    (h : (g.schema root).Means segment ⟨name, .scalar t⟩) (row : Record) :
    s.reached root row [segment] = [(Json.member? name row).getD .null] := by
  have hname := (Schema.means_iff.1 h).2
  have hattribute := hroot.attribute?_segmentName_iff.2 h
  rw [← hname] at hattribute
  rw [reached, Graph.resolvePath_cons hroot h]
  simp only [pathValues, values, hattribute]

/-- **Patterns are matched as globs.**  Let the stars of a pattern stand nowhere but at its ends.
On whatever record of whatever store, `like` with the pattern is accepted for an attribute with texts,
and it selects the record if and only if the text that the record has there matches the pattern.  It
is the same at the end of a path of relations, where one of the values that are reached has to be a
text that matches. -/
theorem like_selects_iff_matches {definitions : List Schema.Definition} {g : Graph}
    (hg : Graph.build definitions = .ok g) (s : Store g) (root : g.Id) {pattern : String}
    (hstars : Glob.StarsAtEnds pattern.toList) :
    (∀ segment name, (g.schema root).Means segment ⟨name, .scalar .string⟩ →
      (Token.leaf [segment] "like" (.scalar pattern)).Accepted g root ∧
      ∀ row text, Json.member? name row = some (.string text) →
        ((Token.leaf [segment] "like" (.scalar pattern)).Selects s root row ↔
          Glob.Matches pattern.toList text.toList)) ∧
    ∀ path p, g.resolvePath root path = .ok p → p.type = .string →
      (Token.leaf path "like" (.scalar pattern)).Accepted g root ∧
      ∀ row, ((Token.leaf path "like" (.scalar pattern)).Selects s root row ↔
        ∃ text, .string text ∈ s.reached root row path ∧
          Glob.Matches pattern.toList text.toList) := by
  have hroot := Graph.distinct_of_build hg root
  constructor
  · intro segment name hmeans
    have hp : g.resolvePath root [segment] = .ok ⟨[name], root, .string, false⟩ :=
      Graph.resolvePath_cons hroot hmeans
    refine ⟨Token.accepted_like hp rfl, fun row text htext => ?_⟩
    rw [Token.selects_like_iff hp rfl hstars, Store.reached_scalar hroot hmeans, htext]
    simp
  · intro path p hp htype
    exact ⟨Token.accepted_like hp htype, fun row => Token.selects_like_iff hp htype hstars⟩

/-- Ann, whose pet is called Tom, by parts of the two names. -/
theorem like_selects_iff_matches_shelter :
    Graph.build shelterDefinitions = .ok shelterGraph ∧
    ∃ root : shelterGraph.Id, shelterGraph.find? "Person" = some root ∧
    ∃ ann ∈ shelterStore.rows root, Json.member? "name" ann = some (.string "Ann") ∧
      (Token.leaf ["name"] "like" (.scalar "*nn*")).Selects shelterStore root ann ∧
      ¬ (Token.leaf ["name"] "like" (.scalar "nn*")).Selects shelterStore root ann ∧
      (Token.leaf ["pets", "name"] "like" (.scalar "*om")).Selects shelterStore root ann := by
  have hname : (shelterGraph.schema ⟨0, by decide⟩).Means "name" ⟨"name", .scalar .string⟩ :=
    Schema.means_iff.2 ⟨by decide, rfl⟩
  have hlike {pattern : String} (hstars : Glob.StarsAtEnds pattern.toList) :=
    like_selects_iff_matches build_shelter shelterStore ⟨0, by decide⟩ hstars
  refine ⟨build_shelter, _, find?_person_shelter,
    [("id", .int 1), ("mentor", .null), ("name", .string "Ann")],
    List.mem_cons_self, rfl, ?_, ?_, ?_⟩
  · obtain ⟨hscalar, -⟩ := hlike (show Glob.StarsAtEnds "*nn*".toList by decide)
    refine ((hscalar _ _ hname).2 _ "Ann" rfl).2 ?_
    exact (Glob.matches_star_both_iff (show '*' ∉ ['n', 'n'] by decide)).2 (by decide)
  · obtain ⟨hscalar, -⟩ := hlike (show Glob.StarsAtEnds "nn*".toList by decide)
    intro h
    have hmatches := ((hscalar _ _ hname).2 _ "Ann" rfl).1 h
    have hstart := (Glob.matches_append_star_iff (show '*' ∉ ['n', 'n'] by decide)).1 hmatches
    exact absurd hstart (by decide)
  · obtain ⟨-, hpath⟩ := hlike (show Glob.StarsAtEnds "*om".toList by decide)
    have hpets : shelterStore.reached ⟨0, by decide⟩
        [("id", .int 1), ("mentor", .null), ("name", .string "Ann")] ["pets", "name"] =
          [.string "Tom"] := rfl
    refine ((hpath ["pets", "name"] _ rfl rfl).2 _).2 ⟨"Tom", by simp [hpets], ?_⟩
    exact (Glob.matches_star_cons_iff (show '*' ∉ ['o', 'm'] by decide)).2 (by decide)

end Retrieval
