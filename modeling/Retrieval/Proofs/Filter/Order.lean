/-
# Orders as they are written

A direction may be left out of an order, and its word may be the name of an attribute as well.  With
every direction written, an order says what it means: the last segment is the direction, whatever it
and the others are called.  So every order can be written in this form, and what is written in it is
read again.
-/
import Retrieval.Filter.Compile
import Retrieval.Proofs.Filter.RoundTrip
import Retrieval.Proofs.Plan.Walks
import Retrieval.Proofs.Schema.Consistency

namespace Retrieval

/-- A token that an order can have: a path of segments that are not empty and hold nothing that
structures an order, with nothing to trim in front, and one of the two directions. -/
structure OrderToken.WellFormed (t : OrderToken) : Prop where
  path_ne_nil : t.path ≠ []
  segment : ∀ s ∈ t.path, s ≠ "" ∧ '.' ∉ s.toList ∧ Unmarked s
  first : ∀ s ∈ t.path.head?, ∀ c ∈ s.toList.head?, Text.isBlank c = false
  direction : t.direction = "asc" ∨ t.direction = "desc"

/-! ### Directions -/

lemma Direction.ofName?_isSome_iff {word : String} :
    (ofName? word).isSome ↔ word = "asc" ∨ word = "desc" := by
  simp only [ofName?, List.find?_isSome, List.mem_cons, List.not_mem_nil, or_false, exists_eq_or_imp,
    exists_eq_left, decide_eq_true_eq, name, eq_comm (b := word)]

namespace OrderToken

/-- A direction is split off the end of a path if there is a path in front of it. -/
lemma splitDirection_append {path : List String} {direction : String} (hpath : path ≠ [])
    (hdirection : direction = "asc" ∨ direction = "desc") :
    splitDirection (path ++ [direction]) = (path, direction) := by
  have hlength : 2 ≤ (path ++ [direction]).length := by
    have := List.length_pos_iff.2 hpath
    simp
    omega
  have hlast : (path ++ [direction]).getLastD "" = direction := by simp
  rw [splitDirection, hlast, if_pos ⟨hlength, Direction.ofName?_isSome_iff.2 hdirection⟩,
    List.dropLast_concat]

/-- Some segments begin with a path, and what is taken for the direction is one. -/
lemma of_splitDirection {segments path : List String} {direction : String} (hne : segments ≠ [])
    (h : splitDirection segments = (path, direction)) :
    path ≠ [] ∧ path <+: segments ∧ (direction = "asc" ∨ direction = "desc") := by
  rw [splitDirection] at h
  split at h
  · next hsplit =>
    obtain ⟨hlength, hdirection⟩ := hsplit
    cases h
    refine ⟨fun hnil => ?_, List.dropLast_prefix segments,
      Direction.ofName?_isSome_iff.1 hdirection⟩
    have hzero := congrArg List.length hnil
    simp at hzero
    omega
  · cases h
    exact ⟨hne, List.prefix_rfl, .inl rfl⟩

/-! ### Pieces -/

variable {t : OrderToken} {input : String} {piece : List Char}

lemma WellFormed.splitOn_chars (h : t.WellFormed) :
    (t.chars.splitOn '.').map String.ofList = t.path ++ [t.direction] := by
  have hdirection : t.direction.toList.splitOn '.' = [t.direction.toList] := by
    refine List.splitOn_eq_singleton ?_
    rcases h.direction with h | h <;> rw [h] <;> decide
  rw [chars, splitOn_joinTexts (fun s hs => (h.segment s hs).2.1), hdirection]
  simp [Function.comp_def]

lemma WellFormed.unmarked_chars (h : t.WellFormed) :
    ∀ c ∈ t.chars, c ≠ ',' ∧ c ≠ '(' ∧ c ≠ ')' := by
  refine unmarked_joinTexts fun s hs => ?_
  rcases List.mem_append.1 hs with hs | hs
  · exact (h.segment s hs).2.2
  · rw [List.mem_singleton.1 hs]
    rcases h.direction with h | h <;> rw [h] <;> decide

/-- The written form of a token has nothing to trim: it begins as its path does and ends with the
word for a direction. -/
lemma WellFormed.trimmed_chars (h : t.WellFormed) : Text.Trimmed t.chars := by
  obtain ⟨first, rest, hpath⟩ := List.exists_cons_of_ne_nil h.path_ne_nil
  constructor
  · intro c hc
    rw [chars, hpath, List.cons_append,
      head?_joinTexts (h.segment first (by simp [hpath])).1] at hc
    exact h.first first (by simp [hpath]) c hc
  · intro c hc
    rw [chars, joinTexts_append_text, List.getLast?_append] at hc
    rcases h.direction with h | h <;> rw [h] at hc <;> cases hc <;> decide

/-- A piece without brackets is a token if no segment of what is taken for its path is empty. -/
lemma ofPiece_eq_ok_iff {segments : List String}
    (hsegments : (piece.splitOn '.').map String.ofList = segments) :
    ofPiece input piece = .ok t ↔
      splitDirection segments = (t.path, t.direction) ∧ (∀ s ∈ t.path, s ≠ "") ∧
        '(' ∉ piece ∧ ')' ∉ piece := by
  obtain ⟨path, direction⟩ := t
  rw [ofPiece, hsegments]
  obtain ⟨path', direction'⟩ := splitDirection segments
  have hfault : (piece.contains '(' || piece.contains ')' || path'.any String.isEmpty) = false ↔
      (∀ s ∈ path', s ≠ "") ∧ '(' ∉ piece ∧ ')' ∉ piece := by
    simp only [Bool.or_eq_false_iff, List.contains_eq_mem, decide_eq_false_iff_not,
      List.any_eq_false, String.isEmpty_iff]
    exact and_comm
  dsimp only
  split
  · next h =>
    constructor
    · rintro ⟨⟩
    · rintro ⟨⟨⟩, hfree⟩
      rw [hfault.2 hfree] at h
      cases h
  · next h =>
    have hfree := hfault.1 (by rwa [Bool.not_eq_true] at h)
    constructor
    · rintro ⟨⟩
      exact ⟨rfl, hfree⟩
    · rintro ⟨⟨⟩, -⟩
      rfl

lemma WellFormed.chars_ne_nil (h : t.WellFormed) : t.chars ≠ [] := by
  intro hnil
  have hsegments := h.splitOn_chars
  rw [hnil] at hsegments
  -- an empty text would be a single segment, with no path in front of it
  have hlength := congrArg List.length hsegments
  simp [h.path_ne_nil] at hlength

lemma WellFormed.ofPiece_chars (h : t.WellFormed) : ofPiece input t.chars = .ok t :=
  (ofPiece_eq_ok_iff h.splitOn_chars).2 ⟨splitDirection_append h.path_ne_nil h.direction,
    fun s hs => (h.segment s hs).1, fun hc => (h.unmarked_chars _ hc).2.1 rfl,
    fun hc => (h.unmarked_chars _ hc).2.2 rfl⟩

/-- A trimmed piece without commas is read as a token that an order can have. -/
lemma wellFormed_of_ofPiece (h : ofPiece input piece = .ok t) (htrimmed : Text.Trimmed piece)
    (hcomma : ',' ∉ piece) : t.WellFormed := by
  obtain ⟨hsplit, hne, hopen, hclose⟩ := (ofPiece_eq_ok_iff rfl).1 h
  obtain ⟨hpath, hfront, hdirection⟩ := of_splitDirection (by simp) hsplit
  refine ⟨hpath, fun s hs => ⟨hne s hs, ?_⟩, ?_, hdirection⟩
  · -- a segment is what stands between two dots of the piece
    obtain ⟨cs, hcs, rfl⟩ := List.mem_map.1 (hfront.subset hs)
    have hmem := Text.of_mem_splitOn hcs
    rw [Unmarked, String.toList_ofList]
    refine ⟨fun hdot => (hmem _ hdot).1 rfl, fun c hc => ⟨?_, ?_, ?_⟩⟩
    all_goals
      rintro rfl
      exact absurd (hmem _ hc).2 ‹_›
  · intro first hfirst c hc
    -- the piece begins as its first segment does
    obtain ⟨rest, hrest⟩ := List.head?_eq_some_iff.1 hfirst
    obtain ⟨behind, hbehind⟩ := hfront
    rw [hrest, List.cons_append] at hbehind
    refine htrimmed.head c ?_
    rw [← joinTexts_map_ofList_splitOn '.' piece, ← hbehind,
      head?_joinTexts (hne first (List.mem_of_mem_head? hfirst))]
    exact hc

end OrderToken

/-! ### Orders -/

variable {input : String} {tokens : List OrderToken}

/-- The pieces of an order: what stands between commas, trimmed and not empty. -/
lemma readOrder_eq_ok_iff :
    readOrder input = .ok tokens ↔
      List.Forall₂ (fun piece t => OrderToken.ofPiece input piece = .ok t)
        (((input.toList.splitOn ',').map Text.trim).filter fun piece => !piece.isEmpty) tokens :=
  mapM_eq_ok_iff

lemma wellFormed_of_readOrder (h : readOrder input = .ok tokens) : ∀ t ∈ tokens, t.WellFormed := by
  intro t ht
  obtain ⟨piece, hpiece, hread⟩ := (exists_of_forall₂ (readOrder_eq_ok_iff.1 h)).2 t ht
  obtain ⟨cs, hcs, rfl⟩ := List.mem_map.1 (List.mem_of_mem_filter hpiece)
  refine OrderToken.wellFormed_of_ofPiece hread (Text.trimmed_trim cs) fun hcomma => ?_
  exact (Text.of_mem_splitOn hcs _ (Text.mem_of_mem_trim hcomma)).1 rfl

/-- The pieces of the written form of tokens are the written forms of the tokens. -/
lemma readOrder_writeOrder_of_wellFormed (h : ∀ t ∈ tokens, t.WellFormed) :
    readOrder (writeOrder tokens) = .ok tokens := by
  have hpieces : ((((writeOrder tokens).toList.splitOn ',').map Text.trim).filter
      fun piece => !piece.isEmpty) = tokens.map OrderToken.chars := by
    rw [writeOrder, String.toList_ofList]
    by_cases hnil : tokens = []
    · -- an empty text is cut into one empty piece, which is passed over
      subst hnil
      rfl
    · rw [List.splitOn_intercalate]
      · rw [List.map_map, List.filter_eq_self.2]
        · exact List.map_congr_left fun t ht => (h t ht).trimmed_chars.trim_eq
        · simp only [List.mem_map, Function.comp_apply]
          rintro _ ⟨t, ht, rfl⟩
          rw [(h t ht).trimmed_chars.trim_eq]
          simpa using (h t ht).chars_ne_nil
      · intro piece hpiece hcomma
        obtain ⟨t, ht, rfl⟩ := List.mem_map.1 hpiece
        exact ((h t ht).unmarked_chars _ hcomma).1 rfl
      · simpa using hnil
  rw [readOrder_eq_ok_iff, hpieces, List.forall₂_map_left_iff, List.forall₂_same]
  exact fun t ht => (h t ht).ofPiece_chars

/-! ### Keys -/

/-- What a token becomes on a schema: a key with its path, as it is resolved, and its direction. -/
structure OrderToken.Gives (g : Graph) (root : g.Id) (t : OrderToken) (k : OrderKey) : Prop where
  path : ∃ p, g.resolvePath root t.path = .ok p ∧ k.path = p.segments
  direction : k.descending = true ↔ t.direction = "desc"

lemma Direction.eq_descending_iff {word : String} {d : Direction} (h : ofName? word = some d) :
    d = .descending ↔ word = "desc" := by
  have hname : d.name = word := by simpa using List.find?_some h
  rw [← hname]
  cases d <;> decide

lemma OrderToken.WellFormed.ofToken_eq_ok_iff {g : Graph} {root : g.Id} {t : OrderToken}
    {k : OrderKey} (h : t.WellFormed) : OrderKey.ofToken g root t = .ok k ↔ t.Gives g root k := by
  obtain ⟨d, hd⟩ := Option.isSome_iff_exists.1 (Direction.ofName?_isSome_iff.2 h.direction)
  have hdescending := Direction.eq_descending_iff hd
  simp only [OrderKey.ofToken, bind_eq_ok_iff, hd, Except.ok.injEq]
  constructor
  · rintro ⟨p, hp, rfl⟩
    exact ⟨⟨p, hp, rfl⟩, by simpa using hdescending⟩
  · rintro ⟨⟨p, hp, hpath⟩, hdirection⟩
    obtain ⟨path, descending⟩ := k
    refine ⟨p, hp, ?_⟩
    rw [OrderKey.mk.injEq]
    exact ⟨hpath.symm, by rw [Bool.eq_iff_iff, decide_eq_true_iff, hdescending, hdirection]⟩

/-- Two relations that agree on the members of a list agree along it. -/
lemma forall₂_congr_of_mem {α β : Type} {R S : α → β → Prop} {as : List α} {bs : List β}
    (h : ∀ a ∈ as, ∀ b, R a b ↔ S a b) : List.Forall₂ R as bs ↔ List.Forall₂ S as bs := by
  induction as generalizing bs with
  | nil => simp only [List.forall₂_nil_left_iff]
  | cons a as ih =>
    have ih {bs : List β} : List.Forall₂ R as bs ↔ List.Forall₂ S as bs :=
      ih fun a' ha' => h a' (List.mem_cons_of_mem a ha')
    simp only [List.forall₂_cons_left_iff, h a List.mem_cons_self, ih]

lemma compileOrder_eq_ok_iff {g : Graph} {schema : String} {keys : List OrderKey} :
    g.compileOrder schema input = .ok keys ↔
      ∃ root tokens, g.find? schema = some root ∧ readOrder input = .ok tokens ∧
        List.Forall₂ (OrderToken.Gives g root) tokens keys := by
  have hkeys {root : g.Id} {tokens : List OrderToken} (h : readOrder input = .ok tokens) :
      OrderKey.ofTokens g root tokens = .ok keys ↔
        List.Forall₂ (OrderToken.Gives g root) tokens keys := by
    rw [OrderKey.ofTokens, mapM_eq_ok_iff]
    exact forall₂_congr_of_mem fun t ht k => (wellFormed_of_readOrder h t ht).ofToken_eq_ok_iff
  simp only [Graph.compileOrder, Graph.queried, bind_eq_ok_iff]
  cases g.find? schema with
  | none => simp
  | some i =>
    constructor
    · rintro ⟨_, ⟨⟩, ts, hts, h⟩
      exact ⟨i, ts, rfl, hts, (hkeys hts).1 h⟩
    · rintro ⟨_, ts, ⟨⟩, hts, h⟩
      exact ⟨i, rfl, ts, hts, (hkeys hts).2 h⟩

/-- **Reading and writing orders are inverse.**  Paths of segments with their directions, even if
segments are called like directions, are read again from their written form.  Whatever is read is of
this kind, so an order means the same when it is written with every direction.  A compiled order has
one key for each token that is read, in the same order: its path as it is resolved, and its
direction. -/
theorem readOrder_writeOrder :
    (∀ tokens, (∀ t ∈ tokens, t.WellFormed) → readOrder (writeOrder tokens) = .ok tokens) ∧
    (∀ input tokens, readOrder input = .ok tokens →
      (∀ t ∈ tokens, t.WellFormed) ∧ readOrder (writeOrder tokens) = .ok tokens) ∧
    ∀ (g : Graph) (schema input : String) (keys : List OrderKey),
      g.compileOrder schema input = .ok keys ↔
        ∃ root tokens, g.find? schema = some root ∧ readOrder input = .ok tokens ∧
          List.Forall₂ (OrderToken.Gives g root) tokens keys := by
  refine ⟨fun tokens => readOrder_writeOrder_of_wellFormed, fun input tokens h => ?_,
    fun g schema input keys => compileOrder_eq_ok_iff⟩
  have hwell := wellFormed_of_readOrder h
  exact ⟨hwell, readOrder_writeOrder_of_wellFormed hwell⟩

/-- Attributes that are called like directions, and an order of persons with blank space, an alias
and a comma too many. -/
theorem readOrder_writeOrder_shelter :
    readOrder "asc.desc,owner.desc.asc" = .ok [⟨["asc"], "desc"⟩, ⟨["owner", "desc"], "asc"⟩] ∧
    readOrder "name.asc,mentor.pk.desc" = .ok [⟨["name"], "asc"⟩, ⟨["mentor", "pk"], "desc"⟩] ∧
    ∃ root tokens, shelterGraph.find? "Person" = some root ∧
      readOrder " name ,mentor.pk.desc," = .ok tokens ∧
      List.Forall₂ (OrderToken.Gives shelterGraph root) tokens
        [⟨["name"], false⟩, ⟨["mentor", "id"], true⟩] := by
  obtain ⟨hwritten, hread, hcompile⟩ := readOrder_writeOrder
  refine ⟨?_, ?_, (hcompile _ _ _ _).1 (by decide +kernel)⟩
  · refine hwritten [⟨["asc"], "desc"⟩, ⟨["owner", "desc"], "asc"⟩] ?_
    simp only [List.forall_mem_cons, List.not_mem_nil, false_imp_iff, implies_true, and_true]
    exact ⟨⟨by decide, by decide, by rintro _ ⟨⟩ _ ⟨⟩; decide, by decide⟩,
      ⟨by decide, by decide, by rintro _ ⟨⟩ _ ⟨⟩; decide, by decide⟩⟩
  · exact (hread " name ,mentor.pk.desc," [⟨["name"], "asc"⟩, ⟨["mentor", "pk"], "desc"⟩]
      rfl).2

end Retrieval
