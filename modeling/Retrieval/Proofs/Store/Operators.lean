/-
# Operators and their primitive readings

A list of values stands for several equalities, a range for two bounds and an inequality for an
equality that does not hold.  The two sides take different ways through conversion, typing and
evaluation, so they are compared here where they meet: a leaf is accepted if its path is resolved and
its literals are read, and it selects a record by the values that the path reaches from there.
-/
import Retrieval.Proofs.Calendar.Chronology
import Retrieval.Proofs.Filter.Meaning
import Retrieval.Proofs.Schema.Consistency
import Retrieval.Proofs.Schema.Walks
import Retrieval.Proofs.Store.Paths

namespace Retrieval

/-! ### Leaves on a store -/

namespace Token

/-- Whether a token is accepted on a schema. -/
def Accepted (g : Graph) (root : g.Id) (t : Token) : Prop := ∃ q, g.compileToken root t = .ok q

/-- Whether the predicate of a token selects a record of a schema. -/
def Selects {g : Graph} (s : Store g) (root : g.Id) (row : Record) (t : Token) : Prop :=
  ∃ q, g.compileToken root t = .ok q ∧ s.selects root (some q) row = true

lemma Selects.accepted {g : Graph} {s : Store g} {root : g.Id} {row : Record} {t : Token}
    (h : t.Selects s root row) : t.Accepted g root := by
  obtain ⟨q, hq, -⟩ := h
  exact ⟨q, hq⟩

end Token

/-- The values that a path, as it is written, reaches from a record. -/
def Store.reached {g : Graph} (s : Store g) (root : g.Id) (row : Record) (path : List String) :
    List Json :=
  match g.resolvePath root path with
  | .ok p => s.pathValues root row p.segments
  | .error _ => []

namespace Token

variable {g : Graph} {s : Store g} {root : g.Id} {row : Record} {path : List String}
  {word : String} {value : Literal} {c : Conversion}

lemma compileToken_leaf_eq_ok_iff (hc : Conversion.of word value = .ok c) {q : Predicate} :
    g.compileToken root (.leaf path word value) = .ok q ↔
      ∃ p v, g.resolvePath root path = .ok p ∧ c.operand.coerce p c.test = .ok v ∧
        q = .compare ⟨p.segments, c.test, v, c.negated⟩ := by
  simp only [Graph.compileToken, Graph.compileLeaf, hc, bind_eq_ok_iff, Except.ok.injEq]
  constructor
  · rintro ⟨_, ⟨p, hp, _, rfl, v, hv, rfl⟩, rfl⟩
    exact ⟨p, v, hp, hv, rfl⟩
  · rintro ⟨p, v, hp, hv, rfl⟩
    exact ⟨_, ⟨p, hp, c, rfl, v, hv, rfl⟩, rfl⟩

/-- A leaf is accepted if its path is resolved and its operand is typed. -/
lemma accepted_leaf_iff (hc : Conversion.of word value = .ok c) :
    (leaf path word value).Accepted g root ↔
      ∃ p, g.resolvePath root path = .ok p ∧ ∃ v, c.operand.coerce p c.test = .ok v := by
  simp only [Accepted, compileToken_leaf_eq_ok_iff hc]
  constructor
  · rintro ⟨_, p, v, hp, hv, -⟩
    exact ⟨p, hp, v, hv⟩
  · rintro ⟨p, hp, v, hv⟩
    exact ⟨_, p, v, hp, hv, rfl⟩

/-- An accepted leaf selects a record by the values that its path reaches. -/
lemma selects_leaf_iff (hc : Conversion.of word value = .ok c) {p : ResolvedPath g} {v : Json}
    (hp : g.resolvePath root path = .ok p) (hv : c.operand.coerce p c.test = .ok v) :
    (leaf path word value).Selects s root row ↔
      (Comparison.mk p.segments c.test v c.negated).holdsOf (s.reached root row path) = true := by
  have hreached : s.reached root row path = s.pathValues root row p.segments := by
    rw [Store.reached, hp]
  have hq := (compileToken_leaf_eq_ok_iff hc).2 ⟨p, v, hp, hv, rfl⟩
  rw [hreached]
  constructor
  · rintro ⟨q, hq', hselects⟩
    cases hq.symm.trans hq'
    rwa [Store.selects, Predicate.holds] at hselects
  · intro hholds
    refine ⟨_, hq, ?_⟩
    rwa [Store.selects, Predicate.holds]

end Token

/-! ### Literals that are typed by the attribute -/

namespace Operand

variable {g : Graph} {p : ResolvedPath g} {test : Test} {text : String} {texts : List String}
  {v : Json}

/-- A text is read by the type of the attribute, unless its test asks for something else. -/
lemma coerce_text_eq_ok_iff (hpart : test.isDatePart = false) (htext : test.isTextMatch = false) :
    (Operand.text text).coerce p test = .ok v ↔ p.type.read? text = some v := by
  rw [coerce, ValueType.coerceFor, hpart, htext]
  exact ValueType.coerce_eq_ok_iff

lemma coerce_list_eq_ok_iff :
    (Operand.list texts).coerce p test = .ok v ↔
      ∃ vs, List.Forall₂ (fun text w => p.type.read? text = some w) texts vs ∧
        .array vs = v := by
  rw [coerce, bind_eq_ok_iff]
  simp only [mapM_eq_ok_iff, ValueType.coerce_eq_ok_iff, Except.ok.injEq]

end Operand

/-- Each member of a list has an image if there is a list of images. -/
lemma exists_forall₂_eq_some_iff {α β : Type} {f : α → Option β} {as : List α} :
    (∃ bs, List.Forall₂ (fun a b => f a = some b) as bs) ↔ ∀ a ∈ as, ∃ b, f a = some b := by
  constructor
  · rintro ⟨bs, h⟩ a ha
    obtain ⟨b, -, hb⟩ := (exists_of_forall₂ h).1 a ha
    exact ⟨b, hb⟩
  · intro h
    induction as with
    | nil => exact ⟨[], .nil⟩
    | cons a as ih =>
      obtain ⟨b, hb⟩ := h a (by simp)
      obtain ⟨bs, hbs⟩ := ih fun a' ha' => h a' (by simp [ha'])
      exact ⟨b :: bs, .cons hb hbs⟩

namespace Token

variable {g : Graph} {s : Store g} {root : g.Id} {row : Record} {path : List String}
  {word text : String} {texts : List String} {test : Test} {negated : Bool}

section Text

variable (hc : Conversion.of word (.scalar text) = .ok ⟨test, .text text, negated⟩)
  (hpart : test.isDatePart = false) (htext : test.isTextMatch = false)
include hc hpart htext

lemma accepted_text_iff :
    (leaf path word (.scalar text)).Accepted g root ↔
      ∃ p, g.resolvePath root path = .ok p ∧ ∃ v, p.type.read? text = some v := by
  simp only [accepted_leaf_iff hc, Operand.coerce_text_eq_ok_iff hpart htext]

lemma selects_text_iff {p : ResolvedPath g} {v : Json} (hp : g.resolvePath root path = .ok p)
    (hv : p.type.read? text = some v) :
    (leaf path word (.scalar text)).Selects s root row ↔
      (Comparison.mk p.segments test v negated).holdsOf (s.reached root row path) = true :=
  selects_leaf_iff hc hp ((Operand.coerce_text_eq_ok_iff hpart htext).2 hv)

end Text

section Texts

variable (hc : Conversion.of word (.list texts) = .ok ⟨test, .list texts, false⟩)
include hc

lemma accepted_list_iff :
    (leaf path word (.list texts)).Accepted g root ↔
      ∃ p, g.resolvePath root path = .ok p ∧ ∀ text ∈ texts, ∃ v, p.type.read? text = some v := by
  simp only [accepted_leaf_iff hc, Operand.coerce_list_eq_ok_iff, ← exists_forall₂_eq_some_iff]
  constructor
  · rintro ⟨p, hp, _, vs, hvs, -⟩
    exact ⟨p, hp, vs, hvs⟩
  · rintro ⟨p, hp, vs, hvs⟩
    exact ⟨p, hp, _, vs, hvs, rfl⟩

lemma selects_list_iff {p : ResolvedPath g} {vs : List Json}
    (hp : g.resolvePath root path = .ok p)
    (hvs : List.Forall₂ (fun text v => p.type.read? text = some v) texts vs) :
    (leaf path word (.list texts)).Selects s root row ↔
      (Comparison.mk p.segments test (.array vs) false).holdsOf (s.reached root row path) = true :=
  selects_leaf_iff hc hp (Operand.coerce_list_eq_ok_iff.2 ⟨vs, hvs, rfl⟩)

end Texts

/-! ### Operators -/

lemma conversion_eq (h : text ≠ "null") :
    Conversion.of "eq" (.scalar text) = .ok ⟨.equal, .text text, false⟩ :=
  congrArg Except.ok (if_neg h)

lemma conversion_neq (h : text ≠ "null") :
    Conversion.of "neq" (.scalar text) = .ok ⟨.equal, .text text, true⟩ :=
  congrArg Except.ok (if_neg h)

lemma conversion_eq_null : Conversion.of "eq" (.scalar "null") = .ok ⟨.isNull, .none, false⟩ := rfl

lemma conversion_neq_null :
    Conversion.of "neq" (.scalar "null") = .ok ⟨.isNotNull, .none, false⟩ := rfl

lemma conversion_in (texts : List String) :
    Conversion.of "in" (.list texts) = .ok ⟨.oneOf, .list texts, false⟩ := rfl

lemma conversion_ov (texts : List String) :
    Conversion.of "ov" (.list texts) = .ok ⟨.overlap, .list texts, false⟩ := rfl

lemma conversion_between (low high : String) :
    Conversion.of "between" (.list [low, high]) = .ok ⟨.range, .list [low, high], false⟩ := rfl

lemma conversion_gte (text : String) :
    Conversion.of "gte" (.scalar text) = .ok ⟨.greaterEqual, .text text, false⟩ := rfl

lemma conversion_lte (text : String) :
    Conversion.of "lte" (.scalar text) = .ok ⟨.lessEqual, .text text, false⟩ := rfl

/-! ### Lists -/

lemma accepted_eq_iff (h : text ≠ "null") :
    (leaf path "eq" (.scalar text)).Accepted g root ↔
      ∃ p, g.resolvePath root path = .ok p ∧ ∃ v, p.type.read? text = some v :=
  accepted_text_iff (conversion_eq h) rfl rfl

/-- A list of values is accepted if each of them is accepted in an equality. -/
lemma accepted_in_iff (hne : texts ≠ []) (hnull : "null" ∉ texts) :
    (leaf path "in" (.list texts)).Accepted g root ↔
      ∀ text ∈ texts, (leaf path "eq" (.scalar text)).Accepted g root := by
  have hnot : ∀ text ∈ texts, text ≠ "null" := fun text htext h => hnull (h ▸ htext)
  rw [accepted_list_iff (conversion_in texts)]
  constructor
  · rintro ⟨p, hp, hread⟩ text htext
    exact (accepted_eq_iff (hnot text htext)).2 ⟨p, hp, hread text htext⟩
  · intro h
    obtain ⟨first, hfirst⟩ := List.exists_mem_of_ne_nil texts hne
    obtain ⟨p, hp, -⟩ := (accepted_eq_iff (hnot first hfirst)).1 (h first hfirst)
    refine ⟨p, hp, fun text htext => ?_⟩
    obtain ⟨p', hp', hread⟩ := (accepted_eq_iff (hnot text htext)).1 (h text htext)
    cases hp.symm.trans hp'
    exact hread

/-- A list of values selects the records that an equality with one of them selects. -/
lemma selects_in_iff (hnull : "null" ∉ texts)
    (h : (leaf path "in" (.list texts)).Accepted g root) :
    (leaf path "in" (.list texts)).Selects s root row ↔
      ∃ text ∈ texts, (leaf path "eq" (.scalar text)).Selects s root row := by
  obtain ⟨p, hp, hread⟩ := (accepted_list_iff (conversion_in texts)).1 h
  obtain ⟨vs, hvs⟩ := exists_forall₂_eq_some_iff.2 hread
  obtain ⟨hvalue, htext⟩ := exists_of_forall₂ hvs
  have heq : ∀ text ∈ texts, ∀ v, p.type.read? text = some v →
      ((leaf path "eq" (.scalar text)).Selects s root row ↔
        ∃ actual ∈ s.reached root row path, actual.looseEq v = true) := by
    intro text hmem v hv
    have hnot : text ≠ "null" := fun h => hnull (h ▸ hmem)
    rw [selects_text_iff (conversion_eq hnot) rfl rfl hp hv, Comparison.holdsOf_eq_any (by simp)]
    simp [Test.passes]
  rw [selects_list_iff (conversion_in texts) hp hvs, Comparison.holdsOf_eq_any (by simp)]
  simp only [Test.passes, Test.isAmong, Bool.bne_false, List.any_eq_true]
  constructor
  · rintro ⟨actual, hactual, v, hv, hequal⟩
    obtain ⟨text, hmem, hread⟩ := htext v hv
    exact ⟨text, hmem, (heq text hmem v hread).2 ⟨actual, hactual, hequal⟩⟩
  · rintro ⟨text, hmem, hselects⟩
    obtain ⟨v, hv, hread⟩ := hvalue text hmem
    obtain ⟨actual, hactual, hequal⟩ := (heq text hmem v hread).1 hselects
    exact ⟨actual, hactual, v, hv, hequal⟩

lemma accepted_ov_iff :
    (leaf path "ov" (.list texts)).Accepted g root ↔
      (leaf path "in" (.list texts)).Accepted g root := by
  rw [accepted_list_iff (conversion_ov texts), accepted_list_iff (conversion_in texts)]

/-- What is no array overlaps a list if it is in it. -/
lemma selects_ov_iff (harray : ∀ v ∈ s.reached root row path, v.array? = none) :
    (leaf path "ov" (.list texts)).Selects s root row ↔
      (leaf path "in" (.list texts)).Selects s root row := by
  by_cases h : (leaf path "in" (.list texts)).Accepted g root
  · obtain ⟨p, hp, hread⟩ := (accepted_list_iff (conversion_in texts)).1 h
    obtain ⟨vs, hvs⟩ := exists_forall₂_eq_some_iff.2 hread
    have hpasses : ∀ actual ∈ s.reached root row path,
        Test.overlap.passes actual (.array vs) = Test.oneOf.passes actual (.array vs) := by
      intro actual hactual
      cases actual with
      | array items => exact absurd (harray _ hactual) (by simp [Json.array?])
      | _ => rfl
    rw [selects_list_iff (conversion_ov texts) hp hvs, selects_list_iff (conversion_in texts) hp hvs,
      Comparison.holdsOf_eq_any (by simp), Comparison.holdsOf_eq_any (by simp)]
    simp only [Bool.bne_false, List.any_eq_true]
    refine exists_congr fun actual => and_congr_right fun hactual => ?_
    rw [hpasses actual hactual]
  · constructor
    · intro hselects
      exact absurd (accepted_ov_iff.1 hselects.accepted) h
    · intro hselects
      exact absurd hselects.accepted h

/-! ### Ranges -/

/-- A range is accepted if both of its bounds are. -/
lemma accepted_between_iff {low high : String} :
    (leaf path "between" (.list [low, high])).Accepted g root ↔
      (leaf path "gte" (.scalar low)).Accepted g root ∧
        (leaf path "lte" (.scalar high)).Accepted g root := by
  rw [accepted_list_iff (conversion_between low high),
    accepted_text_iff (conversion_gte low) rfl rfl, accepted_text_iff (conversion_lte high) rfl rfl]
  constructor
  · rintro ⟨p, hp, hread⟩
    exact ⟨⟨p, hp, hread low (by simp)⟩, ⟨p, hp, hread high (by simp)⟩⟩
  · rintro ⟨⟨p, hp, hlow⟩, ⟨p', hp', hhigh⟩⟩
    cases hp.symm.trans hp'
    exact ⟨p, hp, by simpa using ⟨hlow, hhigh⟩⟩

/-- Of at most one value it is the same whether it passes two tests at once or one after the other. -/
lemma any_and_of_length_le_one {α : Type} {as : List α} (h : as.length ≤ 1) (p q : α → Bool) :
    as.any (fun a => p a && q a) = (as.any p && as.any q) := by
  match as with
  | [] => rfl
  | [a] => simp
  | _ :: _ :: _ => simp at h

/-- A range selects the records that both of its bounds select, if there is at most one value to lie
within them. -/
lemma selects_between_iff {low high : String} (hone : (s.reached root row path).length ≤ 1) :
    (leaf path "between" (.list [low, high])).Selects s root row ↔
      (leaf path "gte" (.scalar low)).Selects s root row ∧
        (leaf path "lte" (.scalar high)).Selects s root row := by
  by_cases h : (leaf path "between" (.list [low, high])).Accepted g root
  · obtain ⟨p, hp, hread⟩ := (accepted_list_iff (conversion_between low high)).1 h
    obtain ⟨v, hv⟩ := hread low (by simp)
    obtain ⟨w, hw⟩ := hread high (by simp)
    rw [selects_list_iff (conversion_between low high) hp (.cons hv (.cons hw .nil)),
      selects_text_iff (conversion_gte low) rfl rfl hp hv,
      selects_text_iff (conversion_lte high) rfl rfl hp hw, Comparison.holdsOf_eq_any (by simp),
      Comparison.holdsOf_eq_any (by simp), Comparison.holdsOf_eq_any (by simp)]
    simp only [Bool.bne_false, ← Bool.and_eq_true]
    rw [← any_and_of_length_le_one hone]
    rfl
  · constructor
    · intro hselects
      exact absurd hselects.accepted h
    · rintro ⟨hlow, hhigh⟩
      exact absurd (accepted_between_iff.2 ⟨hlow.accepted, hhigh.accepted⟩) h

/-! ### Inequalities -/

/-- An inequality is accepted if the equality is. -/
lemma accepted_neq_iff :
    (leaf path "neq" (.scalar text)).Accepted g root ↔
      (leaf path "eq" (.scalar text)).Accepted g root := by
  by_cases hnull : text = "null"
  · subst hnull
    rw [accepted_leaf_iff conversion_neq_null, accepted_leaf_iff conversion_eq_null]
    rfl
  · rw [accepted_eq_iff hnull, accepted_text_iff (conversion_neq hnull) rfl rfl]

/-- An inequality with a value selects the records that the equality does not select. -/
lemma selects_neq_iff (hnull : text ≠ "null")
    (h : (leaf path "neq" (.scalar text)).Accepted g root) :
    (leaf path "neq" (.scalar text)).Selects s root row ↔
      ¬ (leaf path "eq" (.scalar text)).Selects s root row := by
  obtain ⟨p, hp, v, hv⟩ := (accepted_eq_iff hnull).1 (accepted_neq_iff.1 h)
  rw [selects_text_iff (conversion_neq hnull) rfl rfl hp hv,
    selects_text_iff (conversion_eq hnull) rfl rfl hp hv, Comparison.holdsOf_eq_any (by simp),
    Comparison.holdsOf_eq_any (by simp)]
  simp

/-- That a value is not null is the contrary of that it is, if there is at most one value.  With
several ones, some may be null and others not. -/
lemma selects_neq_null_iff (h : (leaf path "neq" (.scalar "null")).Accepted g root)
    (hone : (s.reached root row path).length ≤ 1) :
    (leaf path "neq" (.scalar "null")).Selects s root row ↔
      ¬ (leaf path "eq" (.scalar "null")).Selects s root row := by
  obtain ⟨p, hp, -⟩ := (accepted_leaf_iff conversion_neq_null).1 h
  rw [selects_leaf_iff conversion_neq_null hp rfl, selects_leaf_iff conversion_eq_null hp rfl]
  match s.reached root row path, hone with
  | [], _ => simp [Comparison.holdsOf]
  | [v], _ => simp [Comparison.holdsOf]
  | _ :: _ :: _, hone => simp at hone

end Token

/-! ### Paths without to-many relations -/

/-- Whether no segment of a path means a to-many relation. -/
def Graph.alongToOnes (g : Graph) (i : g.Id) : List String → Bool
  | [] => true
  | segment :: rest =>
    match ((g.schema i).attribute? ((g.schema i).segmentName segment)).bind Attribute.relation? with
    | none => true
    | some r => r.cardinality = .toOne && g.alongToOnes r.target rest

lemma Graph.alongToOnes_cons_iff {g : Graph} {i : g.Id} {segment : String} {rest : List String} :
    g.alongToOnes i (segment :: rest) = true ↔
      ∀ r, ((g.schema i).attribute? ((g.schema i).segmentName segment)).bind Attribute.relation? =
        some r → r.cardinality = .toOne ∧ g.alongToOnes r.target rest = true := by
  rw [alongToOnes]
  split
  · next hnone => simp [hnone]
  · next r hr => simp [hr]

namespace Store

variable {g : Graph} (s : Store g) {i : g.Id} {row : Record} {name : String}

lemma length_values_le_one
    (h : ∀ r, ((g.schema i).attribute? name).bind Attribute.relation? = some r →
      r.cardinality = .toOne) :
    (s.values i row name).length ≤ 1 := by
  rw [values]
  split
  · exact Nat.zero_le 1
  next a ha =>
  split
  · exact Nat.le_refl 1
  next r hr =>
  have hone : r.cardinality = .toOne := h r (by simp [ha, Attribute.relation?, hr])
  rw [hone]
  exact Nat.le_refl 1

lemma step_toOne {r : Relation g.size}
    (hr : ((g.schema i).attribute? name).bind Attribute.relation? = some r)
    (hone : r.cardinality = .toOne) :
    s.step i row name =
      (s.findByKey? r.target ((Json.member? name row).getD .null)).toList.map (r.target, ·) := by
  rw [step, hr]
  simp only [hone]

/-- Along to-one relations a path reaches no second record, and so no second value. -/
lemma length_pathValues_le_one {segment : String} {rest : List String} {p : ResolvedPath g}
    (hp : g.follow i segment rest = .ok p) (h : g.alongToOnes i (segment :: rest) = true) :
    (s.pathValues i row p.segments).length ≤ 1 := by
  induction rest generalizing i row segment p with
  | nil =>
    have hsegments : p.segments = [(g.schema i).segmentName segment] := by
      rw [Graph.follow] at hp
      split at hp
      · cases hp
      split at hp
      all_goals
        cases hp
        rfl
    rw [hsegments, pathValues]
    exact s.length_values_le_one fun r hr => (Graph.alongToOnes_cons_iff.1 h r hr).1
  | cons next rest ih =>
    rw [Graph.follow] at hp
    split at hp
    · cases hp
    next a ha =>
    split at hp
    · cases hp
    next r hkind =>
    obtain ⟨q, hq, hp⟩ := bind_eq_ok_iff.1 hp
    cases hp
    have hr : ((g.schema i).attribute? ((g.schema i).segmentName segment)).bind
        Attribute.relation? = some r := by simp [ha, Attribute.relation?, hkind]
    obtain ⟨hone, hbehind⟩ := Graph.alongToOnes_cons_iff.1 h r hr
    obtain ⟨edges, last, -, -, hsegments, -⟩ := Graph.exists_walk_of_follow hq
    obtain ⟨name, names, hnames⟩ : ∃ name names, q.segments = name :: names :=
      List.exists_cons_of_ne_nil (by simp [hsegments])
    rw [ResolvedPath.cons, hnames, pathValues, s.step_toOne hr hone, ← hnames]
    cases s.findByKey? r.target _ with
    | none => exact Nat.zero_le 1
    | some target => simpa using ih hq hbehind

lemma length_reached_le_one {root : g.Id} {path : List String}
    (h : g.alongToOnes root path = true) : (s.reached root row path).length ≤ 1 := by
  rw [reached]
  split
  · next p hp =>
    cases path with
    | nil => cases hp
    | cons segment rest => exact s.length_pathValues_le_one hp h
  · exact Nat.zero_le 1

end Store

/-- **Lists, ranges and inequalities read as they say.**  On whatever record of whatever store, a leaf
with a list of values is accepted if and only if the equalities with its values are, and then it
selects the record if and only if one of them does, however many values the path reaches.  An overlap
is accepted like a list and selects the same where no array is reached.  A range is accepted if and
only if both of its bounds are, and selects what both select where at most one value is reached.  An
inequality is accepted if and only if the equality is, and then selects what that does not select,
with null as long as the path has no to-many relation. -/
theorem operators_read_primitively (g : Graph) (s : Store g) (root : g.Id) (path : List String) :
    (∀ texts : List String, texts ≠ [] → "null" ∉ texts →
      ((Token.leaf path "in" (.list texts)).Accepted g root ↔
        ∀ text ∈ texts, (Token.leaf path "eq" (.scalar text)).Accepted g root) ∧
      ((Token.leaf path "in" (.list texts)).Accepted g root → ∀ row,
        ((Token.leaf path "in" (.list texts)).Selects s root row ↔
          ∃ text ∈ texts, (Token.leaf path "eq" (.scalar text)).Selects s root row))) ∧
    (∀ texts : List String,
      ((Token.leaf path "ov" (.list texts)).Accepted g root ↔
        (Token.leaf path "in" (.list texts)).Accepted g root) ∧
      ∀ row, (∀ v ∈ s.reached root row path, v.array? = none) →
        ((Token.leaf path "ov" (.list texts)).Selects s root row ↔
          (Token.leaf path "in" (.list texts)).Selects s root row)) ∧
    (∀ low high : String,
      ((Token.leaf path "between" (.list [low, high])).Accepted g root ↔
        (Token.leaf path "gte" (.scalar low)).Accepted g root ∧
          (Token.leaf path "lte" (.scalar high)).Accepted g root) ∧
      ∀ row, (s.reached root row path).length ≤ 1 →
        ((Token.leaf path "between" (.list [low, high])).Selects s root row ↔
          (Token.leaf path "gte" (.scalar low)).Selects s root row ∧
            (Token.leaf path "lte" (.scalar high)).Selects s root row)) ∧
    ∀ text : String,
      ((Token.leaf path "neq" (.scalar text)).Accepted g root ↔
        (Token.leaf path "eq" (.scalar text)).Accepted g root) ∧
      ((Token.leaf path "neq" (.scalar text)).Accepted g root →
        text ≠ "null" ∨ g.alongToOnes root path = true → ∀ row,
          ((Token.leaf path "neq" (.scalar text)).Selects s root row ↔
            ¬ (Token.leaf path "eq" (.scalar text)).Selects s root row)) := by
  refine ⟨fun texts hne hnull => ⟨Token.accepted_in_iff hne hnull, fun h row =>
    Token.selects_in_iff hnull h⟩, fun texts => ⟨Token.accepted_ov_iff, fun row =>
    Token.selects_ov_iff⟩, fun low high => ⟨Token.accepted_between_iff, fun row =>
    Token.selects_between_iff⟩, fun text => ⟨Token.accepted_neq_iff, fun h hcase row => ?_⟩⟩
  by_cases hnull : text = "null"
  · subst hnull
    have hpath : g.alongToOnes root path = true := hcase.resolve_left fun hne => hne rfl
    exact Token.selects_neq_null_iff h (s.length_reached_le_one hpath)
  · exact Token.selects_neq_iff hnull h

/-- Bob, who has a pet without a name and one that is called Rex, and someone whose mentor is not
there. -/
theorem operators_read_primitively_shelter :
    ∃ root : shelterGraph.Id, shelterGraph.find? "Person" = some root ∧
    ∃ bob third, shelterStore.findByKey? root (.int 2) = some bob ∧
      shelterStore.findByKey? root (.int 3) = some third ∧
      (Token.leaf ["pets", "name"] "in" (.list ["Tom", "Rex"])).Selects shelterStore root bob ∧
      (Token.leaf ["mentor", "name"] "eq" (.scalar "null")).Selects shelterStore root third ∧
      ¬ (Token.leaf ["mentor", "name"] "neq" (.scalar "null")).Selects shelterStore root third := by
  refine ⟨_, find?_person_shelter, [("id", .int 2), ("mentor", .int 1), ("name", .string "Bob")],
    [("id", .int 3), ("mentor", .int 9)], rfl, rfl, ?_, ?_⟩
  · obtain ⟨hlist, -⟩ := operators_read_primitively shelterGraph shelterStore ⟨0, by decide⟩
      ["pets", "name"]
    obtain ⟨haccepted, hselects⟩ := hlist ["Tom", "Rex"] (by simp) (by decide)
    have heq : ∀ text ∈ ["Tom", "Rex"], (Token.leaf ["pets", "name"] "eq" (.scalar text)).Accepted
        shelterGraph ⟨0, by decide⟩ := by
      simp only [List.forall_mem_cons]
      exact ⟨⟨_, rfl⟩, ⟨_, rfl⟩, by simp⟩
    exact (hselects (haccepted.2 heq) _).2 ⟨"Rex", by simp, _, rfl, rfl⟩
  · obtain ⟨-, -, -, hneq⟩ := operators_read_primitively shelterGraph shelterStore ⟨0, by decide⟩
      ["mentor", "name"]
    obtain ⟨-, hselects⟩ := hneq "null"
    have hnull : (Token.leaf ["mentor", "name"] "eq" (.scalar "null")).Selects shelterStore
        ⟨0, by decide⟩ [("id", .int 3), ("mentor", .int 9)] := ⟨_, rfl, rfl⟩
    refine ⟨hnull, fun h => ?_⟩
    exact (hselects h.accepted (.inr rfl) _).1 h hnull

end Retrieval
