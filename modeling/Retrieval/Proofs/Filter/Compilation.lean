/-
# Filters are compiled leaf by leaf

A leaf of a filter either compares something or is refused, for its path, its operator or its
literal.  Tokens are compiled if and only if none of their leaves is refused; else they are refused
for the reason of the first one.  What they are compiled to means what the tokens say, whatever
groups were dissolved on the way.
-/
import Retrieval.Proofs.Filter.Meaning

namespace Retrieval

/-- A leaf of a filter. -/
structure Leaf where
  path : List String
  operator : String
  value : Literal

namespace Leaf

/-- What a leaf compares on a schema: the attribute at its path by the test that its operator means,
with the value that its literal has for this test and the type of the attribute. -/
inductive Compares (g : Graph) (root : g.Id) (l : Leaf) : Comparison → Prop where
  | intro {p : ResolvedPath g} {c : Conversion} {v : Json} :
    g.resolvePath root l.path = .ok p → Conversion.of l.operator l.value = .ok c →
      c.operand.coerce p c.test = .ok v → Compares g root l ⟨p.segments, c.test, v, c.negated⟩

/-- Why a leaf is refused on a schema. -/
inductive Refused (g : Graph) (root : g.Id) (l : Leaf) : QueryError → Prop where
  | path {e : QueryError} : g.resolvePath root l.path = .error e → Refused g root l e
  | operator {p : ResolvedPath g} {e : QueryError} :
    g.resolvePath root l.path = .ok p → Conversion.of l.operator l.value = .error e →
      Refused g root l e
  | value {p : ResolvedPath g} {c : Conversion} {e : QueryError} :
    g.resolvePath root l.path = .ok p → Conversion.of l.operator l.value = .ok c →
      c.operand.coerce p c.test = .error e → Refused g root l e

/-- Whether a leaf holds, given the values under each path: whether its own comparison does. -/
def Holds (g : Graph) (root : g.Id) (lookup : List String → List Json) (l : Leaf) : Prop :=
  ∃ c, l.Compares g root c ∧ c.holdsOf (lookup c.path) = true

/-- Why the first of several leaves that is refused is refused. -/
inductive FirstRefused (g : Graph) (root : g.Id) : List Leaf → QueryError → Prop where
  | head {l : Leaf} {rest : List Leaf} {e : QueryError} :
    l.Refused g root e → FirstRefused g root (l :: rest) e
  | tail {l : Leaf} {rest : List Leaf} {e : QueryError} :
    (∀ e', ¬ l.Refused g root e') → FirstRefused g root rest e → FirstRefused g root (l :: rest) e

variable {g : Graph} {root : g.Id} {l : Leaf} {e : QueryError}

lemma compares_iff {c : Comparison} :
    l.Compares g root c ↔ g.compileLeaf root l.path l.operator l.value = .ok c := by
  simp only [Graph.compileLeaf, bind_eq_ok_iff]
  constructor
  · rintro ⟨hp, hc, hv⟩
    exact ⟨_, hp, _, hc, _, hv, rfl⟩
  · rintro ⟨p, hp, c, hc, v, hv, ⟨⟩⟩
    exact ⟨hp, hc, hv⟩

lemma refused_iff : l.Refused g root e ↔ g.compileLeaf root l.path l.operator l.value = .error e := by
  simp only [Graph.compileLeaf, bind_eq_error_iff]
  constructor
  · rintro (hp | ⟨hp, hc⟩ | ⟨hp, hc, hv⟩)
    · exact .inl hp
    · exact .inr ⟨_, hp, .inl hc⟩
    · exact .inr ⟨_, hp, .inr ⟨_, hc, .inl hv⟩⟩
  · rintro (hp | ⟨p, hp, hc | ⟨c, hc, hv | ⟨v, hv, ⟨⟩⟩⟩⟩)
    · exact .path hp
    · exact .operator hp hc
    · exact .value hp hc hv

/-- A leaf compares only one thing. -/
lemma holds_iff {lookup : List String → List Json} {c : Comparison} (h : l.Compares g root c) :
    l.Holds g root lookup ↔ c.holdsOf (lookup c.path) = true := by
  constructor
  · rintro ⟨c', hc', hholds⟩
    obtain rfl : c' = c := Except.ok.inj ((compares_iff.1 hc').symm.trans (compares_iff.1 h))
    exact hholds
  · intro hholds
    exact ⟨c, h, hholds⟩

@[simp] lemma not_firstRefused_nil : ¬ FirstRefused g root [] e := nofun

lemma firstRefused_cons {rest : List Leaf} :
    FirstRefused g root (l :: rest) e ↔
      l.Refused g root e ∨ (∀ e', ¬ l.Refused g root e') ∧ FirstRefused g root rest e := by
  constructor
  · rintro (hl | ⟨hl, hrest⟩)
    · exact .inl hl
    · exact .inr ⟨hl, hrest⟩
  · rintro (hl | ⟨hl, hrest⟩)
    · exact .head hl
    · exact .tail hl hrest

/-- The first one of the leaves of two lists is that of the first list, if this has one. -/
lemma firstRefused_append {ls ms : List Leaf} :
    FirstRefused g root (ls ++ ms) e ↔
      FirstRefused g root ls e ∨
        (∀ l ∈ ls, ∀ e', ¬ l.Refused g root e') ∧ FirstRefused g root ms e := by
  induction ls with
  | nil => simp
  | cons l ls ih =>
    rw [List.cons_append, firstRefused_cons, firstRefused_cons, ih, List.forall_mem_cons]
    tauto

/-- If none is the first one that is refused, then none is refused. -/
lemma forall_not_firstRefused_iff {ls : List Leaf} :
    (∀ e, ¬ FirstRefused g root ls e) ↔ ∀ l ∈ ls, ∀ e, ¬ l.Refused g root e := by
  induction ls with
  | nil => simp
  | cons l ls ih =>
    simp only [firstRefused_cons, List.forall_mem_cons, ← ih]
    constructor
    · intro h
      have hl : ∀ e, ¬ l.Refused g root e := fun e he => h e (.inl he)
      exact ⟨hl, fun e he => h e (.inr ⟨hl, he⟩)⟩
    · rintro ⟨hl, hls⟩ e (he | ⟨-, he⟩)
      · exact hl e he
      · exact hls e he

end Leaf

namespace Token

mutual

/-- The leaves of a token from left to right. -/
def leaves : Token → List Leaf
  | .leaf path operator value => [⟨path, operator, value⟩]
  | .group _ children => leavesOf children

/-- The leaves of tokens from left to right. -/
def leavesOf : List Token → List Leaf
  | [] => []
  | t :: rest => t.leaves ++ leavesOf rest

end

/-- What a token says, if leaves hold as `leafHolds` says: an and-group that all of its children
hold, an or-group that some child does, and a not-group that not all of them do. -/
def Holds (leafHolds : Leaf → Prop) : Token → Prop
  | .leaf path operator value => leafHolds ⟨path, operator, value⟩
  | .group .and children => ∀ t ∈ children, t.Holds leafHolds
  | .group .or children => ∃ t, ∃ _ : t ∈ children, t.Holds leafHolds
  | .group .not children => ¬ ∀ t ∈ children, t.Holds leafHolds

end Token

namespace Graph

variable {g : Graph} {root : g.Id}

/-! ### Refusals -/

mutual

lemma compileToken_eq_error_iff (t : Token) {e : QueryError} :
    g.compileToken root t = .error e ↔ Leaf.FirstRefused g root t.leaves e := by
  cases t with
  | leaf path operator value =>
    rw [compileToken, Token.leaves, bind_eq_error_iff, Leaf.firstRefused_cons, Leaf.refused_iff]
    simp
  | group c children =>
    rw [compileToken, Token.leaves, bind_eq_error_iff, compileTokens_eq_error_iff children]
    simp

/-- Tokens are refused for the reason of the first of their leaves that is. -/
lemma compileTokens_eq_error_iff (ts : List Token) {e : QueryError} :
    g.compileTokens root ts = .error e ↔ Leaf.FirstRefused g root (Token.leavesOf ts) e := by
  match ts with
  | [] => simp [compileTokens, Token.leavesOf]
  | t :: rest =>
    have hok : (∃ p, g.compileToken root t = .ok p) ↔
        ∀ l ∈ t.leaves, ∀ e', ¬ l.Refused g root e' := by
      rw [exists_eq_ok_iff, ← Leaf.forall_not_firstRefused_iff]
      exact forall_congr' fun e' => not_congr (compileToken_eq_error_iff t)
    rw [compileTokens, Token.leavesOf, bind_eq_error_iff, Leaf.firstRefused_append,
      ← compileToken_eq_error_iff t, ← hok, ← compileTokens_eq_error_iff rest]
    simp [bind_eq_error_iff]

end

/-! ### Meaning -/

variable (lookup : List String → List Json)

mutual

lemma holds_of_compileToken (t : Token) {p : Predicate} (h : g.compileToken root t = .ok p) :
    p.holds lookup = true ↔ t.Holds (Leaf.Holds g root lookup) := by
  cases t with
  | leaf path operator value =>
    rw [compileToken] at h
    obtain ⟨c, hc, h⟩ := bind_eq_ok_iff.1 h
    cases h
    have hcompares : Leaf.Compares g root ⟨path, operator, value⟩ c := Leaf.compares_iff.2 hc
    rw [Token.Holds, Leaf.holds_iff hcompares, Predicate.holds]
  | group c children =>
    rw [compileToken] at h
    obtain ⟨ps, hps, h⟩ := bind_eq_ok_iff.1 h
    cases h
    obtain ⟨hall, hsome⟩ := holds_of_compileTokens children hps
    -- the connectives dissolve groups, but not what they mean
    cases c with
    | and => rw [joinParts, Predicate.holds_all, hall, Token.Holds]
    | or => rw [joinParts, Predicate.holds_any, hsome, Token.Holds]; simp
    | not => rw [joinParts, Predicate.holds_not, Bool.not_eq_true', ← Bool.not_eq_true,
        Predicate.holds_all, hall, Token.Holds]

lemma holds_of_compileTokens (ts : List Token) {ps : List Predicate}
    (h : g.compileTokens root ts = .ok ps) :
    (Predicate.allHold lookup ps = true ↔ ∀ t ∈ ts, t.Holds (Leaf.Holds g root lookup)) ∧
      (Predicate.someHolds lookup ps = true ↔ ∃ t ∈ ts, t.Holds (Leaf.Holds g root lookup)) := by
  match ts with
  | [] =>
    rw [compileTokens] at h
    cases h
    simp
  | t :: rest =>
    obtain ⟨p, qs, hp, hqs, rfl⟩ := compileTokens_cons_eq_ok_iff.1 h
    have ht := holds_of_compileToken t hp
    obtain ⟨hall, hsome⟩ := holds_of_compileTokens rest hqs
    rw [Predicate.allHold_cons, Predicate.someHolds_cons, Bool.and_eq_true, Bool.or_eq_true, ht,
      hall, hsome]
    simp

end

end Graph

/-- **Filters are compiled leaf by leaf.**  Tokens are refused if and only if one of their leaves is,
and then for the reason of the first one from left to right.  Otherwise they are compiled to a
predicate that holds if and only if all tokens hold as they are written, whatever values there are
under the paths. -/
theorem compile_leaf_by_leaf (g : Graph) (root : g.Id) (tokens : List Token) :
    (∀ e, g.compile root tokens = .error e ↔
      Leaf.FirstRefused g root (Token.leavesOf tokens) e) ∧
    ((∀ l ∈ Token.leavesOf tokens, ∀ e, ¬ l.Refused g root e) ↔
      ∃ p, g.compile root tokens = .ok p ∧ ∀ lookup,
        (p.holds lookup = true ↔ ∀ t ∈ tokens, t.Holds (Leaf.Holds g root lookup))) := by
  have herror : ∀ e, g.compile root tokens = .error e ↔
      Leaf.FirstRefused g root (Token.leavesOf tokens) e := by
    intro e
    rw [Graph.compile, bind_eq_error_iff, Graph.compileTokens_eq_error_iff]
    simp
  have hok : (∃ p, g.compile root tokens = .ok p) ↔
      ∀ l ∈ Token.leavesOf tokens, ∀ e, ¬ l.Refused g root e := by
    rw [exists_eq_ok_iff, ← Leaf.forall_not_firstRefused_iff]
    exact forall_congr' fun e => not_congr (herror e)
  refine ⟨herror, ?_⟩
  rw [← hok]
  refine exists_congr fun p => (and_iff_left_of_imp fun hp lookup => ?_).symm
  obtain ⟨ps, hps, h⟩ := bind_eq_ok_iff.1 hp
  cases h
  rw [Predicate.holds_all]
  exact (Graph.holds_of_compileTokens lookup tokens hps).1

end Retrieval
