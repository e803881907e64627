/-
# Compiled predicates are in normal form

Compilation leaves no conjunction directly in a conjunction, no disjunction directly in a disjunction
and neither with a single part, and it keeps the comparison of every leaf in its place.  So groups
without leaves may be dissolved into a truth value; whether they are can be told from the tokens.
-/
import Retrieval.Proofs.Filter.Compilation

namespace Retrieval

namespace Predicate

variable {p : Predicate}

/-- The group of several parts, or the only one of them. -/
def grouped (group : List Predicate → Predicate) : List Predicate → Predicate
  | [only] => only
  | parts => group parts

lemma all_eq_grouped (ps : List Predicate) : all ps = grouped .and (ps.flatMap conjuncts) := by
  rw [all]
  split
  · next only honly => rw [honly, grouped]
  · next hmany => rw [grouped]; exact hmany

lemma any_eq_grouped (ps : List Predicate) : any ps = grouped .or (ps.flatMap disjuncts) := by
  rw [any]
  split
  · next only honly => rw [honly, grouped]
  · next hmany => rw [grouped]; exact hmany

/-! ### Normal form -/

/-- Whether a predicate is in normal form at every level. -/
inductive Normal : Predicate → Prop where
  | compare (c : Comparison) : Normal (.compare c)
  | and {parts : List Predicate} : parts.length ≠ 1 → (∀ p ∈ parts, p.Normal) →
    (∀ qs, .and qs ∉ parts) → Normal (.and parts)
  | or {parts : List Predicate} : parts.length ≠ 1 → (∀ p ∈ parts, p.Normal) →
    (∀ qs, .or qs ∉ parts) → Normal (.or parts)
  | not {part : Predicate} : part.Normal → Normal (.not part)

/-! ### Truth values -/

/-- The truth value that a predicate is, as it is written. -/
def constant? : Predicate → Option Bool
  | .and [] => some true
  | .or [] => some false
  | _ => none

lemma isAlways_iff : p.isAlways = true ↔ p.constant? = some true := by
  cases p with
  | compare | not => simp [isAlways, constant?]
  | and parts | or parts => cases parts <;> simp [isAlways, constant?]

/-! ### Comparisons -/

lemma comparisonsOf_append (ps qs : List Predicate) :
    comparisonsOf (ps ++ qs) = comparisonsOf ps ++ comparisonsOf qs := by
  induction ps with
  | nil => simp [comparisonsOf]
  | cons p ps ih => simp [comparisonsOf, ih]

lemma comparisonsOf_flatMap {parts : Predicate → List Predicate}
    (h : ∀ p, comparisonsOf (parts p) = p.comparisons) (ps : List Predicate) :
    comparisonsOf (ps.flatMap parts) = comparisonsOf ps := by
  induction ps with
  | nil => rfl
  | cons p ps ih => rw [List.flatMap_cons, comparisonsOf_append, h, ih, comparisonsOf]

end Predicate

/-- What a group is dissolved into, if `neutral` makes no difference in it and its children are
dissolved into `children`: the neutral value if all of them are dissolved into it, else what the only
other one is dissolved into. -/
def Token.residue (neutral : Bool) (children : List (Option Bool)) : Option Bool :=
  match children.filter (· ≠ some neutral) with
  | [] => some neutral
  | [only] => only
  | _ => none

namespace Predicate

variable {p : Predicate} {ps : List Predicate}

/-- What a predicate brings into a group is nothing, itself, or several parts. -/
inductive Brings (neutral : Bool) (p : Predicate) : List Predicate → Prop where
  | nothing : p.constant? = some neutral → Brings neutral p []
  | itself : p.constant? ≠ some neutral → Brings neutral p [p]
  | several {q r : Predicate} {rest : List Predicate} :
    p.constant? = none → Brings neutral p (q :: r :: rest)

lemma Brings.eq_nil {neutral : Bool} {qs : List Predicate} (h : p.Brings neutral qs)
    (hp : p.constant? = some neutral) : qs = [] := by
  cases h with
  | nothing => rfl
  | itself hother => exact absurd hp hother
  | several hnone => rw [hnone] at hp; cases hp

lemma Brings.ne_nil {neutral : Bool} {qs : List Predicate} (h : p.Brings neutral qs)
    (hp : p.constant? ≠ some neutral) : ∃ q rest, qs = q :: rest := by
  cases h with
  | nothing hneutral => exact absurd hneutral hp
  | itself => exact ⟨p, [], rfl⟩
  | several => exact ⟨_, _, rfl⟩

/-! ### Conjunctions and disjunctions -/

/-- What conjunctions and disjunctions have in common: `group` joins parts, which `parts` takes apart
again, and every other predicate is a part as a whole.  A group without parts is the truth value
`neutral`. -/
structure Joins (neutral : Bool) (group : List Predicate → Predicate)
    (parts : Predicate → List Predicate) : Prop where
  parts_group : ∀ ps, parts (group ps) = ps
  parts_other : ∀ p, (∀ ps, p ≠ group ps) → parts p = [p]
  normal_iff : ∀ ps, (group ps).Normal ↔
    ps.length ≠ 1 ∧ (∀ p ∈ ps, p.Normal) ∧ ∀ qs, group qs ∉ ps
  comparisons_group : ∀ ps, (group ps).comparisons = comparisonsOf ps
  constant?_nil : (group []).constant? = some neutral
  constant?_many : ∀ p q rest, (group (p :: q :: rest)).constant? = none
  constant?_other : ∀ p, (∀ ps, p ≠ group ps) → p.constant? ≠ some neutral

lemma joins_and : Joins true .and conjuncts where
  parts_group _ := rfl
  parts_other p h := by
    cases p with
    | and parts => exact absurd rfl (h parts)
    | compare | or | not => rfl
  normal_iff ps := by
    constructor
    · rintro (_ | ⟨hlength, hparts, hflat⟩)
      exact ⟨hlength, hparts, hflat⟩
    · rintro ⟨hlength, hparts, hflat⟩
      exact .and hlength hparts hflat
  comparisons_group _ := by rw [comparisons]
  constant?_nil := rfl
  constant?_many _ _ _ := rfl
  constant?_other p h := by
    match p with
    | .and parts => exact absurd rfl (h parts)
    | .or [] | .or (_ :: _) | .compare _ | .not _ => simp [constant?]

lemma joins_or : Joins false .or disjuncts where
  parts_group _ := rfl
  parts_other p h := by
    cases p with
    | or parts => exact absurd rfl (h parts)
    | compare | and | not => rfl
  normal_iff ps := by
    constructor
    · rintro (_ | _ | ⟨hlength, hparts, hflat⟩)
      exact ⟨hlength, hparts, hflat⟩
    · rintro ⟨hlength, hparts, hflat⟩
      exact .or hlength hparts hflat
  comparisons_group _ := by rw [comparisons]
  constant?_nil := rfl
  constant?_many _ _ _ := rfl
  constant?_other p h := by
    match p with
    | .or parts => exact absurd rfl (h parts)
    | .and [] | .and (_ :: _) | .compare _ | .not _ => simp [constant?]

namespace Joins

variable {neutral : Bool} {group : List Predicate → Predicate}
  {parts : Predicate → List Predicate} {q : Predicate}

/-- A predicate is a group, or it is a part as a whole. -/
lemma eq_group_or (h : Joins neutral group parts) (p : Predicate) :
    (∃ ps, p = group ps ∧ parts p = ps) ∨ (∀ ps, p ≠ group ps) ∧ parts p = [p] := by
  by_cases hgroup : ∃ ps, p = group ps
  · obtain ⟨ps, rfl⟩ := hgroup
    exact .inl ⟨ps, rfl, h.parts_group ps⟩
  · have hother : ∀ ps, p ≠ group ps := fun ps hps => hgroup ⟨ps, hps⟩
    exact .inr ⟨hother, h.parts_other p hother⟩

lemma of_mem_parts (h : Joins neutral group parts) (hp : p.Normal) (hq : q ∈ parts p) :
    q.Normal ∧ ∀ qs, q ≠ group qs := by
  obtain ⟨ps, rfl, hps⟩ | ⟨hother, hself⟩ := h.eq_group_or p
  · rw [hps] at hq
    obtain ⟨-, hparts, hflat⟩ := (h.normal_iff ps).1 hp
    exact ⟨hparts q hq, fun qs hqs => hflat qs (hqs ▸ hq)⟩
  · rw [hself, List.mem_singleton] at hq
    subst hq
    exact ⟨hp, hother⟩

/-- A group is not made of a single part, which stands for itself. -/
lemma normal_grouped (h : Joins neutral group parts) (hps : ∀ p ∈ ps, p.Normal) :
    (grouped group (ps.flatMap parts)).Normal := by
  have hparts : ∀ q ∈ ps.flatMap parts, q.Normal ∧ ∀ qs, q ≠ group qs :=
    List.forall_mem_flatMap.2 fun p hp q hq => h.of_mem_parts (hps p hp) hq
  generalize ps.flatMap parts = qs at hparts ⊢
  have hgroup : qs.length ≠ 1 → (group qs).Normal := fun hlength =>
    (h.normal_iff qs).2
      ⟨hlength, fun q hq => (hparts q hq).1, fun rs hrs => (hparts _ hrs).2 rs rfl⟩
  match qs with
  | [] => exact hgroup (by simp)
  | [only] => exact (hparts only (by simp)).1
  | p :: q :: rest => exact hgroup (by simp)

/-- A group keeps the comparisons of what it joins. -/
lemma comparisons_grouped (h : Joins neutral group parts) (ps : List Predicate) :
    (grouped group (ps.flatMap parts)).comparisons = comparisonsOf ps := by
  have hparts : ∀ p, comparisonsOf (parts p) = p.comparisons := by
    intro p
    obtain ⟨ps, rfl, hps⟩ | ⟨-, hself⟩ := h.eq_group_or p
    · rw [hps, h.comparisons_group]
    · simp [hself, comparisonsOf]
  rw [← comparisonsOf_flatMap hparts]
  match ps.flatMap parts with
  | [] => exact h.comparisons_group []
  | [only] => simp [grouped, comparisonsOf]
  | p :: q :: rest => exact h.comparisons_group _

lemma brings (h : Joins neutral group parts) (hp : p.Normal) : p.Brings neutral (parts p) := by
  obtain ⟨ps, rfl, hps⟩ | ⟨hother, hself⟩ := h.eq_group_or p
  · rw [hps]
    match ps with
    | [] => exact .nothing h.constant?_nil
    | [_] => exact absurd rfl ((h.normal_iff _).1 hp).1
    | _ :: _ :: _ => exact .several (h.constant?_many ..)
  · rw [hself]
    exact .itself (h.constant?_other p hother)

/-- A group is a truth value if nothing else is left of what it joins. -/
lemma constant?_grouped (h : Joins neutral group parts) (hps : ∀ p ∈ ps, p.Normal) :
    (grouped group (ps.flatMap parts)).constant? = Token.residue neutral (ps.map constant?) := by
  have hparts : ∀ p ∈ ps, p.Brings neutral (parts p) := fun p hp => h.brings (hps p hp)
  clear hps
  -- what is dissolved into the neutral value counts on neither side
  have hflat : ps.flatMap parts = (ps.filter (·.constant? ≠ some neutral)).flatMap parts := by
    induction ps with
    | nil => rfl
    | cons p ps ih =>
      have hrest := ih fun q hq => hparts q (List.mem_cons_of_mem _ hq)
      have hp := hparts p List.mem_cons_self
      by_cases hneutral : p.constant? = some neutral
      · simp [hneutral, hrest, hp.eq_nil hneutral]
      · simp [hneutral, hrest]
  have hvalues : (ps.map constant?).filter (· ≠ some neutral) =
      (ps.filter (·.constant? ≠ some neutral)).map constant? := List.filter_map
  have hkept : ∀ p ∈ ps.filter (·.constant? ≠ some neutral),
      p.Brings neutral (parts p) ∧ p.constant? ≠ some neutral := by
    intro p hp
    rw [List.mem_filter] at hp
    exact ⟨hparts p hp.1, by simpa using hp.2⟩
  rw [Token.residue, hvalues, hflat]
  generalize ps.filter (·.constant? ≠ some neutral) = kept at hkept ⊢
  match kept with
  | [] => exact h.constant?_nil
  | [p] =>
    obtain ⟨hp, hother⟩ := hkept p (by simp)
    rw [List.flatMap_singleton]
    generalize parts p = qs at hp
    cases hp with
    | nothing hneutral => exact absurd hneutral hother
    | itself => rfl
    | several hp => exact (h.constant?_many _ _ _).trans hp.symm
  | p :: q :: rest =>
    obtain ⟨hp, hpother⟩ := hkept p (by simp)
    obtain ⟨hq, hqother⟩ := hkept q (by simp)
    obtain ⟨_, ps', hp⟩ := hp.ne_nil hpother
    obtain ⟨_, _, hq⟩ := hq.ne_nil hqother
    rw [List.flatMap_cons, List.flatMap_cons, hp, hq]
    cases ps' with
    | nil => exact h.constant?_many _ _ _
    | cons => exact h.constant?_many _ _ _

end Joins

lemma normal_all (h : ∀ p ∈ ps, p.Normal) : (all ps).Normal := by
  rw [all_eq_grouped]
  exact joins_and.normal_grouped h

lemma normal_any (h : ∀ p ∈ ps, p.Normal) : (any ps).Normal := by
  rw [any_eq_grouped]
  exact joins_or.normal_grouped h

lemma comparisons_all (ps : List Predicate) : (all ps).comparisons = comparisonsOf ps := by
  rw [all_eq_grouped, joins_and.comparisons_grouped]

lemma comparisons_any (ps : List Predicate) : (any ps).comparisons = comparisonsOf ps := by
  rw [any_eq_grouped, joins_or.comparisons_grouped]

lemma constant?_all (h : ∀ p ∈ ps, p.Normal) :
    (all ps).constant? = Token.residue true (ps.map constant?) := by
  rw [all_eq_grouped, joins_and.constant?_grouped h]

lemma constant?_any (h : ∀ p ∈ ps, p.Normal) :
    (any ps).constant? = Token.residue false (ps.map constant?) := by
  rw [any_eq_grouped, joins_or.constant?_grouped h]

end Predicate

/-! ### Compilation -/

namespace Token

mutual

/-- The truth value that a token is dissolved into, if nothing else is left of it. -/
def dissolved? : Token → Option Bool
  | .leaf .. => none
  | .group .and children => residue true (dissolvedAll children)
  | .group .or children => residue false (dissolvedAll children)
  | .group .not _ => none

/-- What tokens are dissolved into one by one. -/
def dissolvedAll : List Token → List (Option Bool)
  | [] => []
  | t :: rest => t.dissolved? :: dissolvedAll rest

end

lemma dissolvedAll_eq_map (ts : List Token) : dissolvedAll ts = ts.map dissolved? := by
  induction ts with
  | nil => rfl
  | cons t ts ih => rw [dissolvedAll, ih, List.map_cons]

/-- A group is dissolved into its neutral value only if each of its children is. -/
lemma residue_eq_neutral_iff {neutral : Bool} {children : List (Option Bool)} :
    residue neutral children = some neutral ↔ ∀ v ∈ children, v = some neutral := by
  have hall : children.filter (· ≠ some neutral) = [] ↔ ∀ v ∈ children, v = some neutral := by
    simp [List.filter_eq_nil_iff]
  have hother : ∀ v ∈ children.filter (· ≠ some neutral), v ≠ some neutral :=
    fun v hv => by simpa using (List.mem_filter.1 hv).2
  rw [← hall, residue]
  generalize children.filter (· ≠ some neutral) = others at hother ⊢
  match others with
  | [] => simp
  | [only] => simpa using hother only (by simp)
  | _ :: _ :: _ => simp

end Token

namespace Graph

variable {g : Graph} {root : g.Id}

mutual

lemma normal_of_compileToken (t : Token) {p : Predicate} (h : g.compileToken root t = .ok p) :
    p.Normal ∧ p.constant? = t.dissolved? ∧
      List.Forall₂ (Leaf.Compares g root) t.leaves p.comparisons := by
  cases t with
  | leaf path operator value =>
    rw [compileToken] at h
    obtain ⟨c, hc, h⟩ := bind_eq_ok_iff.1 h
    cases h
    rw [Token.leaves, Predicate.comparisons]
    exact ⟨.compare c, by rw [Token.dissolved?]; rfl, .cons (Leaf.compares_iff.2 hc) .nil⟩
  | group c children =>
    rw [compileToken] at h
    obtain ⟨ps, hps, h⟩ := bind_eq_ok_iff.1 h
    cases h
    obtain ⟨hnormal, hconstant, hcompares⟩ := normal_of_compileTokens children hps
    rw [Token.leaves]
    cases c with
    | and =>
      refine ⟨Predicate.normal_all hnormal, ?_, ?_⟩
      · rw [joinParts, Predicate.constant?_all hnormal, hconstant, Token.dissolved?]
      · rwa [joinParts, Predicate.comparisons_all]
    | or =>
      refine ⟨Predicate.normal_any hnormal, ?_, ?_⟩
      · rw [joinParts, Predicate.constant?_any hnormal, hconstant, Token.dissolved?]
      · rwa [joinParts, Predicate.comparisons_any]
    | not =>
      refine ⟨.not (Predicate.normal_all hnormal), ?_, ?_⟩
      · rw [Token.dissolved?]
        rfl
      · rwa [joinParts, Predicate.comparisons, Predicate.comparisons_all]

/-- Tokens are compiled to predicates in normal form, which are truth values where the tokens are
dissolved, and compare what the leaves compare. -/
lemma normal_of_compileTokens (ts : List Token) {ps : List Predicate}
    (h : g.compileTokens root ts = .ok ps) :
    (∀ p ∈ ps, p.Normal) ∧ ps.map Predicate.constant? = Token.dissolvedAll ts ∧
      List.Forall₂ (Leaf.Compares g root) (Token.leavesOf ts) (Predicate.comparisonsOf ps) := by
  match ts with
  | [] =>
    rw [compileTokens] at h
    cases h
    exact ⟨nofun, by rw [Token.dissolvedAll]; rfl, by
      rw [Token.leavesOf, Predicate.comparisonsOf]; exact .nil⟩
  | t :: rest =>
    obtain ⟨p, qs, hp, hqs, rfl⟩ := compileTokens_cons_eq_ok_iff.1 h
    obtain ⟨hp, hconstant, hcompares⟩ := normal_of_compileToken t hp
    obtain ⟨hqs, hconstants, hrest⟩ := normal_of_compileTokens rest hqs
    refine ⟨List.forall_mem_cons.2 ⟨hp, hqs⟩, ?_, ?_⟩
    · rw [List.map_cons, hconstant, hconstants, Token.dissolvedAll]
    · rw [Token.leavesOf, Predicate.comparisonsOf]
      exact List.rel_append hcompares hrest

end

/-- The comparisons of a compiled filter are those of its leaves. -/
lemma compares_of_compile {tokens : List Token} {p : Predicate}
    (h : g.compile root tokens = .ok p) :
    List.Forall₂ (Leaf.Compares g root) (Token.leavesOf tokens) p.comparisons := by
  obtain ⟨ps, hps, h⟩ := bind_eq_ok_iff.1 h
  cases h
  rw [Predicate.comparisons_all]
  exact (normal_of_compileTokens tokens hps).2.2

end Graph

/-- **Compiled filters are in normal form and keep their leaves.**  What tokens are compiled to has
at no level a conjunction as a part of a conjunction, a disjunction as a part of a disjunction, or a
single part of either.  Its comparisons from left to right are those of the leaves from left to
right, one for each. -/
theorem compile_normal_form {g : Graph} {root : g.Id} {tokens : List Token} {p : Predicate}
    (h : g.compile root tokens = .ok p) :
    p.Normal ∧ List.Forall₂ (Leaf.Compares g root) (Token.leavesOf tokens) p.comparisons := by
  refine ⟨?_, Graph.compares_of_compile h⟩
  obtain ⟨ps, hps, h⟩ := bind_eq_ok_iff.1 h
  cases h
  exact Predicate.normal_all (Graph.normal_of_compileTokens tokens hps).1

/-- A graph of one schema with a number and a text. -/
def labelGraph : Graph :=
  ⟨1, #v[⟨"Label", none, "id", [⟨"id", .scalar .int⟩, ⟨"text", .scalar .string⟩]⟩]⟩

/-- A conjunction behind a disjunction of its own, an empty group, and a negated single leaf. -/
def nestedTokens : List Token :=
  [.group .or [.group .and [.leaf ["pk"] "gt" (.scalar "1"), .leaf ["id"] "lt" (.scalar "9")]],
    .group .and [.group .or []],
    .group .not [.group .and [.leaf ["text"] "neq" (.scalar "a")]]]

theorem compile_normal_form_nested :
    ∃ p, labelGraph.compile ⟨0, by decide⟩ nestedTokens = .ok p ∧ p.Normal ∧
      p.display = "AND(id gt 1, id lt 9, OR(), NOT(text not exact \"a\"))" ∧
      List.Forall₂ (Leaf.Compares labelGraph ⟨0, by decide⟩) (Token.leavesOf nestedTokens)
        p.comparisons := by
  have hp : labelGraph.compile ⟨0, by decide⟩ nestedTokens =
      .ok (.and [.compare ⟨["id"], .greater, .int 1, false⟩,
        .compare ⟨["id"], .less, .int 9, false⟩, .or [],
        .not (.compare ⟨["text"], .equal, .string "a", true⟩)]) := rfl
  obtain ⟨hnormal, hcompares⟩ := compile_normal_form hp
  exact ⟨_, hp, hnormal, rfl, hcompares⟩

end Retrieval
