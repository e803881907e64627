/-
# What compiled filters mean

The constructors of conjunctions and disjunctions dissolve what they can, but not what a predicate
means: a conjunction holds if all of its parts do, a disjunction if some part does.  A filter is
accepted if its tokens are compiled one by one, and it means all of them together.
-/
import Retrieval.Filter.Compile
import Retrieval.Proofs.Filter.Spelling
import Retrieval.Store.Evaluate

namespace Retrieval

/-- A comparison asks whether some value passes its test.  Only the test for null is also passed where
there is no value. -/
lemma Comparison.holdsOf_eq_any {c : Comparison} (h : c.test ≠ .isNull) (values : List Json) :
    c.holdsOf values = (values.any (c.test.passes · c.value) != c.negated) := by
  obtain ⟨path, test, value, negated⟩ := c
  cases test with
  | isNull => exact absurd rfl h
  | _ => rfl

namespace Predicate

variable (lookup : List String → List Json)

@[simp] lemma holds_and (ps : List Predicate) : holds lookup (.and ps) = allHold lookup ps := by
  rw [holds]

@[simp] lemma holds_or (ps : List Predicate) : holds lookup (.or ps) = someHolds lookup ps := by
  rw [holds]

@[simp] lemma holds_not (p : Predicate) : holds lookup (.not p) = !holds lookup p := by
  rw [holds]

@[simp] lemma allHold_nil : allHold lookup [] = true := by rw [allHold]

@[simp] lemma allHold_cons (p : Predicate) (ps : List Predicate) :
    allHold lookup (p :: ps) = (holds lookup p && allHold lookup ps) := by rw [allHold]

@[simp] lemma someHolds_nil : someHolds lookup [] = false := by rw [someHolds]

@[simp] lemma someHolds_cons (p : Predicate) (ps : List Predicate) :
    someHolds lookup (p :: ps) = (holds lookup p || someHolds lookup ps) := by rw [someHolds]

@[simp] lemma allHold_append (ps qs : List Predicate) :
    allHold lookup (ps ++ qs) = (allHold lookup ps && allHold lookup qs) := by
  induction ps with
  | nil => simp
  | cons p ps ih => simp [ih, Bool.and_assoc]

@[simp] lemma someHolds_append (ps qs : List Predicate) :
    someHolds lookup (ps ++ qs) = (someHolds lookup ps || someHolds lookup qs) := by
  induction ps with
  | nil => simp
  | cons p ps ih => simp [ih, Bool.or_assoc]

lemma allHold_conjuncts (p : Predicate) : allHold lookup p.conjuncts = holds lookup p := by
  cases p <;> simp [conjuncts]

lemma someHolds_disjuncts (p : Predicate) : someHolds lookup p.disjuncts = holds lookup p := by
  cases p <;> simp [disjuncts]

/-- A conjunction holds if all of the joined predicates do. -/
lemma holds_all (ps : List Predicate) : holds lookup (all ps) = allHold lookup ps := by
  have hflat : allHold lookup (ps.flatMap conjuncts) = allHold lookup ps := by
    induction ps with
    | nil => simp
    | cons p ps ih => simp [allHold_conjuncts, ih]
  rw [all, ← hflat]
  -- a single conjunct stands for itself
  split
  · next only h => simp [h]
  · simp

/-- A disjunction holds if some of the joined predicates does. -/
lemma holds_any (ps : List Predicate) : holds lookup (any ps) = someHolds lookup ps := by
  have hflat : someHolds lookup (ps.flatMap disjuncts) = someHolds lookup ps := by
    induction ps with
    | nil => simp
    | cons p ps ih => simp [someHolds_disjuncts, ih]
  rw [any, ← hflat]
  -- a single disjunct stands for itself
  split
  · next only h => simp [h]
  · simp

end Predicate

/-! ### Compilation -/

namespace Graph

variable {g : Graph} {root : g.Id}

lemma compileTokens_cons_eq_ok_iff {t : Token} {ts : List Token} {parts : List Predicate} :
    g.compileTokens root (t :: ts) = .ok parts ↔
      ∃ p ps, g.compileToken root t = .ok p ∧ g.compileTokens root ts = .ok ps ∧
        parts = p :: ps := by
  rw [compileTokens]
  simp only [bind_eq_ok_iff, Except.ok.injEq, eq_comm (a := parts)]
  constructor
  · rintro ⟨p, hp, ps, hps, h⟩
    exact ⟨p, ps, hp, hps, h⟩
  · rintro ⟨p, ps, hp, hps, h⟩
    exact ⟨p, hp, ps, hps, h⟩

lemma compileTokens_append {ts us : List Token} {ps qs : List Predicate}
    (hp : g.compileTokens root ts = .ok ps) (hq : g.compileTokens root us = .ok qs) :
    g.compileTokens root (ts ++ us) = .ok (ps ++ qs) := by
  induction ts generalizing ps with
  | nil =>
    rw [compileTokens] at hp
    cases hp
    exact hq
  | cons t ts ih =>
    obtain ⟨p, rest, ht, hrest, rfl⟩ := compileTokens_cons_eq_ok_iff.1 hp
    exact compileTokens_cons_eq_ok_iff.2 ⟨p, rest ++ qs, ht, ih hrest, rfl⟩

lemma compileTokens_group {ts : List Token} {ps : List Predicate}
    (h : g.compileTokens root ts = .ok ps) (c : Connective) :
    g.compileTokens root [.group c ts] = .ok [joinParts c ps] := by
  refine compileTokens_cons_eq_ok_iff.2 ⟨_, [], ?_, by rw [compileTokens], rfl⟩
  rw [compileToken, h]
  rfl

/-- A filter is accepted for a schema if it spells tokens that are compiled there. -/
lemma compileFilter_eq_ok_iff {schema filter : String} {p : Predicate} :
    g.compileFilter schema filter = .ok p ↔
      ∃ i ts ps, g.find? schema = some i ∧ Text.isBlankText filter = false ∧
        Spells filter.toList ts ∧ g.compileTokens i ts = .ok ps ∧ p = .all ps := by
  simp only [compileFilter, compile, queried, bind_eq_ok_iff, readFilter_eq_ok_iff]
  cases g.find? schema with
  | none => simp
  | some i =>
    constructor
    · rintro ⟨_, ⟨⟩, ts, ⟨hblank, hts⟩, ps, hps, ⟨⟩⟩
      exact ⟨i, ts, ps, rfl, hblank, hts, hps, rfl⟩
    · rintro ⟨_, ts, ps, ⟨⟩, hblank, hts, hps, rfl⟩
      exact ⟨i, rfl, ts, ⟨hblank, hts⟩, ps, hps, rfl⟩

end Graph

end Retrieval
