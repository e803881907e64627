/-
# Results that can be refusals

What it means that a chain of steps, each of which may be refused, comes to a result.
-/
import Mathlib.Data.List.Forall2

namespace Retrieval

variable {ε α β : Type}

/-- Two steps come to a result if the first one does and the second one does from there. -/
lemma bind_eq_ok_iff {r : Except ε α} {f : α → Except ε β} {b : β} :
    (r >>= f) = .ok b ↔ ∃ a, r = .ok a ∧ f a = .ok b := by
  cases r with
  | error e =>
    constructor
    · intro h
      cases h
    · rintro ⟨_, h, -⟩
      cases h
  | ok a =>
    constructor
    · intro h
      exact ⟨a, rfl, h⟩
    · rintro ⟨_, ⟨⟩, h⟩
      exact h

/-- Two steps are refused if the first one is, or the second one from where the first one leads. -/
lemma bind_eq_error_iff {r : Except ε α} {f : α → Except ε β} {e : ε} :
    (r >>= f) = .error e ↔ r = .error e ∨ ∃ a, r = .ok a ∧ f a = .error e := by
  cases r with
  | error e' =>
    constructor
    · intro h
      exact .inl (by cases h; rfl)
    · rintro (⟨⟨⟩⟩ | ⟨_, h, -⟩)
      · rfl
      · cases h
  | ok a =>
    constructor
    · intro h
      exact .inr ⟨a, rfl, h⟩
    · rintro (h | ⟨_, ⟨⟩, h⟩)
      · cases h
      · exact h

/-- What comes to no result is refused. -/
lemma exists_eq_ok_iff {r : Except ε α} : (∃ a, r = .ok a) ↔ ∀ e, r ≠ .error e := by
  cases r with
  | error e => simp
  | ok a => simp

/-- A step for each member of a list comes to a list of results if every one comes to its own. -/
lemma mapM_eq_ok_iff {f : α → Except ε β} {as : List α} {bs : List β} :
    as.mapM f = .ok bs ↔ List.Forall₂ (fun a b => f a = .ok b) as bs := by
  induction as generalizing bs with
  | nil =>
    rw [List.forall₂_nil_left_iff]
    exact ⟨fun h => by cases h; rfl, fun h => by cases h; rfl⟩
  | cons a as ih =>
    rw [List.mapM_cons, bind_eq_ok_iff, List.forall₂_cons_left_iff]
    constructor
    · rintro ⟨b, hb, h⟩
      obtain ⟨rest, hrest, h⟩ := bind_eq_ok_iff.1 h
      cases h
      exact ⟨b, rest, hb, ih.1 hrest, rfl⟩
    · rintro ⟨b, rest, hb, hrest, rfl⟩
      exact ⟨b, hb, bind_eq_ok_iff.2 ⟨rest, ih.2 hrest, rfl⟩⟩

/-- A step for each member of a vector comes to results if every one comes to its own. -/
lemma vectorMapM_eq_ok_iff {n : Nat} {f : α → Except ε β} {as : Vector α n} {bs : Vector β n} :
    as.mapM f = .ok bs ↔ ∀ i : Fin n, f as[i] = .ok bs[i] := by
  have harray : Vector.toArray <$> as.mapM f = List.toArray <$> as.toList.mapM f := by
    rw [Vector.toArray_mapM, Array.mapM_eq_mapM_toList]
    rfl
  have hlist : (as.mapM f).map Vector.toList = as.toList.mapM f :=
    calc (as.mapM f).map Vector.toList
        = (Vector.toArray <$> as.mapM f).map Array.toList := by cases as.mapM f <;> rfl
      _ = (List.toArray <$> as.toList.mapM f).map Array.toList := by rw [harray]
      _ = as.toList.mapM f := by cases as.toList.mapM f <;> rfl
  have hiff : as.mapM f = .ok bs ↔ as.toList.mapM f = .ok bs.toList := by
    rw [← hlist]
    cases as.mapM f with
    | error e => simp [Except.map]
    | ok cs => simp [Except.map, Vector.toList_inj]
  rw [hiff, mapM_eq_ok_iff, List.forall₂_iff_get]
  constructor
  · rintro ⟨-, h⟩ i
    simpa using h i (by simp) (by simp)
  · intro h
    refine ⟨by simp, fun i hi _ => ?_⟩
    simpa using h ⟨i, by simpa using hi⟩

end Retrieval
