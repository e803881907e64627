/-
# Parameters and their defaults

A configuration is accepted if its values are in their ranges.  A parameter that a request gives is
read on its own, and one that it does not give is as configured: what holds of the values that are
read need not hold of the others.
-/
import Mathlib.Tactic.Lemma
import Retrieval.Parameters

namespace Retrieval

namespace Configuration

variable {c : Configuration} {text : String}

/-- An accepted configuration has pages of some size, a default depth of at most the ceiling, and links
that start at the root. -/
lemma fault?_eq_none_iff :
    c.fault? = none ↔ c.pageSize ≠ 0 ∧ c.defaultMaxLevel ≤ c.maxLevelCeiling ∧
      (c.linkBase.isEmpty = false → c.linkBase.toList.head? = some '/') := by
  rw [fault?]
  split
  · next h => simp [h]
  · next h =>
    split
    · next hlevel => simp [Nat.not_le.2 hlevel]
    · next hlevel => simp [h, Nat.not_lt.1 hlevel]

lemma fault?_eq_none_of_ofText (h : ofText text = .ok c) : c.fault? = none := by
  rw [ofText, ofJson] at h
  split at h
  · cases h
  · split at h
    · cases h
    · next hnone =>
      cases h
      exact hnone

end Configuration

namespace Parameters

variable {p q : Parameters} {key value : String} {n : Nat}

lemma limit?_bounds (h : limit? value = some n) : 1 ≤ n ∧ n ≤ maxLimit := by
  simpa using (Option.filter_eq_some_iff.1 h).2

/-- Setting a parameter leaves the limit as it is, unless it is the limit, which is kept in range. -/
lemma limit_of_set? (h : p.set? key value = some q) :
    if key = "limit" then 1 ≤ q.limit ∧ q.limit ≤ maxLimit else q.limit = p.limit := by
  by_cases hkey : key = "limit"
  · subst hkey
    obtain ⟨n, hn, rfl⟩ : ∃ n, limit? value = some n ∧ { p with limit := n } = q := by
      simpa [set?] using h
    exact limit?_bounds hn
  · rw [if_neg hkey]
    rw [set?, if_neg hkey] at h
    split at h
    · obtain rfl := Option.some.inj h
      simp only [withQuery]
    split at h
    · obtain rfl := Option.some.inj h
      simp only [withOrder]
    split at h
    · obtain ⟨offset, -, rfl⟩ := Option.map_eq_some_iff.1 h
      rfl
    split at h
    · obtain ⟨distinct, -, rfl⟩ := Option.map_eq_some_iff.1 h
      rfl
    split at h
    · obtain ⟨level, -, rfl⟩ := Option.map_eq_some_iff.1 h
      rfl
    · obtain rfl := Option.some.inj h
      rfl

/-- The limit of a request is in range if it is given, and as it was before if not. -/
lemma limit_of_setAll {entries : List (String × String)} (h : p.setAll entries = .ok q) :
    if "limit" ∈ entries.map Prod.fst then 1 ≤ q.limit ∧ q.limit ≤ maxLimit
    else q.limit = p.limit := by
  induction entries generalizing p with
  | nil =>
    cases h
    simp
  | cons entry rest ih =>
    obtain ⟨key, value⟩ := entry
    rw [setAll] at h
    split at h
    · next p' hset =>
      have hrest := ih h
      have hlimit := limit_of_set? hset
      by_cases hlater : "limit" ∈ rest.map Prod.fst
      · simpa [hlater] using hrest
      · -- what comes later leaves the limit as this entry sets it
        rw [if_neg hlater] at hrest
        rw [← hrest] at hlimit
        simpa [hlater, eq_comm (a := key)] using hlimit
    · cases h

end Parameters

end Retrieval
