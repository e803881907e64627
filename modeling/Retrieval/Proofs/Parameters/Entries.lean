/-
# Parameters in any order

The entries of a request come in no order of their own.  As long as no key is given twice, setting
one parameter after the other comes to the same in every order: each parameter is what its own entry
says, and without an entry as it is configured.  Only which of several unusable values is reported
depends on the order.
-/
import Mathlib.Data.List.Nodup
import Retrieval.Proofs.Number.Integer
import Retrieval.Proofs.Parameters
import Retrieval.Proofs.Schema.Names

namespace Retrieval

namespace Parameters

/-- The keys under which not every value is usable. -/
def checkedKeys : List String := ["limit", "offset", "distinct", "max_level"]

/-- All keys that say something. -/
def knownKeys : List String := "query" :: "order" :: checkedKeys

/-- What may stand under a key, blank space around it left aside: a limit is a natural number from 1
to the largest page, an offset one of 64 bits, `distinct` a truth value, and a level an integer of 64
bits.  Under any other key everything may stand. -/
@[mk_iff]
structure Usable (key value : String) : Prop where
  limit : key = "limit" →
    ∃ n, WritesNatural (Text.trim value.toList) n ∧ 1 ≤ n ∧ n ≤ maxLimit
  offset : key = "offset" → ∃ n, WritesNatural (Text.trim value.toList) n ∧ n < 0x10000000000000000
  distinct : key = "distinct" →
    (Text.trimmed value).map Char.toLower ∈ ["true", "1", "false", "0"]
  maxLevel : key = "max_level" → ∃ n, WritesInteger (Text.trim value.toList) n ∧ InInt64 n

/-- The parameters with those replaced for which there is a value under their key. -/
def override (p : Parameters) (value? : String → Option String) : Parameters where
  query := (value? "query").elim p.query nonBlank?
  order := (value? "order").elim p.order nonBlank?
  limit := ((value? "limit").bind limit?).getD p.limit
  offset := ((value? "offset").bind count?).getD p.offset
  distinct := ((value? "distinct").bind flag?).getD p.distinct
  maxLevel := ((value? "max_level").bind level?).getD p.maxLevel

variable {p q : Parameters} {key value : String} {f g : String → Option String}

/-- What stands under different keys can be set at once. -/
lemma override_override (h : ∀ key, f key = none ∨ g key = none) :
    (p.override f).override g = p.override fun key => (f key).or (g key) := by
  simp only [override, mk.injEq]
  refine ⟨?_, ?_, ?_, ?_, ?_, ?_⟩
  · rcases h "query" with h | h <;> simp [h]
  · rcases h "order" with h | h <;> simp [h]
  · rcases h "limit" with h | h <;> simp [h]
  · rcases h "offset" with h | h <;> simp [h]
  · rcases h "distinct" with h | h <;> simp [h]
  · rcases h "max_level" with h | h <;> simp [h]

/-! ### One entry -/

lemma count?_eq_some_iff {n : Nat} :
    count? value = some n ↔ WritesNatural (Text.trim value.toList) n ∧ n < 0x10000000000000000 := by
  rw [count?, Option.filter_eq_some_iff, readNatural?_eq_some_iff, decide_eq_true_iff]

lemma limit?_eq_some_iff {n : Nat} :
    limit? value = some n ↔
      WritesNatural (Text.trim value.toList) n ∧ 1 ≤ n ∧ n ≤ maxLimit := by
  rw [limit?, Option.filter_eq_some_iff, count?_eq_some_iff, decide_eq_true_iff, and_assoc]
  refine and_congr_right fun _ => ⟨fun h => h.2, fun h => ⟨?_, h⟩⟩
  exact Nat.lt_of_le_of_lt h.2 (by decide)

lemma level?_eq_some_iff {n : Int} :
    level? value = some n ↔ WritesInteger (Text.trim value.toList) n ∧ InInt64 n := by
  rw [level?, ValueType.readInt64?, Option.filter_eq_some_iff, readInteger?_eq_some_iff,
    Text.trimmed, String.toList_ofList, decide_eq_true_iff, InInt64]

lemma isSome_flag?_iff :
    (flag? value).isSome ↔
      (Text.trimmed value).map Char.toLower ∈ ["true", "1", "false", "0"] := by
  simp only [flag?, List.mem_cons, List.not_mem_nil, or_false]
  split_ifs with htrue hfalse <;> simp [← or_assoc, *]

lemma usable_of_notMem (h : key ∉ checkedKeys) : Usable key value := by
  simp only [checkedKeys, List.mem_cons, List.not_mem_nil, or_false, not_or] at h
  simp [usable_iff, h]

lemma usable_limit_iff : Usable "limit" value ↔ (limit? value).isSome := by
  simp [usable_iff, Option.isSome_iff_exists, limit?_eq_some_iff]

lemma usable_offset_iff : Usable "offset" value ↔ (count? value).isSome := by
  simp [usable_iff, Option.isSome_iff_exists, count?_eq_some_iff]

lemma usable_distinct_iff : Usable "distinct" value ↔ (flag? value).isSome := by
  simp [usable_iff, isSome_flag?_iff]

lemma usable_maxLevel_iff : Usable "max_level" value ↔ (level? value).isSome := by
  simp [usable_iff, Option.isSome_iff_exists, level?_eq_some_iff]

/-- An entry under `key` alone. -/
def entry (key value : String) (k : String) : Option String := if k = key then some value else none

lemma set?_of_notMem (h : key ∉ knownKeys) : p.set? key value = some p := by
  simp only [knownKeys, checkedKeys, List.mem_cons, List.not_mem_nil, or_false, not_or] at h
  simp only [set?, h, if_false]

lemma override_entry_of_notMem (h : key ∉ knownKeys) : p.override (entry key value) = p := by
  simp only [knownKeys, checkedKeys, List.mem_cons, List.not_mem_nil, or_false, not_or] at h
  simp [override, entry, eq_comm (b := key), h]

lemma set?_eq_some_iff :
    p.set? key value = some q ↔ Usable key value ∧ q = p.override (entry key value) := by
  by_cases hknown : key ∈ knownKeys
  · simp only [knownKeys, checkedKeys, List.mem_cons, List.not_mem_nil, or_false] at hknown
    obtain rfl | rfl | rfl | rfl | rfl | rfl := hknown
    · have husable : Usable "query" value := usable_of_notMem (by decide)
      simp [set?, withQuery, override, entry, husable, eq_comm]
    · have husable : Usable "order" value := usable_of_notMem (by decide)
      simp [set?, withOrder, override, entry, husable, eq_comm]
    · rw [usable_limit_iff]
      cases hvalue : limit? value <;> simp [set?, hvalue, override, entry, eq_comm]
    · rw [usable_offset_iff]
      cases hvalue : count? value <;> simp [set?, hvalue, override, entry, eq_comm]
    · rw [usable_distinct_iff]
      cases hvalue : flag? value <;> simp [set?, hvalue, override, entry, eq_comm]
    · rw [usable_maxLevel_iff]
      cases hvalue : level? value <;> simp [set?, hvalue, override, entry, eq_comm]
  · have husable : Usable key value :=
      usable_of_notMem fun h => hknown (List.mem_cons_of_mem _ (List.mem_cons_of_mem _ h))
    rw [set?_of_notMem hknown, override_entry_of_notMem hknown]
    simp [husable, eq_comm]

lemma set?_eq_none_iff : p.set? key value = none ↔ ¬ Usable key value := by
  simp [Option.eq_none_iff_forall_ne_some, set?_eq_some_iff]

/-! ### All entries -/

/-- Entries of which no key is repeated are set one after the other to what they all say at once. -/
lemma setAll_eq_ok_iff {entries : List (String × String)}
    (hdistinct : (entries.map Prod.fst).Nodup) :
    p.setAll entries = .ok q ↔
      (∀ e ∈ entries, Usable e.1 e.2) ∧ q = p.override (entries.lookup ·) := by
  induction entries generalizing p with
  | nil => simp [setAll, override, eq_comm]
  | cons e rest ih =>
    obtain ⟨key, value⟩ := e
    obtain ⟨hnew, hrest⟩ := List.nodup_cons.1 hdistinct
    rw [setAll, List.forall_mem_cons]
    have hdisjoint : ∀ k, entry key value k = none ∨ rest.lookup k = none := by
      intro k
      by_cases hk : k = key
      · exact .inr (lookup_eq_none_of_notMem (hk ▸ hnew))
      · exact .inl (if_neg hk)
    have hlookup : (fun k => (entry key value k).or (rest.lookup k)) =
        fun k => ((key, value) :: rest).lookup k := by
      funext k
      by_cases hk : k = key
      · simp [entry, hk]
      · simp [entry, List.lookup_cons, hk, beq_false_of_ne hk]
    cases hset : p.set? key value with
    | none => simp [set?_eq_none_iff.1 hset]
    | some p' =>
      obtain ⟨husable, rfl⟩ := set?_eq_some_iff.1 hset
      simp only [ih hrest, override_override hdisjoint, hlookup, husable, true_and]

/-- What is refused is the first entry with an unusable value. -/
lemma exists_of_setAll_eq_error {entries : List (String × String)} {e : Error}
    (h : p.setAll entries = .error e) :
    ∃ front key value behind, entries = front ++ (key, value) :: behind ∧
      (∀ x ∈ front, Usable x.1 x.2) ∧ ¬ Usable key value ∧ e = .invalidParameter key value := by
  induction entries generalizing p with
  | nil => cases h
  | cons first rest ih =>
    obtain ⟨key, value⟩ := first
    rw [setAll] at h
    cases hset : p.set? key value with
    | none =>
      simp only [hset, Except.error.injEq] at h
      exact ⟨[], key, value, rest, rfl, by simp, set?_eq_none_iff.1 hset, h.symm⟩
    | some p' =>
      simp only [hset] at h
      obtain ⟨front, k, v, behind, rfl, hfront, hunusable, he⟩ := ih h
      have husable : Usable key value := (set?_eq_some_iff.1 hset).1
      exact ⟨(key, value) :: front, k, v, behind, rfl,
        List.forall_mem_cons.2 ⟨husable, hfront⟩, hunusable, he⟩

/-- Entries under unknown keys can be left out. -/
lemma setAll_filter_knownKeys {entries : List (String × String)} :
    p.setAll (entries.filter fun x => x.1 ∈ knownKeys) = p.setAll entries := by
  induction entries generalizing p with
  | nil => rfl
  | cons first rest ih =>
    obtain ⟨key, value⟩ := first
    by_cases hkey : key ∈ knownKeys
    · rw [List.filter_cons_of_pos (by simpa using hkey), setAll, setAll]
      split
      · exact ih
      · rfl
    · rw [List.filter_cons_of_neg (by simpa using hkey), ih, setAll, set?_of_notMem hkey]

/-- **The order of the entries does not matter.**  If no key is given twice, a request is refused
exactly if the value under one of the checked keys is unusable, and the error is about the first such
entry, its value as it was given.  Otherwise each parameter is read from the value of its own key, or
as configured if the key is not given, whatever the order.  Unknown keys change nothing. -/
theorem ofEntries_any_order (c : Configuration) {entries listed : List (String × String)}
    (hdistinct : (entries.map Prod.fst).Nodup) (hperm : listed.Perm entries) :
    ((∃ e, ofEntries c listed = .error e) ↔
      ∃ x ∈ entries, x.1 ∈ checkedKeys ∧ ¬ Usable x.1 x.2) ∧
    (∀ e, ofEntries c listed = .error e →
      ∃ front key value behind, listed = front ++ (key, value) :: behind ∧
        (∀ x ∈ front, Usable x.1 x.2) ∧ key ∈ checkedKeys ∧ ¬ Usable key value ∧
        e = .invalidParameter key value) ∧
    ((∀ x ∈ entries, x.1 ∈ checkedKeys → Usable x.1 x.2) →
      ofEntries c listed = .ok ((defaults c).override (entries.lookup ·))) ∧
    ofEntries c listed = ofEntries c (listed.filter fun x => x.1 ∈ knownKeys) := by
  have hlisted : (listed.map Prod.fst).Nodup := (hperm.map Prod.fst).nodup_iff.2 hdistinct
  have husable {x : String × String} : (x.1 ∈ checkedKeys → Usable x.1 x.2) ↔ Usable x.1 x.2 := by
    by_cases hkey : x.1 ∈ checkedKeys
    · simp [hkey]
    · simp [hkey, usable_of_notMem hkey]
  have hok {p : Parameters} : ofEntries c listed = .ok p ↔
      (∀ x ∈ entries, x.1 ∈ checkedKeys → Usable x.1 x.2) ∧
        p = (defaults c).override (entries.lookup ·) := by
    simp only [ofEntries, setAll_eq_ok_iff hlisted, hperm.mem_iff, husable,
      lookup_eq_of_perm hperm hdistinct]
  refine ⟨?_, fun e h => ?_, fun h => hok.2 ⟨h, rfl⟩, setAll_filter_knownKeys.symm⟩
  · constructor
    · rintro ⟨e, h⟩
      by_contra! hall
      rw [hok.2 ⟨hall, rfl⟩] at h
      cases h
    · rintro ⟨x, hx, hkey, hunusable⟩
      cases h : ofEntries c listed with
      | error e => exact ⟨e, rfl⟩
      | ok p => exact absurd ((hok.1 h).1 x hx hkey) hunusable
  · obtain ⟨front, key, value, behind, hsplit, hfront, hunusable, rfl⟩ :=
      exists_of_setAll_eq_error h
    have hkey : key ∈ checkedKeys := of_not_not fun hkey => hunusable (usable_of_notMem hkey)
    exact ⟨front, key, value, behind, hsplit, hfront, hkey, hunusable, rfl⟩

/-- A page of cards by name, with a key that nobody knows; and two values, neither usable. -/
theorem ofEntries_any_order_cards :
    ofEntries .default [("page", "two"), ("order", " name "), ("offset", " 40 ")] =
      .ok { defaults .default with order := some "name", offset := 40 } ∧
    ∃ e, ofEntries .default [("limit", "0"), ("offset", "-1 ")] = .error e := by
  have hoffset : Usable "offset" " 40 " := usable_offset_iff.2 (by decide)
  have hpage : Usable "page" "two" := usable_of_notMem (by decide)
  have horder : Usable "order" " name " := usable_of_notMem (by decide)
  have hlimit : ¬ Usable "limit" "0" := by
    rw [usable_limit_iff]
    decide
  constructor
  · have hperm : [("page", "two"), ("order", " name "), ("offset", " 40 ")].Perm
        [("offset", " 40 "), ("page", "two"), ("order", " name ")] := by decide
    obtain ⟨-, -, hok, -⟩ := ofEntries_any_order .default (by decide) hperm
    rw [hok (by simp [hoffset, hpage, horder])]
    rfl
  · have hperm : [("limit", "0"), ("offset", "-1 ")].Perm [("offset", "-1 "), ("limit", "0")] := by
      decide
    obtain ⟨hrefused, -⟩ := ofEntries_any_order .default (by decide) hperm
    exact hrefused.2 ⟨("limit", "0"), by simp, by decide, hlimit⟩

/-- Which of the two is reported depends on the order. -/
example :
    ofEntries .default [("limit", "0"), ("offset", "-1 ")] =
      .error (.invalidParameter "limit" "0") ∧
    ofEntries .default [("offset", "-1 "), ("limit", "0")] =
      .error (.invalidParameter "offset" "-1 ") := by
  constructor <;> rfl

end Parameters

end Retrieval
