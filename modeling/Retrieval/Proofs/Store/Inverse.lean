/-
# To-many relations are the inverses of to-one relations

What a to-many relation leads to is found by looking through the records of its target; what a to-one
relation leads to is the first record that has the key.  Where keys are compared plainly, a record is
found in the one way from its owner exactly if the owner is found in the other way from it.
-/
import Retrieval.Proofs.Filter.Meaning
import Retrieval.Proofs.Store.History
import Retrieval.Proofs.Store.Keys
import Retrieval.Proofs.Store.Paths

namespace Retrieval

/-! ### Plain values -/

namespace Json

/-- Whether a value is a truth value, a text or an integer of 64 bits. -/
def isPlain : Json → Bool
  | bool _ => true
  | v => v.isKey

lemma isPlain_iff {v : Json} : v.isPlain ↔ (∃ b, v = .bool b) ∨ v.isKey := by
  cases v <;> simp [isPlain, isKey]

/-- Plain values are loosely equal only if they are the same. -/
lemma looseEq_iff_eq_of_isPlain {v w : Json} (hv : v.isPlain) (hw : w.isPlain) :
    v.looseEq w = true ↔ v = w := by
  have hbool : ∀ {b : Bool} {u : Json}, u.isKey → ((bool b).looseEq u = true ↔ bool b = u) := by
    intro b u hu
    cases u <;> simp [isKey, looseEq, same] at hu ⊢
  rcases isPlain_iff.1 hv with ⟨b, rfl⟩ | hv <;> rcases isPlain_iff.1 hw with ⟨c, rfl⟩ | hw
  · simp [looseEq, same]
  · exact hbool hw
  · rw [looseEq_comm, eq_comm (a := v)]
    exact hbool hv
  · exact looseEq_iff_eq hv hw

end Json

/-- A to-many relation of a schema and a to-one relation of its target that points back. -/
structure Graph.Opposite (g : Graph) (i : g.Id) (name : String) (r : Relation g.size)
    (remote : String) (back : Relation g.size) : Prop where
  many : (g.schema i).attribute? name = some ⟨name, .relation r⟩
  many_cardinality : r.cardinality = .toMany
  remote_eq : r.remote = some remote
  one : (g.schema r.target).attribute? remote = some ⟨remote, .relation back⟩
  one_cardinality : back.cardinality = .toOne
  target_eq : back.target = i

namespace Store

variable {g : Graph} {s : Store g} {i j : g.Id} {o t : Record} {name remote : String}
  {r back : Relation g.size}

/-- The keys of a schema are plain, and so is whatever the records of another one hold under a remote
attribute, unless it is null. -/
structure JoinsPlainly (s : Store g) (i j : g.Id) (remote : String) : Prop where
  key : ∀ o ∈ s.rows i, (Json.member? (g.schema i).primaryKey o).all Json.isPlain
  remote : ∀ t ∈ s.rows j, (Json.member? remote t).all fun v => v.isNull || v.isPlain

/-! ### Owners -/

/-- The record that another one points at by an attribute. -/
def pointedAt? (s : Store g) (i : g.Id) (t : Record) (remote : String) : Option Record :=
  s.findByKey? i ((Json.member? remote t).getD .null)

lemma stored_of_pointedAt? (h : s.pointedAt? i t remote = some o) : o ∈ s.rows i :=
  List.mem_of_find?_eq_some h

lemma pointedAt?_eq_some_iff_exists (hs : s.Keyed) :
    s.pointedAt? i t remote = some o ↔
      ∃ v, Json.member? remote t = some v ∧ s.findByKey? i v = some o := by
  rw [pointedAt?]
  cases Json.member? remote t with
  | none => simp [hs.findByKey?_null]
  | some v => simp

lemma mem_referring_iff_exists (hremote : r.remote = some remote) :
    t ∈ s.referring i o r ↔
      t ∈ s.rows r.target ∧ ∃ key v, Json.member? (g.schema i).primaryKey o = some key ∧
        Json.member? remote t = some v ∧ v.looseEq key = true := by
  rw [referring]
  cases Json.member? (g.schema i).primaryKey o with
  | none => simp
  | some key => simp [related, hremote, hasMember, Option.any_eq_true]

/-- A record is among those of an owner exactly if it points at the owner. -/
lemma mem_referring_iff (hs : s.Keyed) (hplain : s.JoinsPlainly i r.target remote)
    (hremote : r.remote = some remote) (ho : o ∈ s.rows i) (ht : t ∈ s.rows r.target) :
    t ∈ s.referring i o r ↔ s.pointedAt? i t remote = some o := by
  rw [mem_referring_iff_exists hremote, pointedAt?_eq_some_iff_exists hs]
  constructor
  · rintro ⟨-, key, v, hkey, hv, hequal⟩
    have hkeyplain := hplain.key o ho
    have hvplain := hplain.remote t ht
    rw [hkey, Option.all_some] at hkeyplain
    rw [hv, Option.all_some, Bool.or_eq_true] at hvplain
    rcases hvplain with hnull | hvplain
    · -- null is loosely equal to no plain key
      cases v <;> cases hnull
      rw [Json.looseEq_comm, Json.looseEq_null] at hequal
      cases key <;> simp [Json.isNull, Json.isPlain, Json.isKey] at hequal hkeyplain
    · -- the first record that has the key is the only one
      obtain rfl := (Json.looseEq_iff_eq_of_isPlain hvplain hkeyplain).1 hequal
      exact ⟨v, hv, hs.findByKey?_key ho hkey⟩
  · rintro ⟨v, hv, hfind⟩
    have hfound : hasMember o (g.schema i).primaryKey v = true := by
      simpa using List.find?_some hfind
    obtain ⟨key, hkey, hequal⟩ := Option.any_eq_true _ _ |>.1 hfound
    exact ⟨ht, key, v, hkey, hv, by rwa [Json.looseEq_comm]⟩

/-! ### Steps and paths -/

lemma mem_step_iff (hs : s.Keyed) (ha : (g.schema i).attribute? name = some ⟨name, .relation r⟩) :
    (j, t) ∈ s.step i o name ↔ j = r.target ∧ t ∈ s.targets i o name r := by
  rw [step_eq hs ha, List.mem_map]
  constructor
  · rintro ⟨_, ht, ⟨⟩⟩
    exact ⟨rfl, ht⟩
  · rintro ⟨rfl, ht⟩
    exact ⟨t, ht, rfl⟩

lemma targets_toMany (hc : r.cardinality = .toMany) :
    s.targets i o name r = s.referring i o r := by
  rw [targets, hc]

lemma mem_targets_toOne_iff (hs : s.Keyed) (hc : r.cardinality = .toOne) :
    t ∈ s.targets i o name r ↔ s.pointedAt? r.target o name = some t := by
  rw [targets, hc, referent?_eq hs, pointedAt?, Option.mem_toList]

/-- Going along a relation is going back along its opposite. -/
lemma mem_step_iff_mem_step (hs : s.Keyed) (hopposite : g.Opposite i name r remote back)
    (hplain : s.JoinsPlainly i r.target remote) (ho : o ∈ s.rows i) (ht : t ∈ s.rows r.target) :
    (r.target, t) ∈ s.step i o name ↔ (i, o) ∈ s.step r.target t remote := by
  rw [mem_step_iff hs hopposite.many, mem_step_iff hs hopposite.one,
    targets_toMany hopposite.many_cardinality, mem_targets_toOne_iff hs hopposite.one_cardinality,
    hopposite.target_eq, mem_referring_iff hs hplain hopposite.remote_eq ho ht]
  simp

/-- Behind a relation a comparison holds if it holds for one of the records that the relation leads
to. -/
lemma selects_compare_cons_iff (hs : s.Keyed)
    (ha : (g.schema i).attribute? name = some ⟨name, .relation r⟩) {rest : List String}
    (hrest : rest ≠ []) {test : Test} (htest : test ≠ .isNull) (value : Json) :
    s.selects i (some (.compare ⟨name :: rest, test, value, false⟩)) o = true ↔
      ∃ t ∈ s.targets i o name r,
        s.selects r.target (some (.compare ⟨rest, test, value, false⟩)) t = true := by
  have hholds : ∀ (k : g.Id) (row : Record) (path : List String),
      s.selects k (some (.compare ⟨path, test, value, false⟩)) row =
        (s.pathValues k row path).any (test.passes · value) := by
    intro k row path
    rw [selects, Predicate.holds, Comparison.holdsOf_eq_any htest, Bool.bne_false]
  simp only [hholds, pathValues_cons hs ha hrest, List.any_flatMap, List.any_eq_true]

end Store

/-- **To-many relations are the inverses of to-one relations.**  Take a to-many relation with a to-one
relation that points back from its target, and any store that is filled, whose keys and remote fields
are plain.  A record of the target is among those of an owner exactly if the owner is found by its
remote field, and so a path goes from the one to the other exactly if it goes back.  The records of
different owners are apart, and together they are those whose remote field finds an owner.  A
comparison behind the relation, if it is neither negated nor the test for null, holds of an owner
exactly if it holds of some record that points at the owner. -/
theorem toMany_inverts_toOne {g : Graph} {s : Store g} (hs : s.Reachable) {i : g.Id}
    {name remote : String} {r back : Relation g.size}
    (hopposite : g.Opposite i name r remote back)
    (hplain : s.JoinsPlainly i r.target remote) :
    (∀ o ∈ s.rows i, ∀ t ∈ s.rows r.target,
      (t ∈ s.referring i o r ↔ s.pointedAt? i t remote = some o) ∧
      ((r.target, t) ∈ s.step i o name ↔ (i, o) ∈ s.step r.target t remote)) ∧
    (∀ o ∈ s.rows i, ∀ o' ∈ s.rows i, o ≠ o' →
      (s.referring i o r).Disjoint (s.referring i o' r)) ∧
    (∀ t, (∃ o ∈ s.rows i, t ∈ s.referring i o r) ↔
      t ∈ s.rows r.target ∧ (s.pointedAt? i t remote).isSome) ∧
    ∀ o ∈ s.rows i, ∀ rest test value, rest ≠ [] → test ≠ .isNull →
      (s.selects i (some (.compare ⟨name :: rest, test, value, false⟩)) o = true ↔
        ∃ t ∈ s.rows r.target, s.pointedAt? i t remote = some o ∧
          s.selects r.target (some (.compare ⟨rest, test, value, false⟩)) t = true) := by
  have hkeyed := hs.keyed
  have hmem : ∀ o ∈ s.rows i, ∀ t ∈ s.rows r.target,
      (t ∈ s.referring i o r ↔ s.pointedAt? i t remote = some o) :=
    fun o ho t ht => Store.mem_referring_iff hkeyed hplain hopposite.remote_eq ho ht
  refine ⟨fun o ho t ht => ⟨hmem o ho t ht, ?_⟩, fun o ho o' ho' hne t ht ht' => ?_,
    fun t => ⟨?_, ?_⟩, fun o ho rest test value hrest htest => ?_⟩
  · exact Store.mem_step_iff_mem_step hkeyed hopposite hplain ho ht
  · -- the record would point at both owners
    have hstored := s.stored_of_mem_referring ht
    have howner := (hmem o ho t hstored).1 ht
    rw [(hmem o' ho' t hstored).1 ht', Option.some.injEq] at howner
    exact hne howner.symm
  · rintro ⟨o, ho, ht⟩
    have hstored := s.stored_of_mem_referring ht
    exact ⟨hstored, Option.isSome_iff_exists.2 ⟨o, (hmem o ho t hstored).1 ht⟩⟩
  · rintro ⟨ht, hsome⟩
    obtain ⟨o, howner⟩ := Option.isSome_iff_exists.1 hsome
    have ho := Store.stored_of_pointedAt? howner
    exact ⟨o, ho, (hmem o ho t ht).2 howner⟩
  · rw [Store.selects_compare_cons_iff hkeyed hopposite.many hrest htest,
      Store.targets_toMany hopposite.many_cardinality]
    constructor
    · rintro ⟨t, ht, hselects⟩
      have hstored := s.stored_of_mem_referring ht
      exact ⟨t, hstored, (hmem o ho t hstored).1 ht, hselects⟩
    · rintro ⟨t, ht, howner, hselects⟩
      exact ⟨t, (hmem o ho t ht).2 howner, hselects⟩

/-- Bob has two of the three pets, and a filter behind his pets finds him by one of them. -/
theorem toMany_inverts_toOne_shelter :
    ∃ root pet : shelterGraph.Id, shelterGraph.find? "Person" = some root ∧
      shelterGraph.find? "Pet" = some pet ∧
    ∃ bob rex, shelterStore.findByKey? root (.int 2) = some bob ∧
      shelterStore.findByKey? pet (.int 1) = some rex ∧
      shelterGraph.Opposite root "pets" ⟨.toMany, true, pet, some "owner"⟩ "owner"
        ⟨.toOne, true, root, none⟩ ∧
      shelterStore.JoinsPlainly root pet "owner" ∧
      rex ∈ shelterStore.referring root bob ⟨.toMany, true, pet, some "owner"⟩ ∧
      shelterStore.selects root
        (some (.compare ⟨["pets", "name"], .equal, .string "Rex", false⟩)) bob = true := by
  have hpet : shelterGraph.find? "Pet" = some ⟨1, by decide⟩ := by decide +kernel
  have hopposite : shelterGraph.Opposite ⟨0, by decide⟩ "pets"
      ⟨.toMany, true, ⟨1, by decide⟩, some "owner"⟩ "owner"
      ⟨.toOne, true, ⟨0, by decide⟩, none⟩ := ⟨rfl, rfl, rfl, rfl, rfl, rfl⟩
  have hplain : shelterStore.JoinsPlainly ⟨0, by decide⟩ ⟨1, by decide⟩ "owner" :=
    ⟨by decide, by decide⟩
  obtain ⟨hmem, -, -, hpath⟩ :=
    toMany_inverts_toOne (Store.reachable_ofFixture ofFixture_shelter) hopposite hplain
  have hfindBob : shelterStore.findByKey? ⟨0, by decide⟩ (.int 2) =
      some [("id", .int 2), ("mentor", .int 1), ("name", .string "Bob")] := rfl
  have hfindRex : shelterStore.findByKey? ⟨1, by decide⟩ (.int 1) =
      some [("id", .int 1), ("name", .string "Rex"), ("owner", .int 2)] := rfl
  have hbob := List.mem_of_find?_eq_some hfindBob
  have hrex := List.mem_of_find?_eq_some hfindRex
  refine ⟨_, _, find?_person_shelter, hpet, _, _, hfindBob, hfindRex, hopposite, hplain, ?_, ?_⟩
  · exact (hmem _ hbob _ hrex).1.2 rfl
  · exact (hpath _ hbob ["name"] _ _ (by simp) (by simp)).2 ⟨_, hrex, rfl, rfl⟩

end Retrieval
