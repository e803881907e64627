/-
# Names in schema graphs

The definitions of a graph are accepted only if no schema declares two attributes of one name.  In
such a schema an attribute is found by its name, and so is a relation in the list of all relations.
-/
import Mathlib.Data.List.Nodup
import Retrieval.Proofs.Outcome
import Retrieval.Schema.Graph

namespace Retrieval

/-! ### Looking up names -/

/-- What is looked up under names of which none is repeated is what is listed under them. -/
lemma lookup_eq_some_iff_mem {α : Type} {named : List (String × α)}
    (h : (named.map Prod.fst).Nodup) {name : String} {a : α} :
    named.lookup name = some a ↔ (name, a) ∈ named := by
  rw [List.lookup_eq_some_iff]
  constructor
  · rintro ⟨front, rest, rfl, -⟩
    simp
  · intro ha
    obtain ⟨front, rest, rfl⟩ := List.append_of_mem ha
    refine ⟨front, rest, rfl, fun p hp => ?_⟩
    -- the same name in front of this place would be a repetition
    rw [List.map_append, List.map_cons, List.nodup_append] at h
    simpa using (h.2.2 p.1 (List.mem_map_of_mem hp) name (by simp)).symm

/-- Looking up under names of which none is repeated does not depend on the order. -/
lemma lookup_eq_of_perm {α : Type} {listed named : List (String × α)} (hperm : listed.Perm named)
    (h : (named.map Prod.fst).Nodup) (name : String) : listed.lookup name = named.lookup name := by
  have hlisted : (listed.map Prod.fst).Nodup := (hperm.map Prod.fst).nodup_iff.2 h
  ext a
  rw [lookup_eq_some_iff_mem hlisted, lookup_eq_some_iff_mem h, hperm.mem_iff]

lemma lookup_eq_none_of_notMem {α : Type} {named : List (String × α)} {name : String}
    (h : name ∉ named.map Prod.fst) : named.lookup name = none := by
  rw [List.lookup_eq_none_iff]
  intro p hp
  have hne : p.1 ≠ name := fun hname => h (List.mem_map.2 ⟨p, hp, hname⟩)
  simpa using hne.symm

/-- Leaving some things out, and keeping the names of the others, repeats no name. -/
lemma names_filterMap_sublist {α β : Type} {name : α → String} {f : α → Option (String × β)}
    (h : ∀ a x, f a = some x → x.1 = name a) (as : List α) :
    ((as.filterMap f).map Prod.fst).Sublist (as.map name) := by
  induction as with
  | nil => simp
  | cons a as ih =>
    rw [List.filterMap_cons, List.map_cons]
    cases hx : f a with
    | none => exact ih.cons (name a)
    | some x =>
      rw [List.map_cons, h a x hx]
      exact ih.cons_cons (name a)

/-! ### Attributes and relations -/

/-- No two attributes of a schema have the same name. -/
def Schema.Distinct {n : Nat} (s : Schema n) : Prop := (s.attributes.map Attribute.name).Nodup

namespace Graph

lemma of_resolveAttributes_eq_ok {n : Nat} {position? : String → Option (Fin n)} {schema : String}
    {seen : List String} {definitions : List Schema.AttributeDefinition}
    {attributes : List (Attribute n)}
    (h : resolveAttributes position? schema seen definitions = .ok attributes) :
    (attributes.map Attribute.name).Nodup ∧ ∀ a ∈ attributes, a.name ∉ seen := by
  induction definitions generalizing seen attributes with
  | nil =>
    cases h
    simp
  | cons d rest ih =>
    rw [resolveAttributes] at h
    split at h
    · cases h
    next hseen =>
    obtain ⟨kind, -, h⟩ := bind_eq_ok_iff.1 h
    obtain ⟨others, hothers, h⟩ := bind_eq_ok_iff.1 h
    cases h
    obtain ⟨hnodup, hnew⟩ := ih hothers
    refine ⟨List.nodup_cons.2 ⟨?_, hnodup⟩, List.forall_mem_cons.2 ⟨hseen, fun a ha => ?_⟩⟩
    · intro hmem
      obtain ⟨a, ha, hname⟩ := List.mem_map.1 hmem
      exact hnew a ha (by simp [hname])
    · exact fun hmem => hnew a ha (List.mem_cons_of_mem _ hmem)

lemma distinct_of_resolveSchema {n : Nat} {position? : String → Option (Fin n)}
    {d : Schema.Definition} {s : Schema n} (h : resolveSchema position? d = .ok s) :
    s.Distinct := by
  obtain ⟨attributes, hattributes, h⟩ := bind_eq_ok_iff.1 h
  split at h
  · cases h
    exact (of_resolveAttributes_eq_ok hattributes).1
  · cases h

/-! ### Building -/

lemma repeated?_eq_none_iff {seen names : List String} :
    repeated? seen names = none ↔ names.Nodup ∧ ∀ name ∈ names, name ∉ seen := by
  induction names generalizing seen with
  | nil => simp [repeated?]
  | cons name names ih =>
    have hnew : (∀ other ∈ names, other ≠ name) ↔ name ∉ names :=
      ⟨fun h hmem => h name hmem rfl, fun h other hother heq => h (heq ▸ hother)⟩
    rw [repeated?, List.nodup_cons, List.forall_mem_cons]
    by_cases hseen : name ∈ seen
    · simp [hseen]
    · rw [if_neg hseen, ih]
      simp only [List.mem_cons, not_or, imp_and, forall_and, hnew]
      tauto

/-- What is found by its place passes the test. -/
lemma of_findFinIdx?_eq_some {α : Type} {n : Nat} {as : Vector α n} {p : α → Bool} {i : Fin n}
    (h : as.findFinIdx? p = some i) : p (as.get i) = true := by
  obtain ⟨j, hj, rfl⟩ := Option.map_eq_some_iff.1 h
  exact (Array.findFinIdx?_eq_some_iff.1 hj).1

/-- The place of the definition of a name. -/
def position? (definitions : List Schema.Definition) (name : String) :
    Option (Fin definitions.length) :=
  (⟨definitions.toArray, List.size_toArray⟩ : Vector _ definitions.length).findFinIdx?
    (·.name = name)

lemma name_of_position? {definitions : List Schema.Definition} {name : String}
    {i : Fin definitions.length} (h : position? definitions name = some i) :
    definitions[i].name = name := by
  have hi := of_findFinIdx?_eq_some h
  exact of_decide_eq_true hi

lemma position?_isSome_iff {definitions : List Schema.Definition} {name : String} :
    (position? definitions name).isSome ↔ ∃ d ∈ definitions, d.name = name := by
  rw [position?, Vector.isSome_findFinIdx?]
  simp

/-- Schemas are what definitions are resolved to, each of them at its place. -/
def Resolves (definitions : List Schema.Definition)
    (schemas : Vector (Schema definitions.length) definitions.length) : Prop :=
  ∀ i : Fin definitions.length,
    resolveSchema (position? definitions) definitions[i] = .ok schemas[i]

/-- Definitions of different names make a graph of what each of them is resolved to, if the remote
attributes of this graph exist. -/
lemma build_eq_ok_iff {definitions : List Schema.Definition} {g : Graph} :
    build definitions = .ok g ↔
      (definitions.map Schema.Definition.name).Nodup ∧
        ∃ schemas, Resolves definitions schemas ∧ g = ⟨definitions.length, schemas⟩ ∧
          g.badRemote? = none := by
  have hrepeated : repeated? [] (definitions.map Schema.Definition.name) = none ↔
      (definitions.map Schema.Definition.name).Nodup := by
    rw [repeated?_eq_none_iff]
    simp
  rw [build]
  cases h : repeated? [] (definitions.map Schema.Definition.name) with
  | some name => simp [← hrepeated, h]
  | none =>
    simp only [← hrepeated, h, true_and, bind_eq_ok_iff, vectorMapM_eq_ok_iff]
    refine exists_congr fun schemas => and_congr Iff.rfl ?_
    constructor
    · intro hbad
      split at hbad
      · cases hbad
      · cases hbad
        exact ⟨rfl, by assumption⟩
    · rintro ⟨rfl, hbad⟩
      rw [hbad]

/-- The schemas of a graph that is built have attributes of different names. -/
lemma distinct_of_build {definitions : List Schema.Definition} {g : Graph}
    (h : build definitions = .ok g) (i : g.Id) : (g.schema i).Distinct := by
  obtain ⟨-, schemas, hschemas, rfl, -⟩ := build_eq_ok_iff.1 h
  exact distinct_of_resolveSchema (hschemas i)

lemma name_of_find? {g : Graph} {name : String} {i : g.Id} (h : g.find? name = some i) :
    (g.schema i).name = name := by
  have hi := of_findFinIdx?_eq_some h
  exact of_decide_eq_true hi

lemma name_of_resolveSchema {n : Nat} {position? : String → Option (Fin n)}
    {d : Schema.Definition} {s : Schema n} (h : resolveSchema position? d = .ok s) :
    s.name = d.name := by
  obtain ⟨attributes, -, h⟩ := bind_eq_ok_iff.1 h
  split at h
  · cases h
    rfl
  · cases h

/-- In a graph that is built a schema is found by its name. -/
lemma find?_name {definitions : List Schema.Definition} {g : Graph}
    (h : build definitions = .ok g) (i : g.Id) : g.find? (g.schema i).name = some i := by
  have hinj : ∀ j : g.Id, (g.schema j).name = (g.schema i).name → j = i := by
    obtain ⟨hnodup, schemas, hschemas, rfl, -⟩ := build_eq_ok_iff.1 h
    have hname : ∀ j : Fin definitions.length, schemas[j].name = definitions[j].name :=
      fun j => name_of_resolveSchema (hschemas j)
    intro j hj
    have hnames : definitions[j].name = definitions[i].name :=
      (hname j).symm.trans (hj.trans (hname i))
    have hdefinition : definitions[j] = definitions[i] :=
      List.inj_on_of_nodup_map hnodup (List.getElem_mem j.isLt) (List.getElem_mem i.isLt) hnames
    exact Fin.ext ((hnodup.of_map _).getElem_inj_iff.1 hdefinition)
  cases hj : g.find? (g.schema i).name with
  | none =>
    have hmem : g.schema i ∈ g.schemas := Vector.getElem_mem i.isLt
    have hne := Vector.findFinIdx?_eq_none_iff.1 hj _ hmem
    simp at hne
  | some j => rw [hinj j (name_of_find? hj)]

/-- The primary key of every schema is a scalar. -/
def HasScalarKeys (g : Graph) : Prop :=
  ∀ i, (((g.schema i).attribute? (g.schema i).primaryKey).bind Attribute.type?).isSome

lemma HasScalarKeys.exists_attribute? {g : Graph} (h : g.HasScalarKeys) (i : g.Id) :
    ∃ t, (g.schema i).attribute? (g.schema i).primaryKey =
      some ⟨(g.schema i).primaryKey, .scalar t⟩ := by
  obtain ⟨t, ht⟩ := Option.isSome_iff_exists.1 (h i)
  obtain ⟨⟨name, kind⟩, ha, hkind⟩ := Option.bind_eq_some_iff.1 ht
  obtain rfl : name = (g.schema i).primaryKey := by simpa using List.find?_some ha
  cases kind with
  | scalar t => exact ⟨t, ha⟩
  | relation r => cases hkind

end Graph

namespace Schema

variable {n : Nat} {s : Schema n}

/-- An attribute of a schema is found by its name. -/
lemma Distinct.attribute?_eq_some_iff (h : s.Distinct) {name : String} {a : Attribute n} :
    s.attribute? name = some a ↔ a ∈ s.attributes ∧ a.name = name := by
  constructor
  · intro ha
    exact ⟨List.mem_of_find?_eq_some ha, by simpa using List.find?_some ha⟩
  · rintro ⟨ha, rfl⟩
    cases hb : s.attribute? a.name with
    | none => exact absurd ha fun ha => by simpa using List.find?_eq_none.1 hb a ha
    | some b =>
      have hname : b.name = a.name := by simpa using List.find?_some hb
      rw [List.inj_on_of_nodup_map h (List.mem_of_find?_eq_some hb) ha hname]

lemma mem_relations_iff {name : String} {r : Relation n} :
    (name, r) ∈ s.relations ↔ ⟨name, .relation r⟩ ∈ s.attributes := by
  rw [relations, List.mem_filterMap]
  constructor
  · rintro ⟨⟨name', _ | r'⟩, ha, h⟩
    · cases h
    · cases h
      exact ha
  · intro h
    exact ⟨_, h, rfl⟩

lemma isSome_attribute?_of_mem_relations {name : String} {r : Relation n}
    (h : (name, r) ∈ s.relations) : (s.attribute? name).isSome := by
  rw [attribute?, List.find?_isSome]
  exact ⟨_, mem_relations_iff.1 h, by simp⟩

/-- A relation of a schema is the attribute of its name. -/
lemma Distinct.attribute?_of_mem_relations (h : s.Distinct) {name : String} {r : Relation n}
    (hr : (name, r) ∈ s.relations) : s.attribute? name = some ⟨name, .relation r⟩ :=
  h.attribute?_eq_some_iff.2 ⟨mem_relations_iff.1 hr, rfl⟩

/-- The relations of a schema have different names. -/
lemma Distinct.nodup_relations (h : s.Distinct) : (s.relations.map Prod.fst).Nodup := by
  refine List.Nodup.sublist (names_filterMap_sublist (fun a x hx => ?_) _) h
  obtain ⟨r, -, rfl⟩ := Option.map_eq_some_iff.1 hx
  rfl

end Schema

end Retrieval
