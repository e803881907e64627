/-
# Graphs are built from consistent definitions

Definitions make a graph if and only if they are consistent: no name is declared twice, every
relation leads to one of the schemas, to-many relations name the attribute that points back, and
the attributes that are named as primary keys and as remote ones exist.  The graph then has exactly
what the definitions say.
-/
import Mathlib.Tactic.MkIffOfInductiveProp
import Retrieval.Proofs.Schema.Names

namespace Retrieval

/-- What stands on one side of a correspondence corresponds to something on the other side. -/
lemma exists_of_forall₂ {α β : Type} {R : α → β → Prop} {as : List α} {bs : List β}
    (h : List.Forall₂ R as bs) : (∀ a ∈ as, ∃ b ∈ bs, R a b) ∧ ∀ b ∈ bs, ∃ a ∈ as, R a b := by
  induction h with
  | nil => simp
  | cons hab _ ih =>
    obtain ⟨hleft, hright⟩ := ih
    constructor
    · exact List.forall_mem_cons.2 ⟨⟨_, by simp, hab⟩, fun a ha =>
        (hleft a ha).imp fun b hb => ⟨by simp [hb.1], hb.2⟩⟩
    · exact List.forall_mem_cons.2 ⟨⟨_, by simp, hab⟩, fun b hb =>
        (hright b hb).imp fun a ha => ⟨by simp [ha.1], ha.2⟩⟩

namespace Schema

/-- The definitions agree with each other. -/
@[mk_iff]
structure Consistent (definitions : List Definition) : Prop where
  schema_names : (definitions.map Definition.name).Nodup
  attribute_names : ∀ d ∈ definitions, (d.attributes.map AttributeDefinition.name).Nodup
  target : ∀ d ∈ definitions, ∀ a ∈ d.attributes, a.relation.isSome →
    ∃ t ∈ definitions, a.target = some t.name
  toMany_remote : ∀ d ∈ definitions, ∀ a ∈ d.attributes, a.relation = some .toMany →
    a.remote.isSome
  primaryKey : ∀ d ∈ definitions, ∃ a ∈ d.attributes, a.name = d.primaryKey
  remote : ∀ d ∈ definitions, ∀ a ∈ d.attributes, a.relation.isSome →
    ∀ t ∈ definitions, a.target = some t.name → ∀ remote ∈ a.remote,
      ∃ b ∈ t.attributes, b.name = remote

instance (definitions : List Definition) : Decidable (Consistent definitions) :=
  decidable_of_iff' _ (consistent_iff definitions)

/-- What an attribute holds by its definition, in a graph where `leads` says which schema has a
name: a value of the declared type, any if none is declared, or a relation if one is declared. -/
inductive AttributeDefinition.Declares {n : Nat} (leads : String → Fin n → Prop)
    (a : AttributeDefinition) : AttributeKind n → Prop where
  | scalar : a.relation = none → Declares leads a (.scalar (a.type.getD .any))
  | relation {c : Cardinality} {name : String} {target : Fin n} :
    a.relation = some c → a.target = some name → leads name target →
      Declares leads a (.relation ⟨c, a.nullable, target, a.remote⟩)

/-- A schema has what its definition says, its attributes in order. -/
structure Definition.Declares {n : Nat} (leads : String → Fin n → Prop) (d : Definition)
    (s : Schema n) : Prop where
  name_eq : s.name = d.name
  space_eq : s.space = d.space
  primaryKey_eq : s.primaryKey = d.primaryKey
  attributes : List.Forall₂ (fun a b => b.name = a.name ∧ a.Declares leads b.kind) d.attributes
    s.attributes

section Declares

variable {n : Nat} {leads leads' : String → Fin n → Prop} {d : Definition} {s : Schema n}

lemma AttributeDefinition.Declares.imp {a : AttributeDefinition} {k : AttributeKind n}
    (h : ∀ name i, leads name i → leads' name i) (ha : a.Declares leads k) :
    a.Declares leads' k := by
  cases ha with
  | scalar hscalar => exact .scalar hscalar
  | relation hc htarget hleads => exact .relation hc htarget (h _ _ hleads)

lemma Definition.Declares.imp (h : ∀ name i, leads name i → leads' name i)
    (hd : d.Declares leads s) : d.Declares leads' s :=
  { hd with attributes := hd.attributes.imp fun _ _ ⟨hname, ha⟩ => ⟨hname, ha.imp h⟩ }

lemma Definition.Declares.attribute?_isSome_iff (h : d.Declares leads s) {name : String} :
    (s.attribute? name).isSome ↔ ∃ a ∈ d.attributes, a.name = name := by
  have hnames : s.attributes.map Attribute.name = d.attributes.map AttributeDefinition.name := by
    rw [← List.forall₂_eq_eq_eq, List.forall₂_map_left_iff, List.forall₂_map_right_iff]
    exact h.attributes.flip.imp fun b a hab => hab.1
  have hmem : name ∈ s.attributes.map Attribute.name ↔
      name ∈ d.attributes.map AttributeDefinition.name := by rw [hnames]
  rw [attribute?, List.find?_isSome]
  simpa using hmem

/-- A relation of a schema is declared by an attribute of its definition. -/
lemma Definition.Declares.exists_attribute (h : d.Declares leads s) {name : String}
    {r : Relation n} (hr : (name, r) ∈ s.relations) :
    ∃ a ∈ d.attributes, a.name = name ∧ a.Declares leads (.relation r) := by
  obtain ⟨a, ha, rfl, hdeclares⟩ :=
    (exists_of_forall₂ h.attributes).2 _ (Schema.mem_relations_iff.1 hr)
  exact ⟨a, ha, rfl, hdeclares⟩

/-- An attribute that is declared as a relation is one. -/
lemma Definition.Declares.exists_relation (h : d.Declares leads s) {a : AttributeDefinition}
    (ha : a ∈ d.attributes) (hrelation : a.relation.isSome) :
    ∃ r, (a.name, r) ∈ s.relations ∧ a.Declares leads (.relation r) := by
  obtain ⟨⟨name, kind⟩, hb, rfl, hdeclares⟩ := (exists_of_forall₂ h.attributes).1 a ha
  cases hdeclares with
  | scalar hscalar => simp [hscalar] at hrelation
  | relation hc htarget hleads =>
    exact ⟨_, Schema.mem_relations_iff.2 hb, .relation hc htarget hleads⟩

end Declares

end Schema

namespace Graph

/-! ### Resolving a definition -/

section Resolving

variable {n : Nat} {position? : String → Option (Fin n)}

lemma exists_resolveKind_iff {schema : String} {a : Schema.AttributeDefinition} :
    (∃ k, resolveKind position? schema a = .ok k) ↔
      (a.relation.isSome → ∃ name, a.target = some name ∧ (position? name).isSome) ∧
        (a.relation = some .toMany → a.remote.isSome) := by
  rw [resolveKind]
  cases hrelation : a.relation with
  | none => simp
  | some c =>
    cases htarget : a.target with
    | none => simp
    | some name =>
      cases hposition : position? name with
      | none => simp [hposition]
      | some target =>
        have hremote : ¬(c = .toMany ∧ a.remote = none) ↔
            (some c = some .toMany → a.remote.isSome) := by
          rw [not_and, Option.some_inj, ← Option.ne_none_iff_isSome]
        rw [← hremote]
        by_cases hmissing : c = .toMany ∧ a.remote = none <;> simp [hmissing, hposition]

lemma declares_of_resolveKind {schema : String} {a : Schema.AttributeDefinition}
    {k : AttributeKind n} (h : resolveKind position? schema a = .ok k) :
    a.Declares (fun name i => position? name = some i) k := by
  rw [resolveKind] at h
  split at h
  · next hrelation =>
    cases h
    exact .scalar hrelation
  · next c hrelation =>
    split at h
    · cases h
    next name htarget =>
    split at h
    · cases h
    next target hposition =>
    split at h
    · cases h
    · cases h
      exact .relation hrelation htarget hposition

lemma exists_resolveAttributes_iff {schema : String} {seen : List String}
    {definitions : List Schema.AttributeDefinition} :
    (∃ as, resolveAttributes position? schema seen definitions = .ok as) ↔
      (definitions.map Schema.AttributeDefinition.name).Nodup ∧
        (∀ d ∈ definitions, d.name ∉ seen) ∧
        ∀ d ∈ definitions, ∃ k, resolveKind position? schema d = .ok k := by
  induction definitions generalizing seen with
  | nil => simp [resolveAttributes]
  | cons d rest ih =>
    rw [resolveAttributes]
    by_cases hseen : d.name ∈ seen
    · simp [hseen]
    · have hstep : (∃ as, (resolveKind position? schema d >>= fun kind =>
          resolveAttributes position? schema (d.name :: seen) rest >>= fun others =>
            .ok (⟨d.name, kind⟩ :: others)) = .ok as) ↔
          (∃ k, resolveKind position? schema d = .ok k) ∧
            ∃ as, resolveAttributes position? schema (d.name :: seen) rest = .ok as := by
        simp only [bind_eq_ok_iff]
        constructor
        · rintro ⟨_, k, hk, as, has, -⟩
          exact ⟨⟨k, hk⟩, as, has⟩
        · rintro ⟨⟨k, hk⟩, as, has⟩
          exact ⟨_, k, hk, as, has, rfl⟩
      have hnew : (∀ a ∈ rest, a.name ≠ d.name) ↔
          d.name ∉ rest.map Schema.AttributeDefinition.name := by simp
      rw [if_neg hseen, hstep, ih, List.map_cons, List.nodup_cons, List.forall_mem_cons,
        List.forall_mem_cons, ← hnew]
      simp only [List.mem_cons, not_or, imp_and, forall_and]
      tauto

lemma declares_of_resolveAttributes {schema : String} {seen : List String}
    {definitions : List Schema.AttributeDefinition} {as : List (Attribute n)}
    (h : resolveAttributes position? schema seen definitions = .ok as) :
    List.Forall₂ (fun d a => a.name = d.name ∧
      d.Declares (fun name i => position? name = some i) a.kind) definitions as := by
  induction definitions generalizing seen as with
  | nil =>
    cases h
    exact .nil
  | cons d rest ih =>
    rw [resolveAttributes] at h
    split at h
    · cases h
    · obtain ⟨kind, hkind, h⟩ := bind_eq_ok_iff.1 h
      obtain ⟨others, hothers, h⟩ := bind_eq_ok_iff.1 h
      cases h
      exact .cons ⟨rfl, declares_of_resolveKind hkind⟩ (ih hothers)

lemma exists_resolveSchema_iff {d : Schema.Definition} :
    (∃ s, resolveSchema position? d = .ok s) ↔
      (d.attributes.map Schema.AttributeDefinition.name).Nodup ∧
        (∀ a ∈ d.attributes, ∃ k, resolveKind position? d.name a = .ok k) ∧
        ∃ a ∈ d.attributes, a.name = d.primaryKey := by
  have hattributes : (∃ as, resolveAttributes position? d.name [] d.attributes = .ok as) ↔
      (d.attributes.map Schema.AttributeDefinition.name).Nodup ∧
        ∀ a ∈ d.attributes, ∃ k, resolveKind position? d.name a = .ok k := by
    rw [exists_resolveAttributes_iff]
    simp
  rw [resolveSchema, ← and_assoc, ← hattributes]
  simp only [bind_eq_ok_iff, List.any_eq_true, decide_eq_true_eq]
  constructor
  · rintro ⟨s, as, has, h⟩
    split at h
    · next hkey => exact ⟨⟨as, has⟩, hkey⟩
    · cases h
  · rintro ⟨⟨as, has⟩, hkey⟩
    exact ⟨_, as, has, if_pos hkey⟩

lemma declares_of_resolveSchema {d : Schema.Definition} {s : Schema n}
    (h : resolveSchema position? d = .ok s) :
    d.Declares (fun name i => position? name = some i) s := by
  obtain ⟨as, has, h⟩ := bind_eq_ok_iff.1 h
  split at h
  · cases h
    exact ⟨rfl, rfl, rfl, declares_of_resolveAttributes has⟩
  · cases h

end Resolving

lemma badRemote?_eq_none_iff {g : Graph} :
    g.badRemote? = none ↔ ∀ i, ∀ edge ∈ (g.schema i).relations, ∀ remote ∈ edge.2.remote,
      ((g.schema edge.2.target).attribute? remote).isSome := by
  have hedges : ∀ edge, edge ∈ g.schemas.toList.flatMap Schema.relations ↔
      ∃ i, edge ∈ (g.schema i).relations := by
    intro edge
    rw [List.mem_flatMap]
    constructor
    · rintro ⟨s, hs, hedge⟩
      obtain ⟨i, hi, rfl⟩ := Vector.mem_iff_getElem.1 (Vector.mem_toList_iff.1 hs)
      exact ⟨⟨i, hi⟩, hedge⟩
    · rintro ⟨i, hedge⟩
      exact ⟨_, Vector.mem_toList_iff.2 (Vector.getElem_mem i.isLt), hedge⟩
  rw [badRemote?, List.findSome?_eq_none_iff]
  constructor
  · intro h i edge hedge remote hremote
    have hnone := h edge ((hedges edge).2 ⟨i, hedge⟩)
    by_contra hmissing
    rw [Option.mem_def] at hremote
    simp [hremote, hmissing] at hnone
  · intro h edge hedge
    obtain ⟨i, hedge⟩ := (hedges edge).1 hedge
    have hexists := h i edge hedge
    dsimp only
    split
    · rfl
    · next remote hremote => rw [if_pos (hexists remote hremote)]

/-- A graph has a schema for each definition, at the place of this definition.  Schemas are found by
their names, and relations lead to the schemas whose names the definitions give. -/
structure Declared (g : Graph) (definitions : List Schema.Definition) : Prop where
  size_eq : g.size = definitions.length
  schema : ∀ (i : g.Id) (d : Schema.Definition), definitions[i.val]? = some d →
    d.Declares (fun name j => (g.schema j).name = name) (g.schema i)
  find?_eq_some_iff : ∀ name i, g.find? name = some i ↔ (g.schema i).name = name

lemma declared_of_build {definitions : List Schema.Definition} {g : Graph}
    (h : build definitions = .ok g) : g.Declared definitions := by
  have hfind : ∀ name i, g.find? name = some i ↔ (g.schema i).name = name := by
    intro name i
    constructor
    · exact name_of_find?
    · rintro rfl
      exact find?_name h i
  obtain ⟨-, schemas, hschemas, rfl, -⟩ := build_eq_ok_iff.1 h
  refine ⟨rfl, fun i d hd => ?_, hfind⟩
  obtain ⟨hi, rfl⟩ := List.getElem?_eq_some_iff.1 hd
  refine (declares_of_resolveSchema (hschemas i)).imp fun name j hj => ?_
  rw [← name_of_position? hj]
  exact name_of_resolveSchema (hschemas j)

/-- The primary key of every schema is one of its attributes. -/
def DeclaresKeys (g : Graph) : Prop :=
  ∀ i, ((g.schema i).attribute? (g.schema i).primaryKey).isSome

lemma declaresKeys_of_build {definitions : List Schema.Definition} {g : Graph}
    (h : build definitions = .ok g) : g.DeclaresKeys := by
  obtain ⟨-, schemas, hschemas, rfl, -⟩ := build_eq_ok_iff.1 h
  intro i
  have hdeclares := declares_of_resolveSchema (hschemas i)
  have hkey := (exists_resolveSchema_iff.1 ⟨_, hschemas i⟩).2.2
  rw [← hdeclares.primaryKey_eq] at hkey
  exact hdeclares.attribute?_isSome_iff.2 hkey

/-- The remote attributes in the graph of definitions exist if those in the definitions do. -/
lemma badRemote?_eq_none_iff_definitions {definitions : List Schema.Definition}
    (hnodup : (definitions.map Schema.Definition.name).Nodup)
    {schemas : Vector (Schema definitions.length) definitions.length}
    (hschemas : Resolves definitions schemas) :
    (⟨definitions.length, schemas⟩ : Graph).badRemote? = none ↔
      ∀ d ∈ definitions, ∀ a ∈ d.attributes, a.relation.isSome →
        ∀ t ∈ definitions, a.target = some t.name → ∀ remote ∈ a.remote,
          ∃ b ∈ t.attributes, b.name = remote := by
  have hdeclares := fun i => declares_of_resolveSchema (hschemas i)
  rw [badRemote?_eq_none_iff]
  constructor
  · intro h d hd a ha hrelation t ht htarget remote hremote
    obtain ⟨i, hi, rfl⟩ := List.mem_iff_getElem.1 hd
    obtain ⟨r, hr, hrelated⟩ := (hdeclares ⟨i, hi⟩).exists_relation ha hrelation
    cases hrelated with
    | @relation c name target hc htarget' hposition =>
      -- no other definition has the name of the target
      have hname : definitions[target].name = t.name :=
        (name_of_position? hposition).trans (Option.some.inj (htarget'.symm.trans htarget))
      have hdefinition : definitions[target] = t :=
        List.inj_on_of_nodup_map hnodup (List.getElem_mem target.isLt) ht hname
      rw [← hdefinition]
      exact (hdeclares target).attribute?_isSome_iff.1 (h _ _ hr remote hremote)
  · intro h i ⟨name, r⟩ hr remote hremote
    obtain ⟨a, ha, -, hrelated⟩ := (hdeclares i).exists_attribute hr
    cases hrelated with
    | @relation c name target hc htarget hposition =>
      have hname : definitions[target].name = name := name_of_position? hposition
      refine (hdeclares target).attribute?_isSome_iff.2 ?_
      exact h _ (List.getElem_mem i.isLt) a ha (by simp [hc]) _ (List.getElem_mem target.isLt)
        (by rw [htarget, ← hname]; rfl) remote hremote

/-- Definitions make a graph if their names differ, each of them is resolved, and the remote
attributes that they name exist. -/
lemma exists_build_iff {definitions : List Schema.Definition} :
    (∃ g, build definitions = .ok g) ↔
      (definitions.map Schema.Definition.name).Nodup ∧
        (∀ d ∈ definitions, ∃ s, resolveSchema (position? definitions) d = .ok s) ∧
        ∀ d ∈ definitions, ∀ a ∈ d.attributes, a.relation.isSome →
          ∀ t ∈ definitions, a.target = some t.name → ∀ remote ∈ a.remote,
            ∃ b ∈ t.attributes, b.name = remote := by
  constructor
  · rintro ⟨g, hg⟩
    obtain ⟨hnodup, schemas, hschemas, rfl, hbad⟩ := build_eq_ok_iff.1 hg
    refine ⟨hnodup, fun d hd => ?_, (badRemote?_eq_none_iff_definitions hnodup hschemas).1 hbad⟩
    obtain ⟨i, hi, rfl⟩ := List.mem_iff_getElem.1 hd
    exact ⟨_, hschemas ⟨i, hi⟩⟩
  · rintro ⟨hnodup, hresolved, hremote⟩
    choose s hs using fun i : Fin definitions.length => hresolved _ (List.getElem_mem i.isLt)
    have hschemas : Resolves definitions (Vector.ofFn s) := fun i => by simpa using hs i
    exact ⟨_, build_eq_ok_iff.2 ⟨hnodup, _, hschemas, rfl,
      (badRemote?_eq_none_iff_definitions hnodup hschemas).2 hremote⟩⟩

/-- A definition is resolved if it is consistent with the others, remote attributes apart. -/
lemma exists_resolveSchema_iff_definitions {definitions : List Schema.Definition}
    {d : Schema.Definition} :
    (∃ s, resolveSchema (position? definitions) d = .ok s) ↔
      (d.attributes.map Schema.AttributeDefinition.name).Nodup ∧
        (∀ a ∈ d.attributes, a.relation.isSome → ∃ t ∈ definitions, a.target = some t.name) ∧
        (∀ a ∈ d.attributes, a.relation = some .toMany → a.remote.isSome) ∧
        ∃ a ∈ d.attributes, a.name = d.primaryKey := by
  have htarget : ∀ a : Schema.AttributeDefinition,
      (∃ name, a.target = some name ∧ (position? definitions name).isSome) ↔
        ∃ t ∈ definitions, a.target = some t.name := by
    intro a
    simp only [position?_isSome_iff]
    constructor
    · rintro ⟨_, htarget, t, ht, rfl⟩
      exact ⟨t, ht, htarget⟩
    · rintro ⟨t, ht, htarget⟩
      exact ⟨_, htarget, t, ht, rfl⟩
  simp only [exists_resolveSchema_iff, exists_resolveKind_iff, htarget, imp_and, forall_and,
    and_assoc]

end Graph

/-- **Graphs are built from consistent definitions.**  Definitions make a graph if and only if they
are consistent, and this graph then has exactly what they say. -/
theorem build_iff_consistent (definitions : List Schema.Definition) :
    ((∃ g, Graph.build definitions = .ok g) ↔ Schema.Consistent definitions) ∧
      ∀ g, Graph.build definitions = .ok g → g.Declared definitions := by
  refine ⟨?_, fun g => Graph.declared_of_build⟩
  rw [Graph.exists_build_iff, Schema.consistent_iff]
  simp only [Graph.exists_resolveSchema_iff_definitions, imp_and, forall_and, and_assoc]

/-- Authors and their books, which point at each other. -/
def libraryDefinitions : List Schema.Definition :=
  [Schema.Definition.ofName "Author" |>.scalar "id" .int |>.toMany "books" "Book" "author",
   Schema.Definition.ofName "Book" |>.scalar "id" .int |>.toOne "author" "Author" false]

theorem build_iff_consistent_library :
    Schema.Consistent libraryDefinitions ∧
      ∃ g, Graph.build libraryDefinitions = .ok g ∧ g.Declared libraryDefinitions := by
  have hconsistent : Schema.Consistent libraryDefinitions := by decide
  obtain ⟨hiff, hdeclared⟩ := build_iff_consistent libraryDefinitions
  obtain ⟨g, hg⟩ := hiff.2 hconsistent
  exact ⟨hconsistent, g, hg, hdeclared g hg⟩

end Retrieval
