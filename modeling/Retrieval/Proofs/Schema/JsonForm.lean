/-
# Definitions and their JSON form

A definition is written as an object of its fields, in which what is not given is left out and the
members may stand in any order.  It is read again from every such form.  An array of definitions is
not mistaken for a definition, although one may be written as an array of its fields.
-/
import Retrieval.Proofs.Json.Layout
import Retrieval.Proofs.Schema.Consistency

namespace Retrieval

namespace Json

/-! ### Members in any order -/

lemma member?_eq_lookup (name : String) (members : List (String × Json)) :
    member? name members = members.lookup name := by
  induction members with
  | nil => rfl
  | cons m rest ih =>
    obtain ⟨key, value⟩ := m
    rw [member?, List.lookup_cons, ih]
    by_cases h : key = name
    · simp [h]
    · simp [h, beq_false_of_ne (Ne.symm h)]

/-- The order of members of different names does not show in the fields of a record. -/
lemma fields?_of_perm {ms ms' : List (String × Json)} (hperm : ms.Perm ms')
    (h : (ms'.map Prod.fst).Nodup) (names : List String) (required : Nat) :
    (object ms).fields? names required = some (member? · ms') := by
  have hnodup : (ms.map Prod.fst).Nodup := (hperm.map Prod.fst).nodup_iff.2 h
  have hdistinct : distinctFields names ms = true := by
    rw [distinctFields, List.all_eq_true]
    intro name _
    have hcount := List.nodup_iff_count_le_one.1 hnodup name
    rw [List.count, List.countP_map, List.countP_eq_length_filter] at hcount
    exact decide_eq_true (by simpa [Function.comp_def, beq_eq_decide] using hcount)
  have hsame : (member? · ms) = (member? · ms') := by
    funext name
    rw [member?_eq_lookup, member?_eq_lookup, lookup_eq_of_perm hperm h]
  rw [fields?, hdistinct, if_pos rfl, hsame]

lemma setMember_perm {name : String} {v : Json} {members : List (String × Json)}
    (h : name ∉ members.map Prod.fst) :
    (setMember name v members).Perm ((name, v) :: members) := by
  induction members with
  | nil => exact .refl _
  | cons m rest ih =>
    obtain ⟨key, old⟩ := m
    obtain ⟨hne, hrest⟩ : name ≠ key ∧ name ∉ rest.map Prod.fst := by simpa using h
    rw [setMember, if_neg hne]
    split
    · exact .refl _
    · exact ((ih hrest).cons _).trans (.swap _ _ _)

/-- Sorting members of different names only changes their order. -/
lemma sortMembers_perm {members : List (String × Json)} (h : (members.map Prod.fst).Nodup) :
    (sortMembers members).Perm members := by
  have hfold : ∀ sorted : List (String × Json), ((members ++ sorted).map Prod.fst).Nodup →
      (members.foldl (fun sorted m => setMember m.1 m.2 sorted) sorted).Perm
        (members ++ sorted) := by
    clear h
    induction members with
    | nil => exact fun _ _ => .refl _
    | cons m rest ih =>
      intro sorted hnodup
      obtain ⟨name, v⟩ := m
      have hnew : name ∉ sorted.map Prod.fst := by
        rw [List.cons_append, List.map_cons, List.map_append, List.nodup_cons] at hnodup
        exact fun h => hnodup.1 (List.mem_append_right _ h)
      have hset : (setMember name v sorted).Perm ((name, v) :: sorted) := setMember_perm hnew
      have hmiddle : (rest ++ setMember name v sorted).Perm ((name, v) :: rest ++ sorted) :=
        (hset.append_left rest).trans List.perm_middle
      exact (ih _ ((hmiddle.map Prod.fst).nodup_iff.2 hnodup)).trans hmiddle
  rw [sortMembers]
  simpa using hfold [] (by simpa using h)

/-! ### Optional members -/

section

variable {α : Type} {read? : Json → Option α} {write : α → Json}

lemma member?_optionalMember (name other : String) (v : Option Json) :
    member? name (optionalMember other v) = if other = name then v else none := by
  cases v with
  | none => simp [optionalMember, member?]
  | some v => simp [optionalMember, member?]

lemma member?_optionalMember_append (name other : String) (v : Option Json)
    (rest : List (String × Json)) :
    member? name (optionalMember other v ++ rest) =
      if other = name then v.or (member? name rest) else member? name rest := by
  cases v with
  | none => simp [optionalMember]
  | some v => simp [optionalMember, member?]

lemma optional?_map (hread : ∀ a, read? (write a) = some a) (hnull : ∀ a, write a ≠ null)
    (a : Option α) : optional? read? (a.map write) = some a := by
  cases a with
  | none => rfl
  | some a =>
    rw [Option.map_some, optional?.eq_def]
    split
    · next h => cases h
    · next h => exact absurd (Option.some.inj h) (hnull a)
    · next h =>
      obtain rfl := Option.some.inj h
      rw [hread, Option.map_some]

lemma optional?_text (s : Option String) : optional? string? (s.map .string) = some s := by
  have hread : ∀ s, string? (.string s) = some s := fun _ => rfl
  exact optional?_map hread (by simp) s

lemma mem_optionalMember {name : String} {v : Option Json} {m : String × Json} :
    m ∈ optionalMember name v ↔ ∃ x, v = some x ∧ m = (name, x) := by
  cases v <;> simp [optionalMember]

/-- Items are read from the array of their forms. -/
lemma list?_of_forall₂ {as : List α} {forms : List Json}
    (h : List.Forall₂ (fun a v => read? v = some a) as forms) :
    list? read? (.array forms) = some as := by
  rw [list?]
  induction h with
  | nil => rfl
  | cons ha _ ih => simp [ha, ih]

end

end Json

namespace Schema

/-! ### Attributes -/

namespace AttributeDefinition

/-- The members of the JSON form, in the order of the fields. -/
def members (a : AttributeDefinition) : List (String × Json) :=
  [("name", .string a.name)] ++
    Json.optionalMember "type" (a.type.map fun t => .string t.name) ++
    Json.optionalMember "relation" (a.relation.map fun c => .string c.name) ++
    Json.optionalMember "target" (a.target.map .string) ++
    [("nullable", .bool a.nullable)] ++
    Json.optionalMember "remote" (a.remote.map .string)

/-- The JSON forms of an attribute: its members in any order. -/
def Form (a : AttributeDefinition) (v : Json) : Prop := ∃ ms, v = .object ms ∧ ms.Perm a.members

lemma names_members_sublist (a : AttributeDefinition) :
    (a.members.map Prod.fst).Sublist fieldNames := by
  have hoptional (name : String) (v : Option Json) :
      ((Json.optionalMember name v).map Prod.fst).Sublist [name] := by
    cases v <;> simp [Json.optionalMember]
  simp only [members, List.map_append]
  exact ((((((List.Sublist.refl ["name"]).append (hoptional "type" _)).append
    (hoptional "relation" _)).append (hoptional "target" _)).append
    (List.Sublist.refl ["nullable"])).append (hoptional "remote" _))

lemma nodup_members (a : AttributeDefinition) : (a.members.map Prod.fst).Nodup :=
  a.names_members_sublist.nodup (by decide)

/-- The form in which an attribute is written has its members sorted. -/
lemma form_toJson (a : AttributeDefinition) : a.Form a.toJson :=
  ⟨_, rfl, Json.sortMembers_perm a.nodup_members⟩

lemma ofJson?_of_form {a : AttributeDefinition} {v : Json} (h : a.Form v) : ofJson? v = some a := by
  obtain ⟨ms, rfl, hperm⟩ := h
  have htype : Json.optional? (fun t => t.enumerator?.bind ValueType.ofName?)
      (a.type.map fun t => .string t.name) = some a.type :=
    Json.optional?_map (fun t => ValueType.ofName?_name t) (by simp) a.type
  have hrelation : Json.optional? (fun c => c.enumerator?.bind Cardinality.ofName?)
      (a.relation.map fun c => .string c.name) = some a.relation :=
    Json.optional?_map (fun c => Cardinality.ofName?_name c) (by simp) a.relation
  rw [ofJson?, Json.fields?_of_perm hperm a.nodup_members]
  simp [members, Json.member?, Json.member?_optionalMember, Json.member?_optionalMember_append,
    htype, hrelation, Json.optional?_text, Json.string?, Json.withDefault?, Json.bool?]

lemma numberFree_of_form {a : AttributeDefinition} {v : Json} (h : a.Form v) (depth : Nat) :
    Json.NumberFree (depth + 1) v := by
  obtain ⟨ms, rfl, hperm⟩ := h
  refine .object fun m hm => ?_
  have hmember := hperm.mem_iff.1 hm
  simp only [members, List.mem_append, List.mem_singleton, Json.mem_optionalMember,
    Option.map_eq_some_iff] at hmember
  rcases hmember with ((((rfl | ⟨_, ⟨t, -, rfl⟩, rfl⟩) | ⟨_, ⟨c, -, rfl⟩, rfl⟩) |
    ⟨_, ⟨target, -, rfl⟩, rfl⟩) | rfl) | ⟨_, ⟨remote, -, rfl⟩, rfl⟩
  · exact .string _
  · exact .string _
  · exact .string _
  · exact .string _
  · exact .bool _
  · exact .string _

end AttributeDefinition

/-! ### Definitions -/

namespace Definition

/-- The members of the JSON form, in the order of the fields, for given forms of the attributes. -/
def members (d : Definition) (attributes : List Json) : List (String × Json) :=
  [("name", .string d.name)] ++
    Json.optionalMember "namespace" (d.space.map .string) ++
    [("primary_key", .string d.primaryKey), ("attributes", .array attributes)]

/-- The JSON forms of a definition: its members in any order, and so those of each attribute. -/
def Form (d : Definition) (v : Json) : Prop :=
  ∃ attributes ms, List.Forall₂ AttributeDefinition.Form d.attributes attributes ∧
    v = .object ms ∧ ms.Perm (d.members attributes)

variable {d : Definition} {v : Json}

lemma names_members_sublist (d : Definition) (attributes : List Json) :
    ((d.members attributes).map Prod.fst).Sublist fieldNames := by
  cases h : d.space <;> simp [members, h, Json.optionalMember, fieldNames]

lemma nodup_members (d : Definition) (attributes : List Json) :
    ((d.members attributes).map Prod.fst).Nodup :=
  (d.names_members_sublist attributes).nodup (by decide)

/-- The form in which a definition is written has its members sorted. -/
lemma form_toJson (d : Definition) : d.Form d.toJson := by
  refine ⟨d.attributes.map AttributeDefinition.toJson, _, ?_, rfl,
    Json.sortMembers_perm (d.nodup_members _)⟩
  rw [List.forall₂_map_right_iff, List.forall₂_same]
  exact fun a _ => a.form_toJson

lemma ofJson?_of_form (h : d.Form v) : ofJson? v = some d := by
  obtain ⟨attributes, ms, hattributes, rfl, hperm⟩ := h
  have hlist : Json.list? AttributeDefinition.ofJson? (.array attributes) = some d.attributes :=
    Json.list?_of_forall₂ (hattributes.imp fun _ _ => AttributeDefinition.ofJson?_of_form)
  rw [ofJson?, Json.fields?_of_perm hperm (d.nodup_members _)]
  simp [members, Json.member?, Json.member?_optionalMember_append,
    hlist, Json.optional?_text, Json.string?, Json.withDefault?]

lemma numberFree_of_form (h : d.Form v) (depth : Nat) : Json.NumberFree (depth + 3) v := by
  obtain ⟨attributes, ms, hattributes, rfl, hperm⟩ := h
  refine .object fun m hm => ?_
  have hmember := hperm.mem_iff.1 hm
  simp only [members, List.mem_append, List.mem_cons, List.not_mem_nil, or_false,
    Json.mem_optionalMember, Option.map_eq_some_iff] at hmember
  rcases hmember with (rfl | ⟨_, ⟨space, -, rfl⟩, rfl⟩) | rfl | rfl
  · exact .string _
  · exact .string _
  · exact .string _
  · refine .array fun form hform => ?_
    obtain ⟨a, -, ha⟩ := (exists_of_forall₂ hattributes).2 form hform
    exact AttributeDefinition.numberFree_of_form ha depth

/-- An array of definitions is not read as the array of the fields of one. -/
lemma ofJson?_array_of_form {ds : List Definition} {forms : List Json}
    (h : List.Forall₂ Form ds forms) : ofJson? (.array forms) = none := by
  cases h with
  | nil => rfl
  | cons hform _ =>
    -- the first item would have to be the name, and it is no text
    obtain ⟨attributes, ms, -, rfl, -⟩ := hform
    rw [ofJson?, Json.fields?]
    split <;> rfl

end Definition

end Schema

end Retrieval
