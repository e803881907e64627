/-
# Undeclared members

What a schema does not declare is never rendered and has no influence on what is rendered: a record
and what is left of it without its undeclared members are rendered alike.
-/
import Retrieval.Proofs.Render.Links
import Retrieval.Proofs.Schema.Consistency

namespace Retrieval

variable {g : Graph}

namespace Graph

mutual

/-- A record of a schema without the members that are not declared, the records in it that relations
hold included.  A value that is no record stays as it is. -/
def strip (g : Graph) (i : g.Id) : Json → Json
  | .object members => .object (stripMembers g i members)
  | .null => .null
  | .bool b => .bool b
  | .number x => .number x
  | .string s => .string s
  | .array items => .array items

/-- The declared members of a record, without what is not declared in them. -/
def stripMembers (g : Graph) (i : g.Id) : List (String × Json) → List (String × Json)
  | [] => []
  | (name, v) :: rest =>
    match (g.schema i).attribute? name with
    | none => stripMembers g i rest
    | some a =>
      let stripped :=
        match a.kind with
        | .scalar _ => v
        | .relation r =>
          match r.cardinality with
          | .toOne => strip g r.target v
          | .toMany => stripEach g r.target v
      (name, stripped) :: stripMembers g i rest

/-- The records in an array, each without what is not declared.  A value that is no array stays as
it is. -/
def stripEach (g : Graph) (i : g.Id) : Json → Json
  | .array items => .array (stripItems g i items)
  | .null => .null
  | .bool b => .bool b
  | .number x => .number x
  | .string s => .string s
  | .object members => .object members

/-- Records without what is not declared. -/
def stripItems (g : Graph) (i : g.Id) : List Json → List Json
  | [] => []
  | v :: rest => strip g i v :: stripItems g i rest

end

/-- What is left of the member under an attribute. -/
def stripAttribute (g : Graph) : AttributeKind g.size → Json → Json
  | .scalar _, v => v
  | .relation r, v =>
    match r.cardinality with
    | .toOne => g.strip r.target v
    | .toMany => g.stripEach r.target v

lemma stripMembers_cons (i : g.Id) (name : String) (v : Json) (rest : List (String × Json)) :
    g.stripMembers i ((name, v) :: rest) =
      (((g.schema i).attribute? name).map fun a => (name, g.stripAttribute a.kind v)).toList ++
        g.stripMembers i rest := by
  rw [stripMembers]
  cases (g.schema i).attribute? name with
  | none => rfl
  | some a =>
    obtain ⟨other, kind⟩ := a
    cases kind <;> rfl

/-- A declared member is found again, less what is not declared in it. -/
lemma member?_stripMembers (i : g.Id) (name : String) (members : List (String × Json)) :
    Json.member? name (g.stripMembers i members) =
      ((g.schema i).attribute? name).bind fun a =>
        (Json.member? name members).map (g.stripAttribute a.kind) := by
  induction members with
  | nil => simp [stripMembers, Json.member?]
  | cons member rest ih =>
    obtain ⟨other, v⟩ := member
    rw [stripMembers_cons]
    by_cases hname : other = name
    · subst hname
      rw [Json.member?, if_pos rfl]
      cases ha : (g.schema i).attribute? other with
      | none => simp [ih, ha]
      | some a => simp [Json.member?]
    · rw [Json.member?, if_neg hname, ← ih]
      cases (g.schema i).attribute? other with
      | none => rfl
      | some a => exact if_neg hname

end Graph

namespace Links

/-- A key has the same text in a filter without what is not declared in it. -/
lemma keyText?_stripAttribute (kind : AttributeKind g.size) (v : Json) :
    keyText? (g.stripAttribute kind v) = keyText? v := by
  cases kind with
  | scalar t => rfl
  | relation r =>
    rw [Graph.stripAttribute]
    cases r.cardinality with
    | toOne => cases v <;> simp [Graph.strip, keyText?]
    | toMany => cases v <;> simp [Graph.stripEach, keyText?]

/-- The links of a declared member stay as they are. -/
lemma bind_address?_stripMembers (links : Links) (target : Schema g.size) (kind attr : String)
    {i : g.Id} {name : String} (h : ((g.schema i).attribute? name).isSome)
    (members : List (String × Json)) :
    (Json.member? name (g.stripMembers i members)).bind (links.address? target kind attr) =
      (Json.member? name members).bind (links.address? target kind attr) := by
  obtain ⟨a, ha⟩ := Option.isSome_iff_exists.1 h
  rw [Graph.member?_stripMembers, ha, Option.bind_some]
  cases Json.member? name members with
  | none => rfl
  | some v =>
    rw [Option.map_some, Option.bind_some, Option.bind_some, address?, address?,
      keyText?_stripAttribute]

end Links

namespace Render

/-! ### Envelopes -/

/-- The envelope of a to-one relation stays as it is if what is rendered in it does. -/
lemma toOneEnvelope_strip (hg : g.DeclaresKeys) (links : Links) {i : g.Id} {budget : Nat} {v : Json}
    {rendered rendered' : Unit → Json} (h : ∀ u, rendered u = rendered' u) :
    toOneEnvelope links (g.schema i) budget (g.strip i v) rendered =
      toOneEnvelope links (g.schema i) budget v rendered' := by
  cases v with
  | object members =>
    have hlink : (Json.member? (g.schema i).primaryKey (g.stripMembers i members)).bind
          (links.detail? (g.schema i)) =
        (Json.member? (g.schema i).primaryKey members).bind (links.detail? (g.schema i)) :=
      links.bind_address?_stripMembers _ _ _ (hg i) members
    rw [Graph.strip, toOneEnvelope, toOneEnvelope, h, hlink]
  | _ => rw [Graph.strip]; rfl

/-- The envelope of a to-many relation stays as it is if what is rendered in it does. -/
lemma toManyEnvelope_stripEach {link : Option String} {isPlanned : Bool} {i : g.Id} {v : Json}
    {rendered rendered' : Unit → Json} (h : ∀ u, rendered u = rendered' u) :
    toManyEnvelope link isPlanned (g.stripEach i v) rendered =
      toManyEnvelope link isPlanned v rendered' := by
  cases v with
  | array items =>
    cases items with
    | nil => rw [Graph.stripEach, Graph.stripItems]; rfl
    | cons item rest =>
      rw [Graph.stripEach, Graph.stripItems]
      show (if isPlanned then Envelope.expanded (rendered ()) link else .linkOnly link) =
        if isPlanned then .expanded (rendered' ()) link else .linkOnly link
      rw [h]
  | _ => rw [Graph.stripEach]; rfl

lemma absentEnvelopes_stripMembers (hg : g.DeclaresKeys) (links : Links) (i : g.Id)
    (members : List (String × Json)) :
    absentEnvelopes g links i (g.stripMembers i members) = absentEnvelopes g links i members := by
  rw [absentEnvelopes, absentEnvelopes]
  refine List.filterMap_congr fun edge hr => ?_
  obtain ⟨name, r⟩ := edge
  have hmember : (Json.member? name (g.stripMembers i members)).isNone =
      (Json.member? name members).isNone := by
    obtain ⟨a, ha⟩ := Option.isSome_iff_exists.1 (Schema.isSome_attribute?_of_mem_relations hr)
    rw [Graph.member?_stripMembers, ha, Option.bind_some, Option.isNone_map]
  have hlink : listLink? links (g.schema r.target) name r
        (Json.member? (g.schema i).primaryKey (g.stripMembers i members)) =
      listLink? links (g.schema r.target) name r (Json.member? (g.schema i).primaryKey members) :=
    links.bind_address?_stripMembers _ _ _ (hg i) members
  dsimp only
  rw [hmember, hlink]

/-! ### Records -/

mutual

/-- What is not declared in a record has no influence on how it is rendered. -/
lemma entity_strip (hg : g.DeclaresKeys) (links : Links) (v : Json) (i : g.Id)
    (nodes : Option (List (String × Plan.Node g.size))) (budget : Nat) :
    entity g links i nodes budget (g.strip i v) = entity g links i nodes budget v := by
  match v with
  | .object members =>
    rw [Graph.strip, entity, entity, absentEnvelopes_stripMembers hg]
    dsimp only
    rw [declared_stripMembers hg links members i nodes budget]
    intro target attr
    exact links.bind_address?_stripMembers target "list" attr (hg i) members
  | .null | .bool _ | .number _ | .string _ | .array _ => rw [Graph.strip]

/-- What is not declared among members has no influence either.  Of the key of their owner, members
use only the links. -/
lemma declared_stripMembers (hg : g.DeclaresKeys) (links : Links) (members : List (String × Json))
    (i : g.Id) (nodes : Option (List (String × Plan.Node g.size))) (budget : Nat)
    {ownerKey ownerKey' : Option Json}
    (hlinks : ∀ (target : Schema g.size) (remote : String),
      ownerKey.bind (links.list? target remote) = ownerKey'.bind (links.list? target remote)) :
    declared g links i nodes budget ownerKey (g.stripMembers i members) =
      declared g links i nodes budget ownerKey' members := by
  match members with
  | [] => rw [Graph.stripMembers, declared, declared]
  | (name, v) :: rest =>
    have hrest := declared_stripMembers hg links rest i nodes budget hlinks
    rw [Graph.stripMembers_cons]
    cases ha : (g.schema i).attribute? name with
    | none =>
      rw [declared, ha]
      exact hrest
    | some a =>
      rw [Option.map_some, Option.toList_some, List.singleton_append, declared, declared, ha, hrest]
      dsimp only
      cases a.kind with
      | scalar t => rfl
      | relation r =>
        rw [Graph.stripAttribute]
        dsimp only
        cases r.cardinality with
        | toOne =>
          dsimp only
          have hsame := entity_strip hg links v r.target (childrenOf nodes name) (budget - 1)
          rw [toOneEnvelope_strip hg links fun _ => hsame]
        | toMany =>
          dsimp only
          have hlink : listLink? links (g.schema r.target) name r ownerKey =
              listLink? links (g.schema r.target) name r ownerKey' := hlinks _ _
          have hsame := each_stripEach hg links v r.target (childrenOf nodes name) budget
          rw [hlink, toManyEnvelope_stripEach fun _ => hsame]

lemma each_stripEach (hg : g.DeclaresKeys) (links : Links) (v : Json) (i : g.Id)
    (nodes : Option (List (String × Plan.Node g.size))) (budget : Nat) :
    each g links i nodes budget (g.stripEach i v) = each g links i nodes budget v := by
  match v with
  | .array items => rw [Graph.stripEach, each, each, entities_stripItems hg links items]
  | .null | .bool _ | .number _ | .string _ | .object _ => rw [Graph.stripEach]

lemma entities_stripItems (hg : g.DeclaresKeys) (links : Links) (items : List Json) (i : g.Id)
    (nodes : Option (List (String × Plan.Node g.size))) (budget : Nat) :
    entities g links i nodes budget (g.stripItems i items) =
      entities g links i nodes budget items := by
  match items with
  | [] => rw [Graph.stripItems]
  | v :: rest =>
    rw [Graph.stripItems, entities, entities, entity_strip hg links v,
      entities_stripItems hg links rest]

end

/-! ### What is rendered -/

section Declared

variable {links : Links} {i : g.Id} {nodes : Option (List (String × Plan.Node g.size))}
  {budget : Nat}

lemma isSome_of_mem_declared {ownerKey : Option Json} {members : List (String × Json)}
    {member : String × Json} (h : member ∈ declared g links i nodes budget ownerKey members) :
    ((g.schema i).attribute? member.1).isSome := by
  induction members with
  | nil =>
    rw [declared] at h
    cases h
  | cons m rest ih =>
    obtain ⟨name, raw⟩ := m
    rw [declared] at h
    cases ha : (g.schema i).attribute? name with
    | none =>
      rw [ha] at h
      exact ih h
    | some a =>
      simp only [ha] at h
      -- whatever its kind, the attribute is rendered under its own name
      have hname : member.1 = name ∨ member ∈ declared g links i nodes budget ownerKey rest := by
        split at h
        all_goals
          rcases List.mem_cons.1 h with rfl | h
          · exact .inl rfl
          · exact .inr h
      rcases hname with rfl | h
      · rw [ha]
        rfl
      · exact ih h

/-- A rendered record has only declared members. -/
lemma isSome_of_entity_eq {v : Json} {members : List (String × Json)}
    (h : entity g links i nodes budget v = .object members) {member : String × Json}
    (hmember : member ∈ members) : ((g.schema i).attribute? member.1).isSome := by
  cases v with
  | object raws =>
    rw [entity] at h
    cases h
    rcases mem_foldl_setMember hmember with habsent | hdeclared
    · obtain ⟨r, hr, -⟩ := mem_absentEnvelopes_iff.1 habsent
      exact Schema.isSome_attribute?_of_mem_relations hr
    · exact isSome_of_mem_declared hdeclared
  | _ =>
    rw [entity] at h
    cases h

end Declared

end Render

/-- Whatever value is rendered, the records inside are rendered themselves. -/
lemma Inside.exists_entity (hg : ∀ j, (g.schema j).Distinct) {links : Links} {root i : g.Id}
    {nodes : Option (List (String × Plan.Node g.size))} {budget : Nat} {record v : Json}
    (h : Inside root (Render.entity g links root nodes budget record) i v) :
    ∃ nodes budget raw, v = Render.entity g links i nodes budget raw := by
  induction h with
  | root => exact ⟨nodes, budget, record, rfl⟩
  | toOne _ hr hc hcontent ih =>
    obtain ⟨_, _, _, rfl⟩ := ih
    obtain ⟨-, raw, rfl⟩ := Render.exists_of_content?_toOne (hg _) hr hc hcontent
    exact ⟨_, _, raw, rfl⟩
  | toMany _ hr hc hcontent hitem ih =>
    obtain ⟨_, _, _, rfl⟩ := ih
    obtain ⟨-, raws, hitems⟩ := Render.exists_of_content?_toMany (hg _) hr hc hcontent
    cases hitems
    obtain ⟨raw, -, rfl⟩ := List.mem_map.1 hitem
    exact ⟨_, _, raw, rfl⟩

/-- **What is not declared is not rendered.**  Take any graph that was built and render any value as
a record of any schema, by any plan and with any budget.  What is left of the value without what the
schemas do not declare is rendered alike, and every record inside has only members that its schema
declares. -/
theorem render_strip {definitions : List Schema.Definition}
    (hg : Graph.build definitions = .ok g) (plan : Plan g) (links : Links) (root : g.Id)
    (budget : Nat) (record : Json) :
    plan.render links root budget (g.strip root record) = plan.render links root budget record ∧
      ∀ i members, Inside root (plan.render links root budget record) i (.object members) →
        ∀ member ∈ members, ((g.schema i).attribute? member.1).isSome := by
  refine ⟨Render.entity_strip (Graph.declaresKeys_of_build hg) links record root _ budget, ?_⟩
  intro i members hinside member hmember
  obtain ⟨_, _, raw, hraw⟩ := hinside.exists_entity (Graph.distinct_of_build hg)
  exact Render.isSome_of_entity_eq hraw.symm hmember

/-- A person with a manager and a report, all of them with passwords, which no schema declares. -/
def personWithPasswords : Json :=
  .object [("id", .int 2), ("manager", .object [("id", .int 1), ("password", .string "one")]),
    ("password", .string "two"),
    ("reports", .array [.object [("id", .int 3), ("password", .string "three")]])]

theorem render_strip_staff :
    ∃ root : staffGraph.Id, staffGraph.find? "Person" = some root ∧
    ∃ plan, staffGraph.plan root 2 3 = .ok plan ∧
      plan.render ⟨Links.defaultBase⟩ root 2
          (.object [("id", .int 2), ("manager", .object [("id", .int 1)]),
            ("reports", .array [.object [("id", .int 3)]])]) =
        plan.render ⟨Links.defaultBase⟩ root 2 personWithPasswords ∧
      ∀ i members,
        Inside root (plan.render ⟨Links.defaultBase⟩ root 2 personWithPasswords) i
          (.object members) →
        ∀ member ∈ members, ((staffGraph.schema i).attribute? member.1).isSome := by
  have hstrip : staffGraph.strip ⟨0, by decide⟩ personWithPasswords =
      .object [("id", .int 2), ("manager", .object [("id", .int 1)]),
        ("reports", .array [.object [("id", .int 3)]])] := rfl
  refine ⟨_, find?_person_staff, _, rfl, ?_⟩
  rw [← hstrip]
  exact render_strip build_staff _ ⟨Links.defaultBase⟩ _ 2 personWithPasswords

end Retrieval
