/-
# What rendered relations hold

A rendered record has its scalars as they are.  Under the name of a relation it has an envelope, and
what this envelope holds depends on the member of that name alone: an embedded record within the
budget, or embedded records that are planned.
-/
import Retrieval.Proofs.Plan

namespace Retrieval

/-- What the envelope of a relation of a rendered record holds, if that is not `null`. -/
def Json.content? (v : Json) (name : String) : Option Json :=
  ((v.get? name).bind (·.get? "self")).filter (!·.isNull)

lemma Envelope.get?_toJson (e : Envelope) : e.toJson.get? "self" = some (e.content.getD .null) := by
  rfl

lemma Json.mem_setMember {name : String} {v : Json} {members : List (String × Json)}
    {member : String × Json} (h : member ∈ Json.setMember name v members) :
    member = (name, v) ∨ member ∈ members := by
  induction members with
  | nil => exact .inl (List.mem_singleton.1 h)
  | cons m rest ih =>
    obtain ⟨key, old⟩ := m
    rw [Json.setMember] at h
    split at h
    · exact List.mem_cons.1 h
    · split at h
      · exact (List.mem_cons.1 h).imp_right (List.mem_cons_of_mem _)
      · rcases List.mem_cons.1 h with rfl | h
        · exact .inr List.mem_cons_self
        · exact (ih h).imp_right (List.mem_cons_of_mem _)

namespace Render

/-! ### Members of rendered records -/

section Members

variable {g : Graph} {links : Links} {i : g.Id} {nodes : Option (List (String × Plan.Node g.size))}
  {budget : Nat} {ownerKey : Option Json} {name : String} {a : Attribute g.size}

/-- Another member is left out or keeps its own name. -/
lemma member?_declared_of_ne {other : String} (h : other ≠ name) (raw : Json)
    (rest : List (String × Json)) :
    Json.member? name (declared g links i nodes budget ownerKey ((other, raw) :: rest)) =
      Json.member? name (declared g links i nodes budget ownerKey rest) := by
  rw [declared]
  split
  · rfl
  · split
    · rw [Json.member?, if_neg h]
    · rw [Json.member?, if_neg h]

/-- A declared member is rendered by itself, in whatever way its kind says. -/
lemma member?_declared (ha : (g.schema i).attribute? name = some a) {f : Json → Json}
    (hf : ∀ raw rest, declared g links i nodes budget ownerKey ((name, raw) :: rest) =
      (name, f raw) :: declared g links i nodes budget ownerKey rest)
    (members : List (String × Json)) :
    Json.member? name (declared g links i nodes budget ownerKey members) =
      (Json.member? name members).map f := by
  induction members with
  | nil => simp [declared, Json.member?]
  | cons member rest ih =>
    obtain ⟨other, raw⟩ := member
    by_cases hname : other = name
    · subst hname
      simp [hf, Json.member?]
    · rw [member?_declared_of_ne hname, ih, Json.member?, if_neg hname]

lemma member?_declared_undeclared (ha : (g.schema i).attribute? name = none)
    (members : List (String × Json)) :
    Json.member? name (declared g links i nodes budget ownerKey members) = none := by
  induction members with
  | nil => simp [declared, Json.member?]
  | cons member rest ih =>
    obtain ⟨other, raw⟩ := member
    by_cases hname : other = name
    · subst hname
      simp only [declared, ha, ih]
    · rw [member?_declared_of_ne hname, ih]

/-- Members that are set are found, and the others stay as they are. -/
lemma member?_foldl_setMember {added : List (String × Json)} (h : (added.map Prod.fst).Nodup)
    (members : List (String × Json)) :
    Json.member? name (added.foldl (fun out (name, v) => Json.setMember name v out) members) =
      (added.lookup name).or (Json.member? name members) := by
  induction added generalizing members with
  | nil => simp
  | cons member rest ih =>
    obtain ⟨other, v⟩ := member
    obtain ⟨hnew, hrest⟩ := List.nodup_cons.1 h
    rw [List.foldl_cons, ih hrest]
    by_cases hname : name = other
    · subst hname
      have hnone : rest.lookup name = none := lookup_eq_none_of_notMem hnew
      simp [hnone]
    · rw [Json.member?_setMember_of_ne hname, List.lookup_cons, beq_false_of_ne hname]

/-- Only what is set is added. -/
lemma mem_foldl_setMember {added members : List (String × Json)} {member : String × Json}
    (h : member ∈ added.foldl (fun out (name, v) => Json.setMember name v out) members) :
    member ∈ added ∨ member ∈ members := by
  induction added generalizing members with
  | nil => exact .inr h
  | cons m rest ih =>
    rcases ih h with hrest | hset
    · exact .inl (List.mem_cons_of_mem _ hrest)
    · rcases Json.mem_setMember hset with rfl | hmember
      · exact .inl List.mem_cons_self
      · exact .inr hmember

/-- The records of an array are rendered one by one. -/
lemma entities_eq_map (items : List Json) :
    entities g links i nodes budget items = items.map (entity g links i nodes budget) := by
  induction items with
  | nil => rw [entities, List.map_nil]
  | cons item rest ih => rw [entities, List.map_cons, ih]

/-! ### Envelopes that were missing -/

lemma nodup_absentEnvelopes (h : (g.schema i).Distinct) (members : List (String × Json)) :
    ((absentEnvelopes g links i members).map Prod.fst).Nodup := by
  refine List.Nodup.sublist (names_filterMap_sublist (fun named x hx => ?_) _) h.nodup_relations
  obtain ⟨other, r⟩ := named
  dsimp only at hx
  split at hx
  · cases hx
    rfl
  · cases hx

lemma mem_absentEnvelopes_iff {members : List (String × Json)} {v : Json} :
    (name, v) ∈ absentEnvelopes g links i members ↔
      ∃ r, (name, r) ∈ (g.schema i).relations ∧ r.cardinality = .toMany ∧
        Json.member? name members = none ∧
        v = (Envelope.linkOnly (listLink? links (g.schema r.target) name r
          (Json.member? (g.schema i).primaryKey members))).toJson := by
  simp only [absentEnvelopes, List.mem_filterMap, Option.isNone_iff_eq_none]
  constructor
  · rintro ⟨⟨other, r⟩, hr, h⟩
    split at h
    · next habsent =>
      cases h
      exact ⟨r, hr, habsent.1, habsent.2, rfl⟩
    · cases h
  · rintro ⟨r, hr, hc, hmember, rfl⟩
    exact ⟨(name, r), hr, if_pos ⟨hc, hmember⟩⟩

lemma lookup_absentEnvelopes_eq_none (h : (g.schema i).Distinct) {members : List (String × Json)}
    (hnone : ∀ r, (name, r) ∈ (g.schema i).relations → r.cardinality = .toOne ∨
      (Json.member? name members).isSome) :
    (absentEnvelopes g links i members).lookup name = none := by
  rw [Option.eq_none_iff_forall_ne_some]
  intro v hv
  rw [lookup_eq_some_iff_mem (nodup_absentEnvelopes h _)] at hv
  obtain ⟨r, hr, hc, hmember, -⟩ := mem_absentEnvelopes_iff.1 hv
  rcases hnone r hr with hone | hsome
  · rw [hc] at hone
    cases hone
  · simp [hmember] at hsome

/-! ### Scalars and the contents of envelopes -/

/-- A member of a rendered record is an envelope that was missing or a declared member. -/
lemma get?_entity (h : (g.schema i).Distinct) (members : List (String × Json)) :
    (entity g links i nodes budget (.object members)).get? name =
      ((absentEnvelopes g links i members).lookup name).or
        (Json.member? name (declared g links i nodes budget
          (Json.member? (g.schema i).primaryKey members) members)) := by
  rw [entity]
  exact member?_foldl_setMember (nodup_absentEnvelopes h members) _

/-- The scalars of a record stay as they are. -/
lemma get?_entity_scalar (h : (g.schema i).Distinct) {t : ValueType}
    (ha : (g.schema i).attribute? name = some ⟨name, .scalar t⟩) (members : List (String × Json)) :
    (entity g links i nodes budget (.object members)).get? name = Json.member? name members := by
  have hnone : (absentEnvelopes g links i members).lookup name = none := by
    refine lookup_absentEnvelopes_eq_none h fun r hr => ?_
    rw [h.attribute?_of_mem_relations hr] at ha
    cases ha
  rw [get?_entity h, hnone, Option.none_or,
    member?_declared ha (f := id)]
  · simp
  · intro raw rest
    simp [declared, ha]

/-- What is not declared is left out. -/
lemma get?_entity_undeclared (h : (g.schema i).Distinct) (ha : (g.schema i).attribute? name = none)
    (members : List (String × Json)) :
    (entity g links i nodes budget (.object members)).get? name = none := by
  have hnone : (absentEnvelopes g links i members).lookup name = none := by
    refine lookup_absentEnvelopes_eq_none h fun r hr => ?_
    rw [h.attribute?_of_mem_relations hr] at ha
    cases ha
  rw [get?_entity h, hnone, Option.none_or, member?_declared_undeclared ha]

/-- The envelope of a to-one relation is made of what the record holds under its name. -/
lemma get?_entity_toOne (h : (g.schema i).Distinct) {r : Relation g.size}
    (hr : (name, r) ∈ (g.schema i).relations) (hc : r.cardinality = .toOne)
    (members : List (String × Json)) :
    (entity g links i nodes budget (.object members)).get? name =
      (Json.member? name members).map fun raw =>
        (toOneEnvelope links (g.schema r.target) budget raw fun _ =>
          entity g links r.target (childrenOf nodes name) (budget - 1) raw).toJson := by
  have ha := h.attribute?_of_mem_relations hr
  have hnone : (absentEnvelopes g links i members).lookup name = none := by
    refine lookup_absentEnvelopes_eq_none h fun r' hr' => ?_
    have ha' := h.attribute?_of_mem_relations hr'
    rw [ha] at ha'
    cases ha'
    exact .inl hc
  rw [get?_entity h, hnone, Option.none_or, member?_declared ha]
  intro raw rest
  simp [declared, ha, hc]

/-- The envelope of a to-many relation is made of what the record holds under its name, and is there
also if it holds nothing. -/
lemma get?_entity_toMany (h : (g.schema i).Distinct) {r : Relation g.size}
    (hr : (name, r) ∈ (g.schema i).relations) (hc : r.cardinality = .toMany)
    (members : List (String × Json)) :
    (entity g links i nodes budget (.object members)).get? name =
      some ((Json.member? name members).elim
        (.linkOnly (listLink? links (g.schema r.target) name r
          (Json.member? (g.schema i).primaryKey members)))
        fun raw => toManyEnvelope (listLink? links (g.schema r.target) name r
          (Json.member? (g.schema i).primaryKey members)) (childrenOf nodes name).isSome raw
          fun _ => each g links r.target (childrenOf nodes name) budget raw).toJson := by
  have ha := h.attribute?_of_mem_relations hr
  rw [get?_entity h]
  cases hmember : Json.member? name members with
  | none =>
    have hmem : (name, _) ∈ absentEnvelopes g links i members :=
      mem_absentEnvelopes_iff.2 ⟨r, hr, hc, hmember, rfl⟩
    rw [(lookup_eq_some_iff_mem (nodup_absentEnvelopes h members)).2 hmem, Option.some_or]
    rfl
  | some raw =>
    have hnone : (absentEnvelopes g links i members).lookup name = none :=
      lookup_absentEnvelopes_eq_none h fun r' _ => .inr (by simp [hmember])
    rw [hnone, Option.none_or, member?_declared ha (f := fun raw =>
      (toManyEnvelope (listLink? links (g.schema r.target) name r
        (Json.member? (g.schema i).primaryKey members)) (childrenOf nodes name).isSome raw fun _ =>
          each g links r.target (childrenOf nodes name) budget raw).toJson), hmember]
    · rfl
    · intro raw rest
      simp [declared, ha, hc]

/-- The envelope of a to-one relation holds the record that is embedded under its name, unless the
budget is used up. -/
lemma content?_toOne (h : (g.schema i).Distinct) {r : Relation g.size}
    (hr : (name, r) ∈ (g.schema i).relations) (hc : r.cardinality = .toOne)
    (members : List (String × Json)) :
    (entity g links i nodes budget (.object members)).content? name =
      (Json.member? name members).bind fun raw =>
        if raw.isObject ∧ budget ≠ 0 then
          some (entity g links r.target (childrenOf nodes name) (budget - 1) raw)
        else none := by
  rw [Json.content?, get?_entity_toOne h hr hc]
  cases Json.member? name members with
  | none => rfl
  | some raw =>
    rw [Option.map_some, Option.bind_some, Option.bind_some, Envelope.get?_toJson]
    cases raw with
    | object target =>
      simp only [toOneEnvelope, Json.isObject, true_and]
      split <;> simp [Envelope.linkOnly, Envelope.expanded, Json.isNull, entity, *]
    | _ => simp [toOneEnvelope, Json.isObject, Envelope.linkOnly, Envelope.empty, Json.isNull]

/-- The envelope of a to-many relation holds the records that are embedded under its name, if there
is one and the relations behind it are planned. -/
lemma content?_toMany (h : (g.schema i).Distinct) {r : Relation g.size}
    (hr : (name, r) ∈ (g.schema i).relations) (hc : r.cardinality = .toMany)
    (members : List (String × Json)) :
    (entity g links i nodes budget (.object members)).content? name =
      ((Json.member? name members).bind Json.array?).bind fun items =>
        if items ≠ [] ∧ (childrenOf nodes name).isSome then
          some (.array (items.map (entity g links r.target (childrenOf nodes name) budget)))
        else none := by
  rw [Json.content?, get?_entity_toMany h hr hc, Option.bind_some, Envelope.get?_toJson]
  cases Json.member? name members with
  | none => rfl
  | some raw =>
    rw [Option.bind_some, Option.elim_some]
    cases raw with
    | array items =>
      cases items with
      | nil => simp [toManyEnvelope, Json.array?, Envelope.empty, Json.isNull]
      | cons item items =>
        simp only [toManyEnvelope, Json.array?, Option.bind_some, each, entities_eq_map]
        cases childrenOf nodes name with
        | none => simp [Envelope.linkOnly, Json.isNull]
        | some children => simp [Envelope.expanded, Json.isNull]
    | _ => simp [toManyEnvelope, Json.array?, Envelope.linkOnly, Envelope.empty, Json.isNull]

/-- Whatever value is rendered, a to-one relation holds a rendered record with one level less. -/
lemma exists_of_content?_toOne (h : (g.schema i).Distinct) {r : Relation g.size}
    (hr : (name, r) ∈ (g.schema i).relations) (hc : r.cardinality = .toOne) {v content : Json}
    (hcontent : (entity g links i nodes budget v).content? name = some content) :
    budget ≠ 0 ∧
      ∃ raw, content = entity g links r.target (childrenOf nodes name) (budget - 1) raw := by
  cases v with
  | object members =>
    rw [content?_toOne h hr hc] at hcontent
    obtain ⟨raw, -, hcontent⟩ := Option.bind_eq_some_iff.1 hcontent
    split at hcontent
    · next hbudget =>
      cases hcontent
      exact ⟨hbudget.2, raw, rfl⟩
    · cases hcontent
  | _ =>
    rw [entity] at hcontent
    cases hcontent

/-- Whatever value is rendered, a to-many relation holds rendered records if what lies behind it is
planned. -/
lemma exists_of_content?_toMany (h : (g.schema i).Distinct) {r : Relation g.size}
    (hr : (name, r) ∈ (g.schema i).relations) (hc : r.cardinality = .toMany) {v content : Json}
    (hcontent : (entity g links i nodes budget v).content? name = some content) :
    (childrenOf nodes name).isSome ∧
      ∃ items : List Json, content =
        .array (items.map (entity g links r.target (childrenOf nodes name) budget)) := by
  cases v with
  | object members =>
    rw [content?_toMany h hr hc] at hcontent
    obtain ⟨items, -, hcontent⟩ := Option.bind_eq_some_iff.1 hcontent
    split at hcontent
    · next hplanned =>
      cases hcontent
      exact ⟨hplanned.2, items, rfl⟩
    · cases hcontent
  | _ =>
    rw [entity] at hcontent
    cases hcontent

end Members

end Render

end Retrieval
