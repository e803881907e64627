/-
# Embedded records

A record with related records embedded holds, under the name of a planned relation, what the
relation leads to, and everything else as the record itself does.
-/
import Mathlib.Data.List.Nodup
import Retrieval.Proofs.Schema.Names
import Retrieval.Store

namespace Retrieval.Store

variable {g : Graph} (s : Store g) (i : g.Id) (row : Record) (name : String)

/-- The record that a to-one relation of a record leads to. -/
def referent? (r : Relation g.size) : Option Record :=
  ((Json.member? name row).filter (!·.isNull)).bind (s.findByKey? r.target)

/-- The records that a to-many relation of a record leads to. -/
def referring (r : Relation g.size) : List Record :=
  ((Json.member? (g.schema i).primaryKey row).map (s.related r)).getD []

variable {row name} in
lemma stored_of_referent? {r : Relation g.size} {target : Record}
    (h : s.referent? row name r = some target) : target ∈ s.rows r.target := by
  obtain ⟨key, -, h⟩ := Option.bind_eq_some_iff.1 h
  exact List.mem_of_find?_eq_some h

variable {i row} in
lemma stored_of_mem_referring {r : Relation g.size} {target : Record}
    (h : target ∈ s.referring i row r) : target ∈ s.rows r.target := by
  rw [referring] at h
  cases hkey : Json.member? (g.schema i).primaryKey row with
  | none => simp [hkey] at h
  | some ownerKey =>
    rw [hkey] at h
    exact (List.mem_filter.1 h).1

/-! ### What is embedded -/

variable {s i row name} {r : Relation g.size}

lemma embedded?_toOne (hr : (g.schema i).attribute? name = some ⟨name, .relation r⟩)
    (hc : r.cardinality = .toOne) (node : Plan.Node g.size) :
    s.embedded? i row name node =
      (s.referent? row name r).map fun target =>
        .object (s.embed r.target target (node.children?.getD [])) := by
  rw [referent?]
  cases hkey : (Json.member? name row).filter (!·.isNull) with
  | none => cases node <;> simp [embedded?, hr, Attribute.relation?, hc, hkey]
  | some key =>
    cases htarget : s.findByKey? r.target key <;>
      cases node <;>
        simp [embedded?, hr, Attribute.relation?, hc, hkey, htarget, Plan.Node.children?, embed,
          embedAll]

lemma embedded?_toMany (hr : (g.schema i).attribute? name = some ⟨name, .relation r⟩)
    (hc : r.cardinality = .toMany) (node : Plan.Node g.size) :
    s.embedded? i row name node =
      node.children?.bind fun children =>
        (Json.member? (g.schema i).primaryKey row).map fun ownerKey =>
          .array ((s.related r ownerKey).map fun target =>
            .object (s.embed r.target target children)) := by
  cases hkey : Json.member? (g.schema i).primaryKey row <;>
    cases node <;>
      simp [embedded?, hr, Attribute.relation?, hc, hkey, Plan.Node.children?, embed]

lemma embedded?_scalar {t : ValueType}
    (hr : (g.schema i).attribute? name = some ⟨name, .scalar t⟩) (node : Plan.Node g.size) :
    s.embedded? i row name node = none := by
  cases node <;> simp [embedded?, hr, Attribute.relation?]

/-- What is embedded is a record or a list of records. -/
lemma object_or_array_of_embedded? {node : Plan.Node g.size} {v : Json}
    (h : s.embedded? i row name node = some v) :
    (∃ members, v = .object members) ∨ ∃ items, v = .array items := by
  cases node with
  | closed _ =>
    rw [embedded?] at h
    obtain ⟨r, -, h⟩ := Option.bind_eq_some_iff.1 h
    split at h
    · obtain ⟨_, -, h⟩ := Option.bind_eq_some_iff.1 h
      obtain ⟨_, -, h⟩ := Option.bind_eq_some_iff.1 h
      exact .inl ⟨_, (Option.some.inj h).symm⟩
    · cases h
  | expanded _ children =>
    rw [embedded?] at h
    obtain ⟨r, -, h⟩ := Option.bind_eq_some_iff.1 h
    split at h
    · obtain ⟨_, -, h⟩ := Option.bind_eq_some_iff.1 h
      obtain ⟨_, -, h⟩ := Option.bind_eq_some_iff.1 h
      exact .inl ⟨_, (Option.some.inj h).symm⟩
    · obtain ⟨_, -, h⟩ := Option.bind_eq_some_iff.1 h
      exact .inr ⟨_, (Option.some.inj h).symm⟩

/-! ### Members of records with embedded ones -/

lemma member?_embedAll {nodes : List (String × Plan.Node g.size)}
    (h : (nodes.map Prod.fst).Nodup) (copy : Record) :
    Json.member? name (s.embedAll i row copy nodes) =
      ((nodes.lookup name).bind (s.embedded? i row name)).or (Json.member? name copy) := by
  induction nodes generalizing copy with
  | nil => simp [embedAll]
  | cons named rest ih =>
    obtain ⟨other, node⟩ := named
    obtain ⟨hnew, hrest⟩ := List.nodup_cons.1 h
    by_cases hname : name = other
    · -- no later node has this name, so what is embedded here stays
      subst hname
      have hnone : rest.lookup name = none := lookup_eq_none_of_notMem hnew
      rw [embedAll, List.lookup_cons_self, Option.bind_some]
      cases hv : s.embedded? i row name node with
      | none => simp [ih hrest, hnone]
      | some v => simp [ih hrest, hnone]
    · have hlookup : ((other, node) :: rest).lookup name = rest.lookup name := by
        rw [List.lookup_cons, beq_false_of_ne hname]
      rw [embedAll, hlookup]
      cases hv : s.embedded? i row other node with
      | none => exact ih hrest copy
      | some v =>
        rw [← Json.member?_setMember_of_ne hname v copy]
        exact ih hrest _

/-- The members of a record with what a plan reaches from it embedded. -/
lemma member?_embed {nodes : List (String × Plan.Node g.size)}
    (h : (nodes.map Prod.fst).Nodup) :
    Json.member? name (s.embed i row nodes) =
      ((nodes.lookup name).bind (s.embedded? i row name)).or (Json.member? name row) :=
  member?_embedAll h row

/-- A scalar is the same in a record with others embedded. -/
lemma member?_embedAll_scalar {t : ValueType}
    (ha : (g.schema i).attribute? name = some ⟨name, .scalar t⟩)
    (nodes : List (String × Plan.Node g.size)) (copy : Record) :
    Json.member? name (s.embedAll i row copy nodes) = Json.member? name copy := by
  induction nodes generalizing copy with
  | nil => rw [embedAll]
  | cons named rest ih =>
    obtain ⟨other, node⟩ := named
    rw [embedAll]
    cases hv : s.embedded? i row other node with
    | none => exact ih copy
    | some v =>
      -- nothing is embedded under the name of a scalar
      have hname : name ≠ other := by
        rintro rfl
        rw [embedded?_scalar ha] at hv
        cases hv
      exact (ih _).trans (Json.member?_setMember_of_ne hname v copy)

lemma member?_embed_scalar {t : ValueType}
    (ha : (g.schema i).attribute? name = some ⟨name, .scalar t⟩)
    {nodes : List (String × Plan.Node g.size)} :
    Json.member? name (s.embed i row nodes) = Json.member? name row :=
  member?_embedAll_scalar ha nodes row

end Retrieval.Store
