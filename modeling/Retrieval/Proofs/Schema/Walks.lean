/-
# Walks along relations

A walk leads from one schema to another one along relations.  In a graph that was built, where no
schema has two attributes of one name, a walk is determined by where it begins and by the names of
its relations.  A path of attributes that is resolved is a walk with one more attribute behind it.
-/
import Retrieval.Filter.Path
import Retrieval.Proofs.Schema.Names

namespace Retrieval

/-- The number of to-one relations among named relations. -/
def toOnes {n : Nat} (edges : List (String × Relation n)) : Nat :=
  edges.countP fun edge => edge.2.cardinality = .toOne

@[simp] lemma toOnes_nil {n : Nat} : toOnes ([] : List (String × Relation n)) = 0 := rfl

lemma toOnes_cons {n : Nat} (name : String) (r : Relation n) (edges : List (String × Relation n)) :
    toOnes ((name, r) :: edges) =
      (match r.cardinality with
        | .toOne => 1
        | .toMany => 0) + toOnes edges := by
  rw [toOnes, toOnes, List.countP_cons]
  cases r.cardinality <;> simp [Nat.add_comm]

lemma toOnes_append {n : Nat} (front rest : List (String × Relation n)) :
    toOnes (front ++ rest) = toOnes front + toOnes rest := List.countP_append

/-- If all to-many relations stand within a bound, so do all relations but for as many as there are
to-one relations. -/
lemma length_le_toOnes_add {n : Nat} {edges : List (String × Relation n)} {bound : Nat}
    (h : ∀ front name r rest, edges = front ++ (name, r) :: rest → r.cardinality = .toMany →
      front.length < bound) :
    edges.length ≤ toOnes edges + bound := by
  induction edges generalizing bound with
  | nil => exact Nat.zero_le _
  | cons edge edges ih =>
    obtain ⟨name, r⟩ := edge
    have hrest : edges.length ≤ toOnes edges + (bound - 1) := by
      refine ih fun front other q rest heq hq => ?_
      have hfront := h ((name, r) :: front) other q rest (by rw [heq, List.cons_append]) hq
      rw [List.length_cons] at hfront
      omega
    rw [List.length_cons, toOnes_cons]
    cases hc : r.cardinality with
    | toOne =>
      dsimp only
      omega
    | toMany =>
      have hbound := h [] name r edges rfl hc
      rw [List.length_nil] at hbound
      dsimp only
      omega

namespace Graph

variable {g : Graph}

/-- The named relations that lead from one schema to another one. -/
inductive Walk (g : Graph) : g.Id → List (String × Relation g.size) → g.Id → Prop where
  | nil (i : g.Id) : Walk g i [] i
  | cons {i j : g.Id} {name : String} {r : Relation g.size}
      {edges : List (String × Relation g.size)} :
    (name, r) ∈ (g.schema i).relations → Walk g r.target edges j →
      Walk g i ((name, r) :: edges) j

namespace Walk

variable {i j k : g.Id} {name : String} {r : Relation g.size}
  {edges edges' : List (String × Relation g.size)}

lemma concat_iff :
    g.Walk i (edges ++ [(name, r)]) k ↔
      ∃ j, g.Walk i edges j ∧ (name, r) ∈ (g.schema j).relations ∧ r.target = k := by
  induction edges generalizing i with
  | nil =>
    constructor
    · rintro (_ | ⟨hr, ⟨⟩⟩)
      exact ⟨i, .nil i, hr, rfl⟩
    · rintro ⟨_, ⟨⟩, hr, rfl⟩
      exact .cons hr (.nil _)
  | cons edge edges ih =>
    obtain ⟨first, q⟩ := edge
    constructor
    · rintro (_ | ⟨hq, hrest⟩)
      obtain ⟨j, hj, hr, hk⟩ := ih.1 hrest
      exact ⟨j, .cons hq hj, hr, hk⟩
    · rintro ⟨j, _ | ⟨hq, hj⟩, hr, hk⟩
      exact .cons hq (ih.2 ⟨j, hj, hr, hk⟩)

/-- Where no name stands for two relations, the names say where a walk leads. -/
lemma eq_of_names_eq (hg : ∀ i, (g.schema i).Distinct) (h : g.Walk i edges j)
    (h' : g.Walk i edges' k) (hnames : edges.map Prod.fst = edges'.map Prod.fst) :
    edges = edges' ∧ j = k := by
  induction h generalizing edges' with
  | nil i =>
    have hnil : edges' = [] := by simpa using hnames.symm
    subst hnil
    cases h'
    exact ⟨rfl, rfl⟩
  | @cons i j name r edges hr _ ih =>
    cases h' with
    | nil => simp at hnames
    | @cons _ _ name' r' edges' hr' hrest' =>
      simp only [List.map_cons, List.cons.injEq] at hnames
      obtain ⟨rfl, hnames⟩ := hnames
      -- a relation is the attribute of its name
      have ha := (hg i).attribute?_of_mem_relations hr
      have ha' := (hg i).attribute?_of_mem_relations hr'
      rw [ha] at ha'
      cases ha'
      obtain ⟨rfl, rfl⟩ := ih hrest' hnames
      exact ⟨rfl, rfl⟩

end Walk

/-! ### Resolved paths -/

lemma mem_relations_of_attribute? {i : g.Id} {name : String} {a : Attribute g.size}
    {r : Relation g.size} (ha : (g.schema i).attribute? name = some a)
    (hr : a.kind = .relation r) : (name, r) ∈ (g.schema i).relations := by
  have hname : a.name = name := by simpa using List.find?_some ha
  subst hname
  rw [Schema.mem_relations_iff, ← hr]
  exact List.mem_of_find?_eq_some ha

/-- A path that is resolved walks along relations to the schema that has its last attribute. -/
lemma exists_walk_of_follow {i : g.Id} {segment : String} {rest : List String}
    {p : ResolvedPath g} (h : g.follow i segment rest = .ok p) :
    ∃ edges name a, g.Walk i edges p.owner ∧ p.segments = edges.map Prod.fst ++ [name] ∧
      (g.schema p.owner).attribute? name = some a ∧ p.isRelation = a.relation?.isSome := by
  induction rest generalizing i segment p with
  | nil =>
    rw [follow] at h
    split at h
    · cases h
    next a ha =>
    split at h
    · next t hkind =>
      cases h
      exact ⟨[], _, a, .nil i, rfl, ha, by simp [Attribute.relation?, hkind]⟩
    · next r hkind =>
      cases h
      exact ⟨[], _, a, .nil i, rfl, ha, by simp [Attribute.relation?, hkind]⟩
  | cons next rest ih =>
    rw [follow] at h
    split at h
    · cases h
    next a ha =>
    split at h
    · cases h
    next r hkind =>
    obtain ⟨q, hq, h⟩ := bind_eq_ok_iff.1 h
    cases h
    obtain ⟨edges, name, b, hwalk, hsegments, hb, hrelation⟩ := ih hq
    refine ⟨(_, r) :: edges, name, b, .cons (mem_relations_of_attribute? ha hkind) hwalk, ?_, hb,
      hrelation⟩
    rw [ResolvedPath.cons, hsegments]
    rfl

lemma exists_walk_of_resolvePath {i : g.Id} {path : List String} {p : ResolvedPath g}
    (h : g.resolvePath i path = .ok p) :
    ∃ edges name a, g.Walk i edges p.owner ∧ p.segments = edges.map Prod.fst ++ [name] ∧
      (g.schema p.owner).attribute? name = some a ∧ p.isRelation = a.relation?.isSome := by
  cases path with
  | nil => cases h
  | cons segment rest => exact exists_walk_of_follow h

end Graph

end Retrieval
