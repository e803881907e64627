/-
# How paths are resolved

A path is resolved along its relations: every segment means an attribute of the schema that those in
front of it lead to, and every one but the last means a relation.  What is found is the attribute at
the end; if a segment cannot be followed, the first such segment is reported.  The names of a path
that is resolved are a path to the same attribute.
-/
import Retrieval.Filter.Path
import Retrieval.Proofs.Schema.Consistency

namespace Retrieval

/-! ### Segments -/

namespace Schema

variable {n : Nat} {s : Schema n} {segment : String} {a : Attribute n} {t : ValueType}

/-- What a segment means on a schema: `pk` its primary key, any other segment the attribute of this
name. -/
inductive Means (s : Schema n) : String → Attribute n → Prop where
  | key {a : Attribute n} : a ∈ s.attributes → a.name = s.primaryKey → Means s primaryKeySegment a
  | own {a : Attribute n} : a ∈ s.attributes → a.name ≠ primaryKeySegment → Means s a.name a

/-- What the primary key of a schema holds: values of the type of a scalar, any values if it is a
relation. -/
inductive KeyHolds (s : Schema n) : ValueType → Prop where
  | scalar {a : Attribute n} {t : ValueType} :
    a ∈ s.attributes → a.name = s.primaryKey → a.kind = .scalar t → KeyHolds s t
  | relation {a : Attribute n} {r : Relation n} :
    a ∈ s.attributes → a.name = s.primaryKey → a.kind = .relation r → KeyHolds s .any

lemma means_iff : s.Means segment a ↔ a ∈ s.attributes ∧ a.name = s.segmentName segment := by
  rw [segmentName]
  constructor
  · rintro (⟨ha, hname⟩ | ⟨ha, hname⟩)
    · exact ⟨ha, by rw [if_pos rfl, hname]⟩
    · exact ⟨ha, by rw [if_neg hname]⟩
  · rintro ⟨ha, hname⟩
    split at hname
    · next halias => exact halias ▸ .key ha hname
    · next hother => exact hname ▸ .own ha (hname ▸ hother)

lemma Distinct.attribute?_segmentName_iff (h : s.Distinct) :
    s.attribute? (s.segmentName segment) = some a ↔ s.Means segment a := by
  rw [h.attribute?_eq_some_iff, means_iff]

/-- The name that a segment stands for stands for itself: it is `pk` only if the primary key is. -/
lemma segmentName_segmentName : s.segmentName (s.segmentName segment) = s.segmentName segment := by
  by_cases halias : segment = primaryKeySegment
  · rw [segmentName, segmentName, if_pos halias]
    exact ite_self _
  · have hown : s.segmentName segment = segment := if_neg halias
    rw [hown, hown]

lemma Distinct.keyHolds_iff (h : s.Distinct) (hkey : (s.attribute? s.primaryKey).isSome) :
    s.KeyHolds t ↔ s.keyType = t := by
  obtain ⟨k, hk⟩ := Option.isSome_iff_exists.1 hkey
  have hunique : ∀ a ∈ s.attributes, a.name = s.primaryKey → a = k := fun a ha hname =>
    Option.some.inj ((h.attribute?_eq_some_iff.2 ⟨ha, hname⟩).symm.trans hk)
  obtain ⟨hmem, hname⟩ := h.attribute?_eq_some_iff.1 hk
  rw [keyType, hk, Option.bind_some, Attribute.type?]
  constructor
  · rintro (⟨ha, hname', hkind⟩ | ⟨ha, hname', hkind⟩)
    · rw [← hunique _ ha hname', hkind]
      rfl
    · rw [← hunique _ ha hname', hkind]
      rfl
  · intro htype
    cases hkind : k.kind with
    | scalar t' =>
      rw [hkind] at htype
      exact htype ▸ .scalar hmem hname hkind
    | relation r =>
      rw [hkind] at htype
      exact htype ▸ .relation hmem hname hkind

end Schema

/-- Put names in front of the segments of a path. -/
def ResolvedPath.prepend {g : Graph} (names : List String) (p : ResolvedPath g) : ResolvedPath g :=
  { p with segments := names ++ p.segments }

namespace Graph

/-! ### Walking along segments -/

/-- Segments lead along relations from one schema to another one, `names` being the names of the
relations that they mean. -/
inductive Leads (g : Graph) : g.Id → List String → List String → g.Id → Prop where
  | nil (i : g.Id) : Leads g i [] [] i
  | cons {i j : g.Id} {segment : String} {a : Attribute g.size} {r : Relation g.size}
      {rest names : List String} :
    (g.schema i).Means segment a → a.kind = .relation r → Leads g r.target rest names j →
      Leads g i (segment :: rest) (a.name :: names) j

/-- What is found at the end of a path: a scalar with the type of its values, or a relation with the
type of the keys of its target. -/
inductive Finds (g : Graph) (i : g.Id) : List String → ResolvedPath g → Prop where
  | scalar {j : g.Id} {front names : List String} {last : String} {a : Attribute g.size}
      {t : ValueType} :
    g.Leads i front names j → (g.schema j).Means last a → a.kind = .scalar t →
      Finds g i (front ++ [last]) ⟨names ++ [a.name], j, t, false⟩
  | relation {j : g.Id} {front names : List String} {last : String} {a : Attribute g.size}
      {r : Relation g.size} {t : ValueType} :
    g.Leads i front names j → (g.schema j).Means last a → a.kind = .relation r →
      (g.schema r.target).KeyHolds t →
      Finds g i (front ++ [last]) ⟨names ++ [a.name], j, t, true⟩

/-- Why a path cannot be followed to its end: there is nothing to follow, or the first segment that
leads nowhere means no attribute of the schema that it is looked up on, or it means a scalar of this
schema and has segments behind it. -/
inductive Stops (g : Graph) (i : g.Id) : List String → QueryError → Prop where
  | empty : Stops g i [] (.malformedToken "" "")
  | unknown {j : g.Id} {front names rest : List String} {segment : String} :
    g.Leads i front names j → (∀ a, ¬ (g.schema j).Means segment a) →
      Stops g i (front ++ segment :: rest) (.unknownAttribute segment (g.schema j).name)
  | scalar {j : g.Id} {front names rest : List String} {segment next : String}
      {a : Attribute g.size} {t : ValueType} :
    g.Leads i front names j → (g.schema j).Means segment a → a.kind = .scalar t →
      Stops g i (front ++ segment :: next :: rest) (.notTraversable a.name (g.schema j).name)

variable {g : Graph} {i j : g.Id} {segment : String} {front names path rest : List String}
  {a : Attribute g.size} {p : ResolvedPath g} {e : QueryError}

/-! ### One segment -/

lemma resolvePath_unknown (hg : (g.schema i).Distinct) (h : ∀ a, ¬ (g.schema i).Means segment a) :
    g.resolvePath i (segment :: rest) = .error (.unknownAttribute segment (g.schema i).name) := by
  have hnone : (g.schema i).attribute? ((g.schema i).segmentName segment) = none :=
    Option.eq_none_iff_forall_not_mem.2 fun a ha => h a (hg.attribute?_segmentName_iff.1 ha)
  rw [resolvePath]
  cases rest <;> rw [follow, hnone]

/-- A segment that means an attribute ends a path, which goes on only behind a relation. -/
lemma resolvePath_cons (hg : (g.schema i).Distinct) (h : (g.schema i).Means segment a) :
    g.resolvePath i (segment :: rest) =
      match a.kind, rest with
      | .scalar t, [] => .ok ⟨[a.name], i, t, false⟩
      | .relation r, [] => .ok ⟨[a.name], i, (g.schema r.target).keyType, true⟩
      | .scalar _, _ :: _ => .error (.notTraversable a.name (g.schema i).name)
      | .relation r, next :: more =>
        (g.resolvePath r.target (next :: more)).map (ResolvedPath.cons a.name) := by
  have hattribute := hg.attribute?_segmentName_iff.2 h
  have hname := (Schema.means_iff.1 h).2
  rw [resolvePath]
  cases rest with
  | nil =>
    rw [follow, hattribute, ← hname]
    dsimp only
    cases a.kind <;> rfl
  | cons next more =>
    rw [follow, hattribute, ← hname]
    dsimp only
    cases a.kind <;> rfl

/-! ### Whole paths -/

/-- Along relations a path is resolved from where they lead. -/
lemma Leads.resolvePath_append (hg : ∀ i, (g.schema i).Distinct) (h : g.Leads i front names j)
    (hrest : rest ≠ []) :
    g.resolvePath i (front ++ rest) =
      (g.resolvePath j rest).map (ResolvedPath.prepend names) := by
  induction h with
  | nil i =>
    rw [List.nil_append]
    cases g.resolvePath i rest <;> rfl
  | @cons i j segment a r front names ha hkind _ ih =>
    obtain ⟨next, more, hbehind⟩ :=
      List.exists_cons_of_ne_nil (List.append_ne_nil_of_right_ne_nil front hrest)
    rw [hbehind] at ih
    rw [List.cons_append, hbehind, resolvePath_cons (hg i) ha, hkind]
    dsimp only
    rw [ih]
    cases g.resolvePath j rest <;> rfl

lemma Finds.resolvePath_eq (hg : ∀ i, (g.schema i).Distinct) (hkeys : g.DeclaresKeys)
    (h : g.Finds i path p) : g.resolvePath i path = .ok p := by
  cases h with
  | @scalar j _ _ _ _ _ hfront ha hkind =>
    rw [hfront.resolvePath_append hg (by simp), resolvePath_cons (hg j) ha, hkind]
    rfl
  | @relation j _ _ _ _ r _ hfront ha hkind hkey =>
    have htype := ((hg r.target).keyHolds_iff (hkeys r.target)).1 hkey
    rw [hfront.resolvePath_append hg (by simp), resolvePath_cons (hg j) ha, hkind, ← htype]
    rfl

lemma Stops.resolvePath_eq (hg : ∀ i, (g.schema i).Distinct) (h : g.Stops i path e) :
    g.resolvePath i path = .error e := by
  cases h with
  | empty => rfl
  | @unknown j _ _ _ _ hfront hnone =>
    rw [hfront.resolvePath_append hg (by simp), resolvePath_unknown (hg j) hnone]
    rfl
  | @scalar j _ _ _ _ _ _ _ hfront ha hkind =>
    rw [hfront.resolvePath_append hg (by simp), resolvePath_cons (hg j) ha, hkind]
    rfl

/-- A path in front of which a relation is followed is found, or stops, as it does behind it. -/
lemma finds_or_stops_cons {r : Relation g.size} (ha : (g.schema i).Means segment a)
    (hkind : a.kind = .relation r) (hpath : path ≠ [])
    (h : (∃ p, g.Finds r.target path p) ∨ ∃ e, g.Stops r.target path e) :
    (∃ p, g.Finds i (segment :: path) p) ∨ ∃ e, g.Stops i (segment :: path) e := by
  rcases h with ⟨_, hfinds⟩ | ⟨_, hstops⟩
  · left
    cases hfinds with
    | scalar hfront hlast hlastKind => exact ⟨_, .scalar (.cons ha hkind hfront) hlast hlastKind⟩
    | relation hfront hlast hlastKind hkey =>
      exact ⟨_, .relation (.cons ha hkind hfront) hlast hlastKind hkey⟩
  · right
    cases hstops with
    | empty => exact absurd rfl hpath
    | unknown hfront hnone => exact ⟨_, .unknown (.cons ha hkind hfront) hnone⟩
    | scalar hfront hb hbKind => exact ⟨_, .scalar (.cons ha hkind hfront) hb hbKind⟩

/-- Every path is found or stops somewhere. -/
lemma finds_or_stops (hg : ∀ i, (g.schema i).Distinct) (hkeys : g.DeclaresKeys) (i : g.Id)
    (path : List String) : (∃ p, g.Finds i path p) ∨ ∃ e, g.Stops i path e := by
  induction path generalizing i with
  | nil => exact .inr ⟨_, .empty⟩
  | cons segment rest ih =>
    by_cases hmeans : ∃ a, (g.schema i).Means segment a
    · obtain ⟨a, ha⟩ := hmeans
      cases hkind : a.kind with
      | scalar t =>
        cases rest with
        | nil => exact .inl ⟨_, .scalar (.nil i) ha hkind⟩
        | cons next rest => exact .inr ⟨_, .scalar (.nil i) ha hkind⟩
      | relation r =>
        cases rest with
        | nil =>
          have hkey := ((hg r.target).keyHolds_iff (hkeys r.target)).2 rfl
          exact .inl ⟨_, .relation (.nil i) ha hkind hkey⟩
        | cons next rest => exact finds_or_stops_cons ha hkind (by simp) (ih r.target)
    · exact .inr ⟨_, .unknown (.nil i) (not_exists.1 hmeans)⟩

lemma resolvePath_eq_ok_iff (hg : ∀ i, (g.schema i).Distinct) (hkeys : g.DeclaresKeys) :
    g.resolvePath i path = .ok p ↔ g.Finds i path p := by
  constructor
  · intro h
    rcases finds_or_stops hg hkeys i path with ⟨q, hq⟩ | ⟨e, he⟩
    · rw [hq.resolvePath_eq hg hkeys] at h
      cases h
      exact hq
    · rw [he.resolvePath_eq hg] at h
      cases h
  · exact Finds.resolvePath_eq hg hkeys

lemma resolvePath_eq_error_iff (hg : ∀ i, (g.schema i).Distinct) (hkeys : g.DeclaresKeys) :
    g.resolvePath i path = .error e ↔ g.Stops i path e := by
  constructor
  · intro h
    rcases finds_or_stops hg hkeys i path with ⟨p, hp⟩ | ⟨e', he⟩
    · rw [hp.resolvePath_eq hg hkeys] at h
      cases h
    · rw [he.resolvePath_eq hg] at h
      cases h
      exact he
  · exact Stops.resolvePath_eq hg

/-! ### Names of resolved paths -/

lemma follow_segments {rest : List String} (h : g.follow i segment rest = .ok p) :
    g.resolvePath i p.segments = .ok p := by
  induction rest generalizing i segment p with
  | nil =>
    rw [follow] at h
    split at h
    · cases h
    next a ha =>
    split at h
    all_goals
      next hkind =>
      cases h
      rw [resolvePath, follow, Schema.segmentName_segmentName, ha]
      simp only [hkind]
  | cons next rest ih =>
    rw [follow] at h
    split at h
    · cases h
    next a ha =>
    split at h
    · cases h
    next r hkind =>
    obtain ⟨q, hq, h⟩ := bind_eq_ok_iff.1 h
    cases h
    have hbehind := ih hq
    obtain ⟨segments, owner, type, isRelation⟩ := q
    cases segments with
    | nil => cases hbehind
    | cons name names =>
      rw [resolvePath] at hbehind
      rw [ResolvedPath.cons, resolvePath, follow, Schema.segmentName_segmentName, ha]
      simp only [hkind, hbehind]
      rfl

/-- The names of a resolved path are a path to the same attribute. -/
lemma resolvePath_segments (h : g.resolvePath i path = .ok p) :
    g.resolvePath i p.segments = .ok p := by
  cases path with
  | nil => cases h
  | cons segment rest => exact follow_segments h

end Graph

/-- **Paths are resolved exactly where they can be walked.**  In a graph that was built a path is
resolved if and only if it is not empty, every segment but the last means a relation of the schema
that those in front of it lead to, and the last one means an attribute of the schema at the end.  It
is resolved to what is found there, and else refused for the first segment that cannot be followed.
The names that it is resolved to are resolved to the same. -/
theorem resolvePath_walks {definitions : List Schema.Definition} {g : Graph}
    (hg : Graph.build definitions = .ok g) (root : g.Id) (path : List String) :
    ((∃ p, g.resolvePath root path = .ok p) ↔
      ∃ front last names j a, path = front ++ [last] ∧ g.Leads root front names j ∧
        (g.schema j).Means last a) ∧
    (∀ p, g.resolvePath root path = .ok p ↔ g.Finds root path p) ∧
    (∀ e, g.resolvePath root path = .error e ↔ g.Stops root path e) ∧
    ∀ p, g.resolvePath root path = .ok p → g.resolvePath root p.segments = .ok p := by
  have hdistinct := Graph.distinct_of_build hg
  have hkeys := Graph.declaresKeys_of_build hg
  refine ⟨?_, fun p => Graph.resolvePath_eq_ok_iff hdistinct hkeys,
    fun e => Graph.resolvePath_eq_error_iff hdistinct hkeys, fun p => Graph.resolvePath_segments⟩
  simp only [Graph.resolvePath_eq_ok_iff hdistinct hkeys]
  constructor
  · rintro ⟨_, ⟨hfront, ha, -⟩ | ⟨hfront, ha, -⟩⟩
    · exact ⟨_, _, _, _, _, rfl, hfront, ha⟩
    · exact ⟨_, _, _, _, _, rfl, hfront, ha⟩
  · rintro ⟨front, last, names, j, a, rfl, hfront, ha⟩
    cases hkind : a.kind with
    | scalar t => exact ⟨_, .scalar hfront ha hkind⟩
    | relation r =>
      have hkey := ((hdistinct r.target).keyHolds_iff (hkeys r.target)).2 rfl
      exact ⟨_, .relation hfront ha hkind hkey⟩

/-- Badges with a code, persons whose key is their badge, kennels, and pets whose key is a tag and not
the attribute `pk`. -/
def kennelDefinitions : List Schema.Definition :=
  [{ Schema.Definition.ofName "Badge" |>.scalar "code" .string with primaryKey := "code" },
   { Schema.Definition.ofName "Person" |>.toOne "badge" "Badge" false with primaryKey := "badge" },
   Schema.Definition.ofName "Kennel" |>.scalar "id" .int |>.toMany "pets" "Pet" "kennel",
   { Schema.Definition.ofName "Pet" |>.scalar "pk" .int |>.scalar "tag" .int
      |>.toOne "owner" "Person" true |>.toOne "kennel" "Kennel" true with primaryKey := "tag" }]

/-- The graph of these definitions. -/
def kennelGraph : Graph :=
  ⟨4, #v[⟨"Badge", none, "code", [⟨"code", .scalar .string⟩]⟩,
    ⟨"Person", none, "badge", [⟨"badge", .relation ⟨.toOne, false, 0, none⟩⟩]⟩,
    ⟨"Kennel", none, "id", [⟨"id", .scalar .int⟩,
      ⟨"pets", .relation ⟨.toMany, true, 3, some "kennel"⟩⟩]⟩,
    ⟨"Pet", none, "tag", [⟨"pk", .scalar .int⟩, ⟨"tag", .scalar .int⟩,
      ⟨"owner", .relation ⟨.toOne, true, 1, none⟩⟩,
      ⟨"kennel", .relation ⟨.toOne, true, 2, none⟩⟩]⟩]⟩

theorem resolvePath_walks_kennel :
    Graph.build kennelDefinitions = .ok kennelGraph ∧
    ∃ pet person : kennelGraph.Id, kennelGraph.find? "Pet" = some pet ∧
      kennelGraph.find? "Person" = some person ∧
      -- the key of a person is a badge, and that of a badge a text
      kennelGraph.Finds pet ["kennel", "pets", "owner", "pk"]
        ⟨["kennel", "pets", "owner", "badge"], person, .string, true⟩ ∧
      kennelGraph.Finds pet ["owner"] ⟨["owner"], pet, .any, true⟩ ∧
      kennelGraph.Finds pet ["pk"] ⟨["tag"], pet, .int, false⟩ ∧
      kennelGraph.resolvePath pet ["tag"] = .ok ⟨["tag"], pet, .int, false⟩ ∧
      kennelGraph.Stops pet ["owner", "pk", "name"] (.unknownAttribute "name" "Badge") ∧
      kennelGraph.Stops pet ["pk", "owner"] (.notTraversable "tag" "Pet") := by
  have hg : Graph.build kennelDefinitions = .ok kennelGraph := by decide +kernel
  have hwalks := fun path => resolvePath_walks hg ⟨3, by decide⟩ path
  refine ⟨hg, _, _, by decide +kernel, by decide +kernel, ((hwalks _).2.1 _).1 rfl,
    ((hwalks _).2.1 _).1 rfl, ((hwalks _).2.1 _).1 rfl, (hwalks ["pk"]).2.2.2 _ rfl,
    ((hwalks _).2.2.1 _).1 rfl, ((hwalks _).2.2.1 _).1 rfl⟩

end Retrieval
