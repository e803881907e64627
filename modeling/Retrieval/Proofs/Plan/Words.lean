/-
# Plans in machine words

A planner that counts in words of 32 bits makes a call for every level of a plan, with the depth
that is left there and the hops from the root.  A sum of words may wrap around and a difference may
saturate, and it is not plain to see that the recursion ends: schemas may point at each other in
cycles, and to-many relations use up no depth.  But every call that is reached has depth left and
lies below the ceiling.  So its words do not leave their range, each call that it makes is closer to
the ceiling, and the recursion ends with the plan.
-/
import Mathlib.Data.List.Induction
import Mathlib.Logic.Relation
import Retrieval.Proofs.Plan
import Retrieval.Proofs.Render.Depth
import Retrieval.Proofs.Schema.Walks

namespace Retrieval

namespace Plan

/-! ### Words -/

/-- The difference of two words, or zero where it would be negative. -/
def saturatingSub (a b : UInt32) : UInt32 := if b ≤ a then a - b else 0

lemma toNat_saturatingSub (a b : UInt32) : (saturatingSub a b).toNat = a.toNat - b.toNat := by
  rw [saturatingSub]
  split
  · next h => exact UInt32.toNat_sub_of_le a b h
  · next h =>
    rw [UInt32.le_iff_toNat_le, Nat.not_le] at h
    exact (Nat.sub_eq_zero_of_le (Nat.le_of_lt h)).symm

/-- A word keeps its value as a signed word of twice the width. -/
lemma toInt_toInt64 (a : UInt32) : a.toUInt64.toInt64.toInt = a.toNat := by
  have hlt := a.toNat_lt
  rw [← Int64.toInt_toBitVec, UInt64.toBitVec_toInt64, BitVec.toInt_eq_toNat_of_lt]
  · rw [UInt64.toNat_toBitVec, UInt32.toNat_toUInt64]
  · rw [UInt64.toNat_toBitVec, UInt32.toNat_toUInt64]
    omega

/-- Below another word there is room for one more. -/
lemma toNat_add_one_of_lt {a b : UInt32} (h : a.toNat < b.toNat) :
    (a + 1).toNat = a.toNat + 1 := by
  have hb : b.toNat < 2 ^ 32 := b.toNat_lt
  rw [UInt32.toNat_add]
  exact Nat.mod_eq_of_lt (Nat.lt_of_le_of_lt h hb)

/-! ### Calls -/

/-- A call of the planner, for the relations of a schema. -/
@[ext]
structure Call (g : Graph) where
  schema : g.Id
  /-- The levels of depth that are left. -/
  depth : UInt32
  /-- The number of relations that lead to the schema. -/
  hops : UInt32

namespace Call

variable {g : Graph}

/-- The call for the root, with the lower half of the word that holds the requested depth. -/
def first (root : g.Id) (requested : Int64) : Call g := ⟨root, requested.toUInt64.toUInt32, 0⟩

/-- The levels of depth that are left behind a relation. -/
def depthBehind (c : Call g) (r : Relation g.size) : UInt32 :=
  match r.cardinality with
  | .toOne => saturatingSub c.depth 1
  | .toMany => c.depth

/-- What a call plans for a relation itself. -/
def step (c : Call g) (r : Relation g.size) : Step g.size :=
  ⟨r.target, r.cardinality, (c.depthBehind r).toNat⟩

/-- The call for the target of a relation. -/
def along (c : Call g) (r : Relation g.size) : Call g := ⟨r.target, c.depthBehind r, c.hops + 1⟩

/-- The call that is made for what lies behind a relation.  Whether depth is left is asked of
to-one relations only. -/
def behind? (ceiling : UInt32) (c : Call g) (r : Relation g.size) : Option (Call g) :=
  match r.cardinality with
  | .toOne => if 0 < c.depthBehind r ∧ c.hops + 1 < ceiling then some (c.along r) else none
  | .toMany => if c.hops + 1 < ceiling then some (c.along r) else none

/-- The node that a call plans for a relation, with what the call behind it returns if there is
one. -/
def node (ceiling : UInt32) (c : Call g) (r : Relation g.size)
    (children : List (String × Node g.size)) : Node g.size :=
  match c.behind? ceiling r with
  | none => .closed (c.step r)
  | some _ => .expanded (c.step r) children

end Call

end Plan

namespace Graph

open Plan (Call)

/-- What a call returns, once all calls that it makes have returned.  A call whose recursion does
not end returns nothing. -/
inductive LevelInWords (g : Graph) (ceiling : UInt32) :
    Call g → List (String × Plan.Node g.size) → Prop where
  | level (c : Call g) (children : Relation g.size → List (String × Plan.Node g.size)) :
    (∀ name r next, (name, r) ∈ (g.schema c.schema).relations → c.behind? ceiling r = some next →
      LevelInWords g ceiling next (children r)) →
    LevelInWords g ceiling c
      (Plan.sortByName ((g.schema c.schema).relations.map fun (name, r) =>
        (name, c.node ceiling r (children r))))

/-- The answer to a request for a plan, with the depth in a signed word and the ceiling in an
unsigned one. -/
inductive PlanInWords (g : Graph) (root : g.Id) (requested : Int64) (ceiling : UInt32) :
    Except PlanError (Plan g) → Prop where
  | refused : requested ≤ 0 ∨ ceiling.toUInt64.toInt64 < requested →
    PlanInWords g root requested ceiling
      (.error (.depthOutOfRange requested.toInt ceiling.toNat))
  | planned {relations : List (String × Plan.Node g.size)} :
    ¬ (requested ≤ 0 ∨ ceiling.toUInt64.toInt64 < requested) →
    g.LevelInWords ceiling (Call.first root requested) relations →
    PlanInWords g root requested ceiling
      (.ok ⟨root, (Call.first root requested).depth.toNat, ceiling.toNat, relations⟩)

/-- One call makes another. -/
def Calls (g : Graph) (ceiling : UInt32) (c next : Call g) : Prop :=
  ∃ name r, (name, r) ∈ (g.schema c.schema).relations ∧ c.behind? ceiling r = some next

/-- One call leads to another in some number of calls. -/
def Reaches (g : Graph) (ceiling : UInt32) : Call g → Call g → Prop :=
  Relation.ReflTransGen (g.Calls ceiling)

end Graph

/-! ### One call -/

namespace Plan.Call

variable {g : Graph} {c next : Call g} {ceiling : UInt32} {r : Relation g.size}

lemma toNat_depthBehind (c : Call g) (r : Relation g.size) :
    (c.depthBehind r).toNat = r.depthBehind c.depth.toNat := by
  rw [depthBehind, Relation.depthBehind]
  cases r.cardinality with
  | toOne => exact toNat_saturatingSub c.depth 1
  | toMany => rfl

/-- A call has depth left and lies below the ceiling. -/
structure Within (c : Call g) (ceiling : UInt32) : Prop where
  depth_pos : 0 < c.depth.toNat
  hops_lt : c.hops.toNat < ceiling.toNat

namespace Within

lemma toNat_hops_add_one (h : c.Within ceiling) : (c.hops + 1).toNat = c.hops.toNat + 1 :=
  toNat_add_one_of_lt h.hops_lt

/-- Since depth is left, relations of both kinds are asked the same. -/
lemma behind?_eq (h : c.Within ceiling) (r : Relation g.size) :
    c.behind? ceiling r =
      if 0 < r.depthBehind c.depth.toNat ∧ c.hops.toNat + 1 < ceiling.toNat then some (c.along r)
      else none := by
  have hdepth : 0 < c.depthBehind r ↔ 0 < r.depthBehind c.depth.toNat := by
    rw [UInt32.lt_iff_toNat_lt, toNat_depthBehind, UInt32.toNat_zero]
  have hhops : c.hops + 1 < ceiling ↔ c.hops.toNat + 1 < ceiling.toNat := by
    rw [UInt32.lt_iff_toNat_lt, h.toNat_hops_add_one]
  rw [behind?]
  cases hc : r.cardinality with
  | toOne => simp only [hdepth, hhops]
  | toMany =>
    have hleft : 0 < r.depthBehind c.depth.toNat := by
      rw [Relation.depthBehind, hc]
      exact h.depth_pos
    simp only [hhops, hleft, true_and]

lemma behind?_eq_some_iff (h : c.Within ceiling) :
    c.behind? ceiling r = some next ↔
      (0 < r.depthBehind c.depth.toNat ∧ c.hops.toNat + 1 < ceiling.toNat) ∧ next = c.along r := by
  rw [h.behind?_eq, Option.ite_none_right_eq_some, Option.some.injEq, eq_comm (a := c.along r)]

/-- A call within the bounds makes calls within the bounds. -/
lemma behind (h : c.Within ceiling) (hnext : c.behind? ceiling r = some next) :
    next.Within ceiling := by
  obtain ⟨⟨hdepth, hhops⟩, rfl⟩ := h.behind?_eq_some_iff.1 hnext
  constructor
  · rw [along, toNat_depthBehind]
    exact hdepth
  · rw [along, h.toNat_hops_add_one]
    exact hhops

/-- The calls that a call makes are closer to the ceiling. -/
lemma closer (h : c.Within ceiling) (hnext : c.behind? ceiling r = some next) :
    ceiling.toNat - next.hops.toNat < ceiling.toNat - c.hops.toNat := by
  obtain ⟨⟨-, hhops⟩, rfl⟩ := h.behind?_eq_some_iff.1 hnext
  rw [along, h.toNat_hops_add_one]
  omega

end Within

/-! ### Walks of calls -/

/-- A call is made at the end of a walk from the root, and its words say how far it is and what
depth the walk has left. -/
structure EndsAt (c : Call g) (root : g.Id) (requested : Int) (ceiling : Nat)
    (edges : List (String × Relation g.size)) : Prop where
  walk : g.Walk root edges c.schema
  hops_eq : c.hops.toNat = edges.length
  depth_eq : (c.depth.toNat : Int) = requested - toOnes edges
  length_lt : edges.length < ceiling
  toOnes_lt : (toOnes edges : Int) < requested

namespace EndsAt

variable {root : g.Id} {requested : Int} {name : String}
  {edges : List (String × Relation g.size)}

/-- Words are wide enough to say where a walk within the plan stands. -/
lemma exists_call {i : g.Id} (hwalk : g.Walk root edges i) (hle : requested ≤ ceiling.toNat)
    (hlength : edges.length < ceiling.toNat) (hones : (toOnes edges : Int) < requested) :
    ∃ c : Call g, c.schema = i ∧ c.EndsAt root requested ceiling.toNat edges := by
  have hlt : ceiling.toNat < UInt32.size := ceiling.toNat_lt
  have hhops : (UInt32.ofNat edges.length).toNat = edges.length :=
    UInt32.toNat_ofNat_of_lt' (by omega)
  have hdepth : ((UInt32.ofNat (requested - toOnes edges).toNat).toNat : Int) =
      requested - toOnes edges := by
    rw [UInt32.toNat_ofNat_of_lt' (by omega)]
    omega
  exact ⟨⟨i, .ofNat (requested - toOnes edges).toNat, .ofNat edges.length⟩, rfl,
    hwalk, hhops, hdepth, hlength, hones⟩

lemma within (h : c.EndsAt root requested ceiling.toNat edges) : c.Within ceiling where
  depth_pos := by
    have hdepth := h.depth_eq
    have hones := h.toOnes_lt
    omega
  hops_lt := by
    rw [h.hops_eq]
    exact h.length_lt

/-- A walk and where it ends determine the call. -/
lemma eq (h : c.EndsAt root requested ceiling.toNat edges)
    (hnext : next.EndsAt root requested ceiling.toNat edges) (hschema : c.schema = next.schema) :
    c = next := by
  have hdepth := h.depth_eq
  have hhops := h.hops_eq
  rw [← hnext.depth_eq] at hdepth
  rw [← hnext.hops_eq] at hhops
  exact Call.ext hschema (UInt32.toNat_inj.1 (by omega)) (UInt32.toNat_inj.1 hhops)

/-- What is left behind a relation is what is left of the walk with the relation at its end. -/
lemma depthBehind_eq (h : c.EndsAt root requested ceiling.toNat edges) (name : String)
    (r : Relation g.size) :
    (r.depthBehind c.depth.toNat : Int) = requested - toOnes (edges ++ [(name, r)]) := by
  have hdepth := h.depth_eq
  have hones := h.toOnes_lt
  rw [Relation.depthBehind, toOnes_append, toOnes_cons, toOnes_nil]
  cases r.cardinality <;> dsimp only <;> omega

/-- The call at the end of a walk with one more relation is the one that is made behind it. -/
lemma concat_iff (h : c.EndsAt root requested ceiling.toNat edges)
    (hr : (name, r) ∈ (g.schema c.schema).relations) :
    next.EndsAt root requested ceiling.toNat (edges ++ [(name, r)]) ↔
      c.behind? ceiling r = some next := by
  have hdepth := h.depthBehind_eq name r
  have hhops := h.hops_eq
  have hlength : (edges ++ [(name, r)]).length = edges.length + 1 := by simp
  rw [h.within.behind?_eq_some_iff]
  constructor
  · intro hnext
    obtain ⟨_, -, -, htarget⟩ := Graph.Walk.concat_iff.1 hnext.walk
    have hlt := hnext.length_lt
    have hones := hnext.toOnes_lt
    refine ⟨⟨by omega, by omega⟩, Call.ext htarget.symm (UInt32.toNat_inj.1 ?_)
      (UInt32.toNat_inj.1 ?_)⟩
    · have hleft := hnext.depth_eq
      rw [along, toNat_depthBehind]
      omega
    · rw [hnext.hops_eq, hlength, along, h.within.toNat_hops_add_one, hhops]
  · rintro ⟨⟨hleft, hlt⟩, rfl⟩
    constructor
    · exact Graph.Walk.concat_iff.2 ⟨c.schema, h.walk, hr, rfl⟩
    · rw [hlength, along, h.within.toNat_hops_add_one, hhops]
    · rw [along, toNat_depthBehind, hdepth]
    · omega
    · omega

end EndsAt

/-- The words of a call are in range, and what is computed from them is exact: one hop more does not
wrap around, and one level of depth less does not saturate. -/
structure Exact (c : Call g) (requested : Int64) (ceiling : UInt32) : Prop where
  one_le_depth : 1 ≤ c.depth
  depth_le : (c.depth.toNat : Int) ≤ requested.toInt
  hops_lt : c.hops < ceiling
  toNat_hops_add_one : (c.hops + 1).toNat = c.hops.toNat + 1
  toNat_depth_sub_one : ((saturatingSub c.depth 1).toNat : Int) = c.depth.toNat - 1

variable {root : g.Id} {requested : Int64}

/-- A depth up to the ceiling is found in the lower half of its word. -/
lemma toNat_depth_first (root : g.Id) (hpos : 1 ≤ requested.toInt)
    (hle : requested.toInt ≤ ceiling.toNat) :
    ((first root requested).depth.toNat : Int) = requested.toInt := by
  have hlt := ceiling.toNat_lt
  have hsign : 0 ≤ requested := by
    rw [Int64.le_iff_toInt_le, Int64.toInt_zero]
    omega
  rw [first, UInt64.toNat_toUInt32, Int64.toNat_toUInt64_of_le hsign, Int64.toNatClampNeg]
  omega

lemma endsAt_first (root : g.Id) (hpos : 1 ≤ requested.toInt)
    (hle : requested.toInt ≤ ceiling.toNat) :
    (first root requested).EndsAt root requested.toInt ceiling.toNat [] := by
  constructor
  · exact .nil root
  · exact UInt32.toNat_zero
  · rw [toNat_depth_first root hpos hle, toOnes_nil, Int.natCast_zero, Int.sub_zero]
  · rw [List.length_nil]
    omega
  · rw [toOnes_nil]
    omega

lemma EndsAt.exact {edges : List (String × Relation g.size)}
    (h : c.EndsAt root requested.toInt ceiling.toNat edges) : c.Exact requested ceiling where
  one_le_depth := UInt32.le_iff_toNat_le.2 h.within.depth_pos
  depth_le := by
    rw [h.depth_eq]
    omega
  hops_lt := UInt32.lt_iff_toNat_lt.2 h.within.hops_lt
  toNat_hops_add_one := h.within.toNat_hops_add_one
  toNat_depth_sub_one := by
    have hpos := h.within.depth_pos
    rw [toNat_saturatingSub, UInt32.toNat_one]
    omega

end Plan.Call

namespace Graph

open Plan (Call)

variable {g : Graph} {c : Call g} {ceiling : UInt32}

/-- The level that is planned in numbers where a call stands. -/
def levelAt (g : Graph) (ceiling : UInt32) (c : Call g) : List (String × Plan.Node g.size) :=
  g.planLevel (ceiling.toNat - c.hops.toNat) c.depth.toNat c.schema

/-- The node of a relation is the one that a call within the bounds plans. -/
lemma planNode_eq_node (h : c.Within ceiling) (r : Relation g.size) :
    g.planNode (ceiling.toNat - c.hops.toNat - 1) c.depth.toNat r =
      c.node ceiling r (g.levelAt ceiling (c.along r)) := by
  rw [planNode, Call.node, h.behind?_eq, Call.step, Call.toNat_depthBehind]
  split
  · next hopen =>
    rw [if_pos ⟨hopen.1, by omega⟩, levelAt, Call.along, Call.toNat_depthBehind,
      h.toNat_hops_add_one, Nat.sub_sub]
  · next hclosed => rw [if_neg fun hopen => hclosed ⟨hopen.1, by omega⟩]

lemma levelAt_eq (h : c.Within ceiling) :
    g.levelAt ceiling c =
      Plan.sortByName ((g.schema c.schema).relations.map fun (name, r) =>
        (name, c.node ceiling r (g.levelAt ceiling (c.along r)))) := by
  have hhops := h.hops_lt
  have hsteps : ceiling.toNat - c.hops.toNat = ceiling.toNat - c.hops.toNat - 1 + 1 := by omega
  rw [levelAt, hsteps, planLevel_succ]
  simp only [planNode_eq_node h]

/-- A call within the bounds returns the level where it stands. -/
lemma levelInWords_levelAt {c : Call g} (h : c.Within ceiling) :
    g.LevelInWords ceiling c (g.levelAt ceiling c) := by
  rw [levelAt_eq h]
  refine .level c (fun r => g.levelAt ceiling (c.along r)) fun name r next _ hnext => ?_
  obtain ⟨-, rfl⟩ := h.behind?_eq_some_iff.1 hnext
  exact levelInWords_levelAt (h.behind hnext)
-- a schema may come back with the same depth, but not as far below the ceiling
termination_by ceiling.toNat - c.hops.toNat
decreasing_by exact h.closer hnext

/-- A call within the bounds returns nothing else. -/
lemma eq_levelAt_of_levelInWords {nodes : List (String × Plan.Node g.size)}
    (hnodes : g.LevelInWords ceiling c nodes) (h : c.Within ceiling) :
    nodes = g.levelAt ceiling c := by
  induction hnodes with
  | level c children _ ih =>
    rw [levelAt_eq h]
    refine congrArg Plan.sortByName (List.map_congr_left ?_)
    rintro ⟨name, r⟩ hr
    dsimp only [Call.node]
    cases hnext : c.behind? ceiling r with
    | none => rfl
    | some next =>
      obtain ⟨-, rfl⟩ := h.behind?_eq_some_iff.1 hnext
      rw [ih name r _ hr hnext (h.behind hnext)]

lemma levelInWords_iff (h : c.Within ceiling) {nodes : List (String × Plan.Node g.size)} :
    g.LevelInWords ceiling c nodes ↔ nodes = g.levelAt ceiling c := by
  constructor
  · intro hnodes
    exact eq_levelAt_of_levelInWords hnodes h
  · rintro rfl
    exact levelInWords_levelAt h

/-! ### All calls -/

variable {root : g.Id} {requested : Int64}

lemma planInWords_iff {answer : Except PlanError (Plan g)} :
    g.PlanInWords root requested ceiling answer ↔
      answer = g.plan root requested.toInt ceiling.toNat := by
  have hrange : (requested ≤ 0 ∨ ceiling.toUInt64.toInt64 < requested) ↔
      ¬ (1 ≤ requested.toInt ∧ requested.toInt ≤ ceiling.toNat) := by
    rw [Int64.le_iff_toInt_le, Int64.lt_iff_toInt_lt, Plan.toInt_toInt64, Int64.toInt_zero]
    omega
  by_cases h : 1 ≤ requested.toInt ∧ requested.toInt ≤ ceiling.toNat
  · have hends := Call.endsAt_first root h.1 h.2
    have hplan : g.plan root requested.toInt ceiling.toNat =
        .ok ⟨root, (Call.first root requested).depth.toNat, ceiling.toNat,
          g.levelAt ceiling (Call.first root requested)⟩ := by
      have hword := Call.toNat_depth_first root h.1 h.2
      have hdepth : (Call.first root requested).depth.toNat = requested.toInt.toNat := by omega
      rw [plan_eq_ok_iff, levelAt, hdepth]
      exact ⟨h, rfl⟩
    rw [hplan]
    constructor
    · rintro (hrefused | ⟨-, hrelations⟩)
      · exact absurd h (hrange.1 hrefused)
      · rw [eq_levelAt_of_levelInWords hrelations hends.within]
    · rintro rfl
      exact .planned (fun hrefused => hrange.1 hrefused h) (levelInWords_levelAt hends.within)
  · rw [plan, if_neg h]
    constructor
    · rintro (- | ⟨hplanned, -⟩)
      · rfl
      · exact absurd (hrange.2 h) hplanned
    · rintro rfl
      exact .refused (hrange.2 h)

/-- The calls that are reached are those at the ends of the walks that stay below the ceiling and
use up less than the requested depth. -/
lemma reaches_iff (hpos : 1 ≤ requested.toInt) (hle : requested.toInt ≤ ceiling.toNat) :
    g.Reaches ceiling (Call.first root requested) c ↔
      ∃ edges, c.EndsAt root requested.toInt ceiling.toNat edges := by
  have hfirst := Call.endsAt_first root hpos hle
  constructor
  · intro h
    induction h with
    | refl => exact ⟨[], hfirst⟩
    | tail _ hcall ih =>
      obtain ⟨edges, hends⟩ := ih
      obtain ⟨name, r, hr, hnext⟩ := hcall
      exact ⟨edges ++ [(name, r)], (hends.concat_iff hr).2 hnext⟩
  · rintro ⟨edges, h⟩
    induction edges using List.reverseRecOn generalizing c with
    | nil =>
      have hroot : ∀ {i}, g.Walk root [] i → i = root := by
        rintro _ ⟨⟩
        rfl
      rw [h.eq hfirst (hroot h.walk)]
      exact .refl
    | append_singleton edges edge ih =>
      obtain ⟨name, r⟩ := edge
      obtain ⟨j, hwalk, hr, -⟩ := Walk.concat_iff.1 h.walk
      have hlength := h.length_lt
      have hones := h.toOnes_lt
      rw [List.length_append, List.length_singleton] at hlength
      rw [toOnes_append] at hones
      obtain ⟨before, rfl, hbefore⟩ := Call.EndsAt.exists_call hwalk hle (by omega) (by omega)
      exact (ih hbefore).tail ⟨name, r, hr, (hbefore.concat_iff hr).1 h⟩

end Graph

open Plan (Call)

/-- **Plans are computed exactly in words.**  For any graph, cyclic or not, any requested depth and
any ceiling, the planner that counts in words gives the answer that is given in numbers.  A depth
that is not refused fits into its word; the calls that are reached are those at the ends of the
walks within the plan; no word of theirs leaves its range, the calls that they make are closer to
the ceiling, and each of them returns its level and nothing else. -/
theorem plan_exact_in_words (g : Graph) (root : g.Id) (requested : Int64) (ceiling : UInt32) :
    (∀ answer, g.PlanInWords root requested ceiling answer ↔
      answer = g.plan root requested.toInt ceiling.toNat) ∧
    ∀ plan, g.plan root requested.toInt ceiling.toNat = .ok plan →
      ((Call.first root requested).depth.toNat : Int) = requested.toInt ∧
      (∀ c, g.Reaches ceiling (Call.first root requested) c ↔
        ∃ edges, c.EndsAt root requested.toInt ceiling.toNat edges) ∧
      ∀ c, g.Reaches ceiling (Call.first root requested) c →
        c.Exact requested ceiling ∧
        (∀ next, g.Calls ceiling c next →
          ceiling.toNat - next.hops.toNat < ceiling.toNat - c.hops.toNat) ∧
        ∀ nodes, g.LevelInWords ceiling c nodes ↔
          nodes = g.planLevel (ceiling.toNat - c.hops.toNat) c.depth.toNat c.schema := by
  refine ⟨fun _ => Graph.planInWords_iff, fun plan hplan => ?_⟩
  obtain ⟨⟨hpos, hle⟩, -⟩ := Graph.plan_eq_ok_iff.1 hplan
  refine ⟨Call.toNat_depth_first root hpos hle, fun c => Graph.reaches_iff hpos hle, fun c hc => ?_⟩
  obtain ⟨edges, hends⟩ := (Graph.reaches_iff hpos hle).1 hc
  refine ⟨hends.exact, ?_, fun _ => Graph.levelInWords_iff hends.within⟩
  rintro next ⟨_, _, -, hnext⟩
  exact hends.within.closer hnext

theorem plan_exact_in_words_staff :
    ∃ root : staffGraph.Id, staffGraph.find? "Person" = some root ∧
    ∃ plan, staffGraph.plan root (1 : Int64).toInt (4294967295 : UInt32).toNat = .ok plan ∧
    -- the reports of a person are planned by a call that differs in the hops only
    ∃ c : Call staffGraph, c = ⟨root, (Call.first root 1).depth, 1⟩ ∧
      staffGraph.Reaches 4294967295 (Call.first root 1) c ∧
      c.Exact 1 4294967295 ∧
      (∀ next, staffGraph.Calls 4294967295 c next →
        (4294967295 : UInt32).toNat - next.hops.toNat <
          (4294967295 : UInt32).toNat - c.hops.toNat) ∧
      ∀ nodes, staffGraph.LevelInWords 4294967295 c nodes ↔
        nodes = staffGraph.planLevel ((4294967295 : UInt32).toNat - c.hops.toNat) c.depth.toNat
          c.schema := by
  obtain ⟨plan, hplan⟩ : ∃ plan, staffGraph.plan ⟨0, by decide⟩ (1 : Int64).toInt
      (4294967295 : UInt32).toNat = .ok plan :=
    ⟨_, Graph.plan_eq_ok_iff.2 ⟨by decide, rfl⟩⟩
  have hreports : staffGraph.Calls 4294967295 (Call.first ⟨0, by decide⟩ 1)
      ⟨⟨0, by decide⟩, 1, 1⟩ :=
    ⟨"reports", ⟨.toMany, true, ⟨0, by decide⟩, some "manager"⟩, by decide, rfl⟩
  have hreach : staffGraph.Reaches 4294967295 (Call.first ⟨0, by decide⟩ 1)
      ⟨⟨0, by decide⟩, 1, 1⟩ := .single hreports
  obtain ⟨-, hcalls⟩ := plan_exact_in_words staffGraph ⟨0, by decide⟩ 1 4294967295
  obtain ⟨-, -, hreached⟩ := hcalls plan hplan
  exact ⟨_, find?_person_staff, plan, hplan, _, rfl, hreach, hreached _ hreach⟩

end Retrieval
