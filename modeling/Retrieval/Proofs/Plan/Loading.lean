/-
# The paths that reads load

What a plan loads is listed as dotted paths, of which each stands for all that lies on it.  Chains of
joins are listed at their ends, relations that are loaded by reads of their own wherever they stand.
The listing is exact: no path is listed twice, and every node is listed or lies on a chain of joins
to a listed end.
-/
import Retrieval.Proofs.Plan.Walks
import Retrieval.Proofs.Text

namespace Retrieval

lemma FetchMode.eq_ite_iff {mode : FetchMode} {p : Prop} [Decidable p] :
    (mode = if p then .separate else .join) ↔ (mode = .separate ↔ p) := by
  cases mode <;> split <;> simp_all

namespace Plan

/-! ### Dotted texts -/

/-- Paths are extended name by name to the dotted text of their names. -/
lemma foldl_extendPath {front : List String} (hfront : ∀ name ∈ front, name ≠ "")
    {names : List String} (hnames : ∀ name ∈ names, name ≠ "") :
    names.foldl extendPath (Text.joined "." front) = Text.joined "." (front ++ names) := by
  induction names generalizing front with
  | nil => rw [List.foldl_nil, List.append_nil]
  | cons name names ih =>
    have hone : extendPath (Text.joined "." front) name = Text.joined "." (front ++ [name]) := by
      rw [extendPath]
      cases front with
      | nil => rfl
      | cons first front =>
        have hne := Text.joined_cons_ne_empty "." (hfront first (by simp)) front
        rw [if_neg (by simpa using hne), Text.joined_concat "." (by simp)]
    obtain ⟨hname, hrest⟩ := List.forall_mem_cons.1 hnames
    have hextended : ∀ other ∈ front ++ [name], other ≠ "" := by
      simpa [or_imp, forall_and] using ⟨hfront, hname⟩
    rw [List.foldl_cons, hone, ih hextended hrest, List.append_assoc, List.singleton_append]

namespace Node

variable {n : Nat} {nodes : List (String × Node n)} {node : Node n} {path rest : List String}
  {name : String} {mode : FetchMode}

/-! ### Paths to nodes -/

/-- The nodes behind a node. -/
def behind (node : Node n) : List (String × Node n) := node.children?.getD []

lemma ne_nil_of_at? (h : at? nodes path = some node) : path ≠ [] := by
  rintro rfl
  cases h

lemma at?_cons_eq_some_iff :
    at? nodes (name :: path) = some node ↔
      ∃ first, nodes.lookup name = some first ∧
        ((path = [] ∧ first = node) ∨ at? first.behind path = some node) := by
  by_cases hpath : path = []
  · subst hpath
    simp [at?]
  · rw [at?_cons _ _ hpath, Option.bind_eq_some_iff]
    simp only [Option.bind_eq_some_iff, hpath, false_and, false_or, behind]
    constructor
    · rintro ⟨children, ⟨first, hfirst, hchildren⟩, hnode⟩
      exact ⟨first, hfirst, by rwa [hchildren]⟩
    · rintro ⟨first, hfirst, hnode⟩
      cases hchildren : first.children? with
      | none =>
        obtain ⟨next, rest, rfl⟩ := List.exists_cons_of_ne_nil hpath
        cases rest <;> simp [hchildren, at?] at hnode
      | some children => exact ⟨children, ⟨first, hfirst, hchildren⟩, by simpa [hchildren] using hnode⟩

/-- Behind the node of a path a path goes on. -/
lemma at?_append (h : at? nodes path = some node) (hrest : rest ≠ []) :
    at? nodes (path ++ rest) = at? node.behind rest := by
  induction path generalizing nodes with
  | nil => cases h
  | cons name path ih =>
    obtain ⟨first, hfirst, hpath⟩ := at?_cons_eq_some_iff.1 h
    have hne : path ++ rest ≠ [] := by simp [hrest]
    have hcons : at? nodes (name :: (path ++ rest)) = at? first.behind (path ++ rest) := by
      ext node'
      simp [at?_cons_eq_some_iff, hfirst, hne]
    rw [List.cons_append, hcons]
    rcases hpath with ⟨rfl, rfl⟩ | hpath
    · rfl
    · exact ih hpath

lemma isSome_at?_front {front : List String} (h : (at? nodes path).isSome)
    (hne : front ≠ []) (hpre : front <+: path) : (at? nodes front).isSome := by
  obtain ⟨rest, rfl⟩ := hpre
  induction front generalizing nodes with
  | nil => exact absurd rfl hne
  | cons name front ih =>
    obtain ⟨node, hnode⟩ := Option.isSome_iff_exists.1 h
    obtain ⟨first, hfirst, hbehind⟩ := at?_cons_eq_some_iff.1 hnode
    by_cases hfront : front = []
    · subst hfront
      simp [at?, hfirst]
    · have hat : at? first.behind (front ++ rest) = some node :=
        hbehind.resolve_left fun hnil => hfront (List.append_eq_nil_iff.1 hnil.1).1
      obtain ⟨node', hnode'⟩ := Option.isSome_iff_exists.1 (ih hfront (by rw [hat]; rfl))
      exact Option.isSome_iff_exists.2 ⟨node', at?_cons_eq_some_iff.2 ⟨first, hfirst, .inr hnode'⟩⟩

/-! ### Trees without repeated names -/

/-- Nodes of which no two have the same name, and neither have the nodes behind them. -/
inductive Unrepeated : List (String × Node n) → Prop where
  | intro {nodes : List (String × Node n)} :
    (nodes.map Prod.fst).Nodup → (∀ named ∈ nodes, Unrepeated named.2.behind) → Unrepeated nodes

lemma Unrepeated.nodup (h : Unrepeated nodes) : (nodes.map Prod.fst).Nodup := by
  cases h
  assumption

lemma Unrepeated.lookup_iff (h : Unrepeated nodes) :
    nodes.lookup name = some node ↔ (name, node) ∈ nodes := lookup_eq_some_iff_mem h.nodup

lemma Unrepeated.of_at? (h : Unrepeated nodes) (hnode : at? nodes path = some node) :
    Unrepeated node.behind := by
  induction path generalizing nodes with
  | nil => cases hnode
  | cons name path ih =>
    obtain ⟨first, hfirst, hpath⟩ := at?_cons_eq_some_iff.1 hnode
    have hbehind : Unrepeated first.behind := by
      have hmem := h.lookup_iff.1 hfirst
      cases h with
      | intro _ hall => exact hall _ hmem
    rcases hpath with ⟨rfl, rfl⟩ | hpath
    · exact hbehind
    · exact ih hbehind hpath

/-! ### How nodes are loaded -/

/-- Whether a path leads to a node that is loaded in a way. -/
def LoadedBy (nodes : List (String × Node n)) (path : List String) (mode : FetchMode) : Prop :=
  ∃ node, at? nodes path = some node ∧ node.step.mode = mode

/-- A path to a join that has no join behind it. -/
structure EndsJoins (nodes : List (String × Node n)) (path : List String) : Prop where
  join : LoadedBy nodes path .join
  last : ∀ name, ¬ LoadedBy nodes (path ++ [name]) .join

/-- A path on which joins lead to its last node. -/
def BehindJoins (nodes : List (String × Node n)) (path : List String) : Prop :=
  ∀ front, front <+: path → front ≠ path → front ≠ [] → LoadedBy nodes front .join

/-- A path on which some node in front of its last one is loaded by a read of its own. -/
def BehindSeparate (nodes : List (String × Node n)) (path : List String) : Prop :=
  ∃ front, front <+: path ∧ front ≠ path ∧ LoadedBy nodes front .separate

lemma loadedBy_iff (h : at? nodes path = some node) :
    LoadedBy nodes path mode ↔ node.step.mode = mode := by
  simp [LoadedBy, h]

lemma LoadedBy.ne_nil (h : LoadedBy nodes path mode) : path ≠ [] := by
  obtain ⟨node, hnode, -⟩ := h
  exact ne_nil_of_at? hnode

lemma LoadedBy.isSome (h : LoadedBy nodes path mode) : (at? nodes path).isSome := by
  obtain ⟨node, hnode, -⟩ := h
  rw [hnode, Option.isSome_some]

lemma loadedBy_append_iff (h : at? nodes path = some node) (hrest : rest ≠ []) :
    LoadedBy nodes (path ++ rest) mode ↔ LoadedBy node.behind rest mode := by
  rw [LoadedBy, at?_append h hrest, LoadedBy]

/-- A node is loaded in one way only. -/
lemma LoadedBy.unique {mode' : FetchMode} (h : LoadedBy nodes path mode)
    (h' : LoadedBy nodes path mode') : mode = mode' := by
  obtain ⟨node, hnode, rfl⟩ := h
  exact (loadedBy_iff hnode).1 h'

lemma behindJoins_iff_not_behindSeparate (h : (at? nodes path).isSome) :
    BehindJoins nodes path ↔ ¬ BehindSeparate nodes path := by
  constructor
  · rintro hjoins ⟨front, hpre, hne, hseparate⟩
    cases (hjoins front hpre hne hseparate.ne_nil).unique hseparate
  · intro hnot front hpre hne hfront
    obtain ⟨node, hnode⟩ := Option.isSome_iff_exists.1 (isSome_at?_front h hfront hpre)
    cases hmode : node.step.mode with
    | join => exact ⟨node, hnode, hmode⟩
    | separate => exact absurd ⟨front, hpre, hne, node, hnode, hmode⟩ hnot

/-- A node on a path is loaded by a read of its own if the last one is, or one in front of it. -/
lemma exists_prefix_iff :
    (∃ front, front <+: path ∧ LoadedBy nodes front .separate) ↔
      LoadedBy nodes path .separate ∨ BehindSeparate nodes path := by
  constructor
  · rintro ⟨front, hpre, hseparate⟩
    by_cases hne : front = path
    · exact .inl (hne ▸ hseparate)
    · exact .inr ⟨front, hpre, hne, hseparate⟩
  · rintro (hseparate | ⟨front, hpre, -, hseparate⟩)
    · exact ⟨path, List.prefix_refl path, hseparate⟩
    · exact ⟨front, hpre, hseparate⟩

lemma anyJoin_iff (h : (nodes.map Prod.fst).Nodup) :
    anyJoin nodes = true ↔ ∃ name, LoadedBy nodes [name] .join := by
  simp only [anyJoin, List.any_eq_true, decide_eq_true_eq, Prod.exists, LoadedBy, at?,
    lookup_eq_some_iff_mem h]

/-- A path along another one stops at its first name or goes on behind that. -/
lemma eq_singleton_or_exists_tail {front : List String} (hne : front ≠ [])
    (hpre : front <+: name :: path) :
    front = [name] ∨ ∃ tail, tail ≠ [] ∧ tail <+: path ∧ front = name :: tail := by
  obtain ⟨first, tail, rfl⟩ := List.exists_cons_of_ne_nil hne
  obtain ⟨rfl, htail⟩ := List.cons_prefix_cons.1 hpre
  by_cases hnil : tail = []
  · exact .inl (by rw [hnil])
  · exact .inr ⟨tail, hnil, htail, rfl⟩

/-- A chain of joins goes on to its end. -/
lemma exists_endsJoins (h : Unrepeated nodes) (hjoin : LoadedBy nodes [name] .join) :
    ∃ rest, EndsJoins nodes (name :: rest) ∧
      ∀ front, front ≠ [] → front <+: name :: rest → LoadedBy nodes front .join := by
  induction h generalizing name with
  | @intro nodes hnodup hbehind ih =>
    obtain ⟨node, hnode, hmode⟩ := hjoin
    have hmem : (name, node) ∈ nodes := (lookup_eq_some_iff_mem hnodup).1 hnode
    have hgoes : ∀ {rest}, rest ≠ [] →
        (LoadedBy nodes (name :: rest) .join ↔ LoadedBy node.behind rest .join) :=
      fun hrest => loadedBy_append_iff hnode hrest
    have hchain : ∀ rest,
        (∀ front, front ≠ [] → front <+: rest → LoadedBy node.behind front .join) →
          ∀ front, front ≠ [] → front <+: name :: rest → LoadedBy nodes front .join := by
      intro rest hrest front hne hpre
      rcases eq_singleton_or_exists_tail hne hpre with rfl | ⟨tail, hnil, htail, rfl⟩
      · exact ⟨node, hnode, hmode⟩
      · exact (hgoes hnil).2 (hrest tail hnil htail)
    by_cases hnext : ∃ next, LoadedBy node.behind [next] .join
    · -- one of the joins behind the node has an end already
      obtain ⟨next, hnext⟩ := hnext
      obtain ⟨rest, hends, hall⟩ := ih _ hmem hnext
      refine ⟨next :: rest, ⟨(hgoes (by simp)).2 hends.join, fun last hlast => ?_⟩, hchain _ hall⟩
      exact hends.last last ((hgoes (by simp)).1 hlast)
    · refine ⟨[], ⟨⟨node, hnode, hmode⟩, fun last hlast => ?_⟩, hchain [] (by simp_all)⟩
      exact hnext ⟨last, (hgoes (by simp)).1 hlast⟩

/-! ### The listing -/

/-- Whether a node is listed: it is loaded by a read of its own, or no join stands behind it. -/
def ends (node : Node n) : Bool := node.step.mode = .separate || !anyJoin node.behind

lemma ends_iff (h : Unrepeated nodes) (hnode : at? nodes path = some node) :
    node.ends ↔ LoadedBy nodes path .separate ∨ EndsJoins nodes path := by
  have hany := anyJoin_iff (h.of_at? hnode).nodup
  have hlast : ∀ name, LoadedBy nodes (path ++ [name]) .join ↔ LoadedBy node.behind [name] .join :=
    fun name => loadedBy_append_iff hnode (by simp)
  have hends : EndsJoins nodes path ↔ node.step.mode = .join ∧ anyJoin node.behind = false := by
    rw [← Bool.not_eq_true, hany]
    simp only [← hlast, not_exists]
    exact ⟨fun h => ⟨(loadedBy_iff hnode).1 h.join, h.last⟩,
      fun h => ⟨(loadedBy_iff hnode).2 h.1, h.2⟩⟩
  rw [hends, loadedBy_iff hnode, ends]
  cases node.step.mode <;> simp

/-- From a node on the node itself is listed, if it is, and what is listed behind it. -/
lemma loads_eq (text : String) (below : Bool) (node : Node n) :
    loads text below node =
      (if node.ends then
        [(if below || node.step.mode = .separate then .separate else .join, text)] else []) ++
        loadsAll text (below || node.step.mode = .separate) node.behind := by
  cases node with
  | closed s =>
    cases hmode : s.mode <;>
      simp [loads, loadsAll, ends, behind, children?, step, hmode, anyJoin]
  | expanded s children =>
    cases hmode : s.mode with
    | separate => simp [loads, ends, behind, children?, step, hmode]
    | join =>
      cases hany : anyJoin children <;>
        simp [loads, ends, behind, children?, step, hmode, hany]

lemma mem_loadsAll_iff {base : String} {below : Bool} {x : FetchMode × String} :
    x ∈ loadsAll base below nodes ↔
      ∃ named ∈ nodes, x ∈ loads (extendPath base named.1) below named.2 := by
  induction nodes with
  | nil => simp [loadsAll]
  | cons named nodes ih =>
    obtain ⟨name, node⟩ := named
    rw [loadsAll, List.mem_append, ih]
    simp

/-- A node on a path is loaded in a way if the first one is, or one behind that. -/
lemma exists_prefix_cons_iff (h : nodes.lookup name = some node) :
    (∃ front, front <+: name :: path ∧ LoadedBy nodes front mode) ↔
      node.step.mode = mode ∨ ∃ front, front <+: path ∧ LoadedBy node.behind front mode := by
  have hnode : at? nodes [name] = some node := h
  constructor
  · rintro ⟨front, hpre, hloaded⟩
    rcases eq_singleton_or_exists_tail hloaded.ne_nil hpre with rfl | ⟨tail, hne, htail, rfl⟩
    · exact .inl ((loadedBy_iff hnode).1 hloaded)
    · exact .inr ⟨tail, htail, (loadedBy_append_iff hnode hne).1 hloaded⟩
  · rintro (hmode | ⟨front, hpre, hloaded⟩)
    · exact ⟨[name], by simp, (loadedBy_iff hnode).2 hmode⟩
    · exact ⟨name :: front, by simpa using hpre,
        (loadedBy_append_iff hnode hloaded.ne_nil).2 hloaded⟩

/-- What is listed are the paths to the nodes that are, as separate if some node on them is. -/
lemma mem_loadsAll_iff_at? (h : Unrepeated nodes) {base text : String} {below : Bool} :
    (mode, text) ∈ loadsAll base below nodes ↔
      ∃ path node, at? nodes path = some node ∧ node.ends ∧ text = path.foldl extendPath base ∧
        (mode = .separate ↔
          below = true ∨ ∃ front, front <+: path ∧ LoadedBy nodes front .separate) := by
  -- behind a node that is loaded by a read of its own all is, which `below` hands on
  induction h generalizing base below with
  | @intro nodes hnodup hbehind ih =>
    rw [mem_loadsAll_iff]
    constructor
    · rintro ⟨⟨name, node⟩, hmem, hlisted⟩
      have hlookup := (lookup_eq_some_iff_mem hnodup).2 hmem
      rw [loads_eq, List.mem_append] at hlisted
      rcases hlisted with hself | hlisted
      · split at hself
        · next hends =>
          rw [List.mem_singleton, Prod.mk.injEq, FetchMode.eq_ite_iff] at hself
          obtain ⟨hmode, rfl⟩ := hself
          refine ⟨[name], node, hlookup, hends, rfl, ?_⟩
          rw [exists_prefix_cons_iff hlookup, hmode]
          simp [LoadedBy, at?]
        · cases hself
      · obtain ⟨path, node', hnode', hends, rfl, hmode⟩ := (ih _ hmem).1 hlisted
        refine ⟨name :: path, node', at?_cons_eq_some_iff.2 ⟨node, hlookup, .inr hnode'⟩, hends, rfl,
          ?_⟩
        rw [hmode, exists_prefix_cons_iff hlookup]
        simp [or_assoc]
    · rintro ⟨path, node', hnode', hends, rfl, hmode⟩
      obtain ⟨name, path, rfl⟩ := List.exists_cons_of_ne_nil (ne_nil_of_at? hnode')
      obtain ⟨node, hlookup, hpath⟩ := at?_cons_eq_some_iff.1 hnode'
      have hmem := (lookup_eq_some_iff_mem hnodup).1 hlookup
      refine ⟨(name, node), hmem, ?_⟩
      rw [exists_prefix_cons_iff hlookup] at hmode
      rw [loads_eq, List.mem_append]
      rcases hpath with ⟨rfl, rfl⟩ | hpath
      · left
        rw [if_pos hends, List.mem_singleton, Prod.mk.injEq, FetchMode.eq_ite_iff, hmode]
        simp [LoadedBy, at?]
      · right
        refine (ih _ hmem).2 ⟨path, node', hpath, hends, rfl, ?_⟩
        rw [hmode]
        simp [or_assoc]

mutual

/-- No text is listed but those of the paths from a node on, and each at most once. -/
lemma texts_loads_sublist (text : String) (below : Bool) (node : Node n) :
    ((loads text below node).map Prod.snd).Sublist
      (text :: (pathsBehind node).map (·.foldl extendPath text)) := by
  have hself : ∀ mode : FetchMode,
      ((if node.ends then [(mode, text)] else []).map Prod.snd).Sublist [text] := by
    intro mode
    split <;> simp
  rw [loads_eq, List.map_append]
  refine (hself _).append ?_
  cases node with
  | closed s => simp [behind, children?, loadsAll]
  | expanded s children => exact texts_loadsAll_sublist text _ children

lemma texts_loadsAll_sublist (base : String) (below : Bool) (nodes : List (String × Node n)) :
    ((loadsAll base below nodes).map Prod.snd).Sublist
      ((paths nodes).map (·.foldl extendPath base)) := by
  match nodes with
  | [] => simp [loadsAll]
  | (name, node) :: rest =>
    have hnode := texts_loads_sublist (extendPath base name) below node
    have hrest := texts_loadsAll_sublist base below rest
    rw [loadsAll, paths, List.map_append, List.map_append]
    refine List.Sublist.append ?_ hrest
    simpa [Function.comp_def] using hnode

end

end Node

end Plan

namespace Graph

variable {g : Graph}

/-- The attributes of a graph have names that can be told from dotted paths: they are not empty and
have no dot. -/
def Dotless (g : Graph) : Prop :=
  ∀ i, ∀ a ∈ (g.schema i).attributes, a.name ≠ "" ∧ '.' ∉ a.name.toList

lemma Dotless.of_walk (h : g.Dotless) {i j : g.Id} {edges : List (String × Relation g.size)}
    (hwalk : g.Walk i edges j) :
    ∀ name ∈ edges.map Prod.fst, name ≠ "" ∧ '.' ∉ name.toList := by
  induction hwalk with
  | nil => simp
  | @cons i j first r edges hr _ ih =>
    rw [List.map_cons, List.forall_mem_cons]
    exact ⟨h i _ (Schema.mem_relations_iff.1 hr), ih⟩

variable (hg : ∀ i, (g.schema i).Distinct)
include hg

lemma unrepeated_planLevel (steps depth : Nat) (i : g.Id) :
    Plan.Node.Unrepeated (g.planLevel steps depth i) := by
  induction steps generalizing depth i with
  | zero => exact .intro (by simp [planLevel]) (by simp [planLevel])
  | succ steps ih =>
    refine .intro (nodup_planLevel (hg i) _ _) ?_
    rintro ⟨name, node⟩ hnode
    rw [planLevel_succ, Plan.mem_sortByName, List.mem_map] at hnode
    obtain ⟨⟨_, r⟩, -, h⟩ := hnode
    cases h
    rw [Plan.Node.behind, children?_planNode]
    split
    · exact ih _ _
    · exact .intro (by simp) (by simp)

end Graph

namespace Plan

variable {g : Graph} {plan : Plan g} {text : String}

lemma mem_joinPaths_iff :
    text ∈ plan.joinPaths ↔ (.join, text) ∈ Node.loadsAll "" false plan.relations := by
  simp [joinPaths]

lemma mem_separatePaths_iff :
    text ∈ plan.separatePaths ↔ (.separate, text) ∈ Node.loadsAll "" false plan.relations := by
  simp [separatePaths]

lemma texts_of_mode_sublist (mode : FetchMode) (listed : List (FetchMode × String)) :
    (listed.filterMap fun x => if x.1 = mode then some x.2 else none).Sublist
      (listed.map Prod.snd) := by
  induction listed with
  | nil => simp
  | cons x listed ih =>
    rw [List.filterMap_cons, List.map_cons]
    by_cases hmode : x.1 = mode
    · rw [if_pos hmode]
      exact ih.cons_cons x.2
    · rw [if_neg hmode]
      exact ih.cons x.2

/-- If no text is listed twice, each is listed once and in one way. -/
lemma nodup_of_nodup_texts
    (h : ((Node.loadsAll "" false plan.relations).map Prod.snd).Nodup) :
    plan.joinPaths.Nodup ∧ plan.separatePaths.Nodup ∧
      plan.joinPaths.Disjoint plan.separatePaths := by
  refine ⟨h.sublist (texts_of_mode_sublist .join _), h.sublist (texts_of_mode_sublist .separate _),
    fun text hjoin hseparate => ?_⟩
  have hpair := List.inj_on_of_nodup_map h (mem_joinPaths_iff.1 hjoin)
    (mem_separatePaths_iff.1 hseparate) rfl
  cases hpair

open Node

/-- The joined paths are those of chains of joins to their ends. -/
lemma mem_joinPaths_iff_exists (h : Unrepeated plan.relations) :
    text ∈ plan.joinPaths ↔
      ∃ path, text = path.foldl extendPath "" ∧ EndsJoins plan.relations path ∧
        BehindJoins plan.relations path := by
  rw [mem_joinPaths_iff, mem_loadsAll_iff_at? h]
  constructor
  · rintro ⟨path, node, hnode, hends, rfl, hmode⟩
    have hnot : ¬ (LoadedBy plan.relations path .separate ∨ BehindSeparate plan.relations path) := by
      simpa [exists_prefix_iff] using hmode
    rw [not_or, ← behindJoins_iff_not_behindSeparate (by rw [hnode]; rfl)] at hnot
    exact ⟨path, rfl, ((ends_iff h hnode).1 hends).resolve_left hnot.1, hnot.2⟩
  · rintro ⟨path, rfl, hends, hjoins⟩
    obtain ⟨node, hnode, -⟩ := hends.join
    refine ⟨path, node, hnode, (ends_iff h hnode).2 (.inr hends), rfl, ?_⟩
    rw [behindJoins_iff_not_behindSeparate (by rw [hnode]; rfl)] at hjoins
    have hnot : ¬ LoadedBy plan.relations path .separate := fun hseparate => by
      cases hends.join.unique hseparate
    simp [exists_prefix_iff, hnot, hjoins]

/-- The separate paths are those of relations that are loaded by reads of their own, and those of
chains of joins behind such relations to their ends. -/
lemma mem_separatePaths_iff_exists (h : Unrepeated plan.relations) :
    text ∈ plan.separatePaths ↔
      ∃ path, text = path.foldl extendPath "" ∧ (LoadedBy plan.relations path .separate ∨
        EndsJoins plan.relations path ∧ BehindSeparate plan.relations path) := by
  rw [mem_separatePaths_iff, mem_loadsAll_iff_at? h]
  simp only [exists_prefix_iff, Bool.false_eq_true, false_or, true_iff]
  constructor
  · rintro ⟨path, node, hnode, hends, rfl, hmode⟩
    rw [ends_iff h hnode] at hends
    refine ⟨path, rfl, ?_⟩
    rw [or_and_left]
    exact ⟨hends, hmode⟩
  · rintro ⟨path, rfl, hpath⟩
    obtain ⟨hends, hmode⟩ := or_and_left.1 hpath
    obtain ⟨node, hnode⟩ : ∃ node, at? plan.relations path = some node := by
      rcases hends with ⟨node, hnode, -⟩ | ⟨⟨node, hnode, -⟩, -⟩
      · exact ⟨node, hnode⟩
      · exact ⟨node, hnode⟩
    exact ⟨path, node, hnode, (ends_iff h hnode).2 hends, rfl, hmode⟩

/-- Whether a path is listed at all. -/
def Lists (p : Plan g) (path : List String) : Prop :=
  Text.joined "." path ∈ p.joinPaths ∨ Text.joined "." path ∈ p.separatePaths

end Plan

/-! ### Plans over graphs without dots in names -/

namespace Graph

open Plan.Node

variable {g : Graph} {root : g.Id} {requested : Int} {ceiling : Nat} {plan : Plan g}
  {path path' : List String} {node : Plan.Node g.size} {text : String}

variable (hg : ∀ i, (g.schema i).Distinct) (hplan : g.plan root requested ceiling = .ok plan)
include hg hplan

lemma unrepeated_plan : Unrepeated plan.relations := by
  rw [(plan_eq_ok_iff.1 hplan).2]
  exact unrepeated_planLevel hg _ _ _

variable (hdotless : g.Dotless)
include hdotless

/-- The names on the path to a node are names of attributes. -/
lemma dotless_of_node? (h : (plan.node? path).isSome) :
    path ≠ [] ∧ ∀ name ∈ path, name ≠ "" ∧ '.' ∉ name.toList := by
  obtain ⟨edges, j, hwalk, rfl, hwithin⟩ := (node?_isSome_iff hg hplan path).1 h
  exact ⟨by simpa using hwithin.ne_nil, hdotless.of_walk hwalk⟩

lemma foldl_extendPath_of_node? (h : (plan.node? path).isSome) :
    path.foldl Plan.extendPath "" = Text.joined "." path := by
  obtain ⟨-, hnames⟩ := dotless_of_node? hg hplan hdotless h
  have hnone : ∀ name ∈ ([] : List String), name ≠ "" := by simp
  exact Plan.foldl_extendPath hnone fun name hname => (hnames name hname).1

/-- Different nodes have different dotted paths. -/
lemma eq_of_joined_eq_of_node? (h : (plan.node? path).isSome) (h' : (plan.node? path').isSome)
    (heq : Text.joined "." path = Text.joined "." path') : path = path' := by
  obtain ⟨hne, hnames⟩ := dotless_of_node? hg hplan hdotless h
  obtain ⟨hne', hnames'⟩ := dotless_of_node? hg hplan hdotless h'
  exact Text.eq_of_joined_eq rfl hne hne' (fun name hname => (hnames name hname).2)
    (fun name hname => (hnames' name hname).2) heq

lemma nodup_texts_plan : ((loadsAll "" false plan.relations).map Prod.snd).Nodup := by
  have hlevel := (plan_eq_ok_iff.1 hplan).2
  have hpaths : ∀ path, path ∈ paths plan.relations → (plan.node? path).isSome := by
    intro path hpath
    rw [hlevel] at hpath ⊢
    exact (mem_paths_planLevel_iff hg).1 hpath
  refine List.Nodup.sublist (texts_loadsAll_sublist _ _ _) ?_
  refine List.Nodup.map_on (fun path hpath path' hpath' heq => ?_) ?_
  · have h := hpaths path hpath
    have h' := hpaths path' hpath'
    rw [foldl_extendPath_of_node? hg hplan hdotless h,
      foldl_extendPath_of_node? hg hplan hdotless h'] at heq
    exact eq_of_joined_eq_of_node? hg hplan hdotless h h' heq
  · rw [hlevel]
    exact nodup_paths_planLevel hg _ _ _

lemma mem_joinPaths_iff :
    text ∈ plan.joinPaths ↔ ∃ path, text = Text.joined "." path ∧
      EndsJoins plan.relations path ∧ BehindJoins plan.relations path := by
  rw [Plan.mem_joinPaths_iff_exists (unrepeated_plan hg hplan)]
  refine exists_congr fun path => and_congr_left fun hpath => ?_
  rw [foldl_extendPath_of_node? hg hplan hdotless hpath.1.join.isSome]

lemma mem_separatePaths_iff :
    text ∈ plan.separatePaths ↔ ∃ path, text = Text.joined "." path ∧
      (LoadedBy plan.relations path .separate ∨
        EndsJoins plan.relations path ∧ BehindSeparate plan.relations path) := by
  rw [Plan.mem_separatePaths_iff_exists (unrepeated_plan hg hplan)]
  refine exists_congr fun path => and_congr_left fun hpath => ?_
  rw [foldl_extendPath_of_node? hg hplan hdotless (hpath.elim (·.isSome) (·.1.join.isSome))]

/-- The end of a chain of joins is listed in one list or the other. -/
lemma lists_of_endsJoins (h : EndsJoins plan.relations path) : plan.Lists path := by
  by_cases hbehind : BehindSeparate plan.relations path
  · right
    exact (mem_separatePaths_iff hg hplan hdotless).2 ⟨path, rfl, .inr ⟨h, hbehind⟩⟩
  · left
    rw [← behindJoins_iff_not_behindSeparate h.join.isSome] at hbehind
    exact (mem_joinPaths_iff hg hplan hdotless).2 ⟨path, rfl, h, hbehind⟩

/-- A node that is not listed is a join, and from there joins lead to a node that is. -/
lemma lists_or_exists_lists (hnode : plan.node? path = some node) :
    plan.Lists path ∨ node.step.mode = .join ∧ ∃ rest, rest ≠ [] ∧ plan.Lists (path ++ rest) ∧
      ∀ front, front ≠ [] → front <+: rest → LoadedBy plan.relations (path ++ front) .join := by
  cases hmode : node.step.mode with
  | separate =>
    left
    right
    exact (mem_separatePaths_iff hg hplan hdotless).2 ⟨path, rfl, .inl ⟨node, hnode, hmode⟩⟩
  | join =>
    by_cases hnext : ∃ name, LoadedBy node.behind [name] .join
    · right
      obtain ⟨name, hname⟩ := hnext
      have hbehind := (unrepeated_plan hg hplan).of_at? hnode
      obtain ⟨rest, hrest, hall⟩ := exists_endsJoins hbehind hname
      have hlift : ∀ front, front ≠ [] → front <+: name :: rest →
          LoadedBy plan.relations (path ++ front) .join := by
        intro front hne hpre
        exact (loadedBy_append_iff hnode hne).2 (hall front hne hpre)
      have hends : EndsJoins plan.relations (path ++ name :: rest) := by
        refine ⟨hlift _ (by simp) (List.prefix_refl _), fun last hlast => ?_⟩
        rw [List.append_assoc, loadedBy_append_iff hnode (by simp)] at hlast
        exact hrest.last last hlast
      exact ⟨rfl, _, by simp, lists_of_endsJoins hg hplan hdotless hends, hlift⟩
    · left
      refine lists_of_endsJoins hg hplan hdotless ⟨⟨node, hnode, hmode⟩, fun name hname => ?_⟩
      exact hnext ⟨name, (loadedBy_append_iff hnode (by simp)).1 hname⟩

end Graph

/-- **What a plan loads is listed exactly.**  Take any plan over a graph that was built and whose
attributes have names without dots.  The joined paths are, each once, those of chains of joins to their
ends; the separate paths are, each once, those of relations that are loaded by reads of their own, and
of chains of joins that end behind such relations.  No path is in both lists, different nodes have
different dotted paths, and a node that is not listed is a join from which joins lead to a node that
is. -/
theorem loadedPaths_cover_plan {definitions : List Schema.Definition} {g : Graph}
    (hg : Graph.build definitions = .ok g) (hdotless : g.Dotless) {root : g.Id} {requested : Int}
    {ceiling : Nat} {plan : Plan g} (hplan : g.plan root requested ceiling = .ok plan) :
    plan.joinPaths.Nodup ∧ plan.separatePaths.Nodup ∧
    plan.joinPaths.Disjoint plan.separatePaths ∧
    (∀ text, text ∈ plan.joinPaths ↔ ∃ path, text = Text.joined "." path ∧
      Plan.Node.EndsJoins plan.relations path ∧ Plan.Node.BehindJoins plan.relations path) ∧
    (∀ text, text ∈ plan.separatePaths ↔ ∃ path, text = Text.joined "." path ∧
      (Plan.Node.LoadedBy plan.relations path .separate ∨
        Plan.Node.EndsJoins plan.relations path ∧
          Plan.Node.BehindSeparate plan.relations path)) ∧
    (∀ path path', (plan.node? path).isSome → (plan.node? path').isSome →
      Text.joined "." path = Text.joined "." path' → path = path') ∧
    ∀ path node, plan.node? path = some node → plan.Lists path ∨
      node.step.mode = .join ∧ ∃ rest, rest ≠ [] ∧ plan.Lists (path ++ rest) ∧
        ∀ front, front ≠ [] → front <+: rest →
          Plan.Node.LoadedBy plan.relations (path ++ front) .join := by
  have hdistinct := Graph.distinct_of_build hg
  obtain ⟨hjoin, hseparate, hdisjoint⟩ :=
    Plan.nodup_of_nodup_texts (Graph.nodup_texts_plan hdistinct hplan hdotless)
  refine ⟨hjoin, hseparate, hdisjoint, fun text => ?_, fun text => ?_, fun path path' => ?_,
    fun path node => ?_⟩
  · exact Graph.mem_joinPaths_iff hdistinct hplan hdotless
  · exact Graph.mem_separatePaths_iff hdistinct hplan hdotless
  · exact Graph.eq_of_joined_eq_of_node? hdistinct hplan hdotless
  · exact Graph.lists_or_exists_lists hdistinct hplan hdotless

/-- Two chains of joins, one of which ends behind the pets, and the pets themselves. -/
theorem loadedPaths_cover_plan_shelter :
    ∃ root : shelterGraph.Id, shelterGraph.find? "Person" = some root ∧
    ∃ plan, shelterGraph.plan root 2 3 = .ok plan ∧
      plan.joinPaths = ["mentor.mentor"] ∧
      plan.separatePaths =
        ["mentor.pets", "mentor.pets.owner", "pets", "pets.owner.mentor", "pets.owner.pets"] ∧
      plan.joinPaths.Disjoint plan.separatePaths ∧
      Plan.Node.EndsJoins plan.relations ["mentor", "mentor"] := by
  have hdotless : shelterGraph.Dotless := by
    rw [Graph.Dotless]
    decide
  obtain ⟨plan, hplan, hjoin, hseparate⟩ : ∃ plan, shelterGraph.plan ⟨0, by decide⟩ 2 3 = .ok plan ∧
      plan.joinPaths = ["mentor.mentor"] ∧
      plan.separatePaths =
        ["mentor.pets", "mentor.pets.owner", "pets", "pets.owner.mentor", "pets.owner.pets"] := by
    refine ⟨_, Graph.plan_eq_ok_iff.2 ⟨by decide, rfl⟩, ?_⟩
    simp only [Graph.planLevel_succ_of_pairwise (pairwise_relations_shelter _), Graph.planNode]
    decide +kernel
  obtain ⟨-, -, hdisjoint, hjoins, -, hinjective, -⟩ :=
    loadedPaths_cover_plan build_shelter hdotless hplan
  refine ⟨_, find?_person_shelter, plan, hplan, hjoin, hseparate, hdisjoint, ?_⟩
  obtain ⟨path, htext, hends, -⟩ := (hjoins "mentor.mentor").1 (by simp [hjoin])
  obtain rfl : ["mentor", "mentor"] = path := by
    refine hinjective _ _ ?_ hends.join.isSome htext
    obtain ⟨-, rfl⟩ := Graph.plan_eq_ok_iff.1 hplan
    simp only [Graph.planLevel_succ_of_pairwise (pairwise_relations_shelter _), Graph.planNode]
    rfl
  exact hends

end Retrieval
