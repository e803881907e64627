/-
# The data of replies

What a reply holds of a compiled filter, a compiled order, a relation plan and a page, member by
member.  Each of them is shown in one way only, which is the way in which the program writes it.
-/
import Retrieval.CommandLine.Run
import Retrieval.Proofs.Filter.JsonForm

namespace Retrieval

/-! ### Filters -/

namespace Comparison

/-- The members that tell of a comparison; that it is negated is told only if it is. -/
def members (c : Comparison) : List (String × Json) :=
  (if c.negated then [("negated", .bool true)] else []) ++
    [("op", .string c.test.name), ("path", .array (c.path.map .string)), ("value", c.value)]

/-- A comparison in words, which leave out the operand of a null check. -/
def words (c : Comparison) : String :=
  Text.joined "." c.path ++ " " ++ (if c.negated then "not " else "") ++ c.test.name ++
    if c.test.isNullCheck then "" else " " ++ c.value.text

lemma toJson_eq_members (c : Comparison) : c.toJson = .object c.members := c.toJson_eq

lemma display_eq_words (c : Comparison) : c.display = c.words := by
  rw [display, words, dotted]
  cases c.test.isNullCheck <;> simp [String.append_assoc]

end Comparison

namespace Predicate

mutual

/-- What is shown of a predicate: a JSON form, which names its kind, and words. -/
inductive Shown : Predicate → Json → String → Prop where
  | compare (c : Comparison) : Shown (.compare c) (.object [("compare", .object c.members)]) c.words
  | and {parts : List Predicate} {forms : List Json} {words : List String} :
    ShownAll parts forms words →
      Shown (.and parts) (.object [("and", .array forms)]) ("AND(" ++ Text.joined ", " words ++ ")")
  | or {parts : List Predicate} {forms : List Json} {words : List String} :
    ShownAll parts forms words →
      Shown (.or parts) (.object [("or", .array forms)]) ("OR(" ++ Text.joined ", " words ++ ")")
  | not {part : Predicate} {form : Json} {words : String} :
    Shown part form words → Shown (.not part) (.object [("not", form)]) ("NOT(" ++ words ++ ")")

/-- What is shown of predicates one by one. -/
inductive ShownAll : List Predicate → List Json → List String → Prop where
  | nil : ShownAll [] [] []
  | cons {p : Predicate} {ps : List Predicate} {form : Json} {forms : List Json} {words : String}
    {more : List String} :
    Shown p form words → ShownAll ps forms more → ShownAll (p :: ps) (form :: forms) (words :: more)

end

lemma displayParts_eq_joined (ps : List Predicate) :
    displayParts ps = Text.joined ", " (ps.map display) := by
  have hmore : ∀ (p : Predicate) (ps : List Predicate),
      p.display ++ displayMore ps = Text.joined ", " ((p :: ps).map display) := by
    intro p ps
    induction ps generalizing p with
    | nil => simp [displayMore, Text.joined]
    | cons q ps ih =>
      rw [displayMore, String.append_assoc, ih]
      simp [Text.joined, String.append_assoc]
  cases ps with
  | nil => rfl
  | cons p ps => exact hmore p ps

mutual

lemma shown_iff (p : Predicate) {form : Json} {words : String} :
    p.Shown form words ↔ form = p.toJson ∧ words = p.display := by
  cases p with
  | compare c =>
    rw [toJson, display, c.toJson_eq_members, c.display_eq_words]
    constructor
    · rintro ⟨⟩
      exact ⟨rfl, rfl⟩
    · rintro ⟨rfl, rfl⟩
      exact .compare c
  | and parts | or parts =>
    rw [toJson, display, displayParts_eq_joined]
    constructor
    · rintro (_ | hparts | hparts | _)
      obtain ⟨rfl, rfl⟩ := (shownAll_iff parts).1 hparts
      exact ⟨rfl, rfl⟩
    · rintro ⟨rfl, rfl⟩
      constructor
      exact (shownAll_iff parts).2 ⟨rfl, rfl⟩
  | not part =>
    rw [toJson, display]
    constructor
    · rintro (_ | _ | _ | hpart)
      obtain ⟨rfl, rfl⟩ := (shown_iff part).1 hpart
      exact ⟨rfl, rfl⟩
    · rintro ⟨rfl, rfl⟩
      exact .not ((shown_iff part).2 ⟨rfl, rfl⟩)

lemma shownAll_iff (ps : List Predicate) {forms : List Json} {words : List String} :
    ShownAll ps forms words ↔ forms = partsToJson ps ∧ words = ps.map display := by
  cases ps with
  | nil =>
    rw [partsToJson]
    constructor
    · rintro ⟨⟩
      exact ⟨rfl, rfl⟩
    · rintro ⟨rfl, rfl⟩
      exact .nil
  | cons p ps =>
    rw [partsToJson]
    constructor
    · rintro (_ | ⟨hp, hps⟩)
      obtain ⟨rfl, rfl⟩ := (shown_iff p).1 hp
      obtain ⟨rfl, rfl⟩ := (shownAll_iff ps).1 hps
      exact ⟨rfl, rfl⟩
    · rintro ⟨rfl, rfl⟩
      exact .cons ((shown_iff p).2 ⟨rfl, rfl⟩) ((shownAll_iff ps).2 ⟨rfl, rfl⟩)

end

end Predicate

/-! ### Plans -/

namespace Plan

variable {g : Graph}

/-- The members that tell of a relation, given what is told of the relations behind it. -/
def Step.members (s : Step g.size) (children : Json) : List (String × Json) :=
  [("cardinality", .string s.cardinality.name), ("children", children),
    ("fetch_mode", .string s.mode.name), ("remaining_depth", .int s.remaining),
    ("target", .string (g.schema s.target).name)]

mutual

/-- What is shown of a node: whether the relations behind it are planned, and which ones. -/
inductive Node.Shown (g : Graph) : Node g.size → Json → Prop where
  | closed (s : Step g.size) : Node.Shown g (.closed s) (.object (s.members .null))
  | expanded {s : Step g.size} {children : List (String × Node g.size)}
    {forms : List (String × Json)} :
    Node.ShownAll g children forms →
      Node.Shown g (.expanded s children) (.object (s.members (.object forms)))

/-- What is shown of nodes by name. -/
inductive Node.ShownAll (g : Graph) :
    List (String × Node g.size) → List (String × Json) → Prop where
  | nil : Node.ShownAll g [] []
  | cons {name : String} {node : Node g.size} {nodes : List (String × Node g.size)} {form : Json}
    {forms : List (String × Json)} :
    Node.Shown g node form → Node.ShownAll g nodes forms →
      Node.ShownAll g ((name, node) :: nodes) ((name, form) :: forms)

end

lemma Step.toJson_eq_members (s : Step g.size) (children : Json) :
    s.toJson g children = .object (s.members children) :=
  rfl

mutual

lemma Node.shown_iff (node : Node g.size) {form : Json} :
    Node.Shown g node form ↔ form = Node.toJson g node := by
  cases node with
  | closed s =>
    rw [Node.toJson, s.toJson_eq_members]
    constructor
    · rintro ⟨⟩
      rfl
    · rintro rfl
      exact .closed s
  | expanded s children =>
    rw [Node.toJson, s.toJson_eq_members]
    constructor
    · rintro (_ | hchildren)
      rw [(Node.shownAll_iff children).1 hchildren]
    · rintro rfl
      exact .expanded ((Node.shownAll_iff children).2 rfl)

lemma Node.shownAll_iff (nodes : List (String × Node g.size)) {forms : List (String × Json)} :
    Node.ShownAll g nodes forms ↔ forms = Node.allToJson g nodes := by
  match nodes with
  | [] =>
    rw [Node.allToJson]
    constructor
    · rintro ⟨⟩
      rfl
    · rintro rfl
      exact .nil
  | (name, node) :: nodes =>
    rw [Node.allToJson]
    constructor
    · rintro (_ | ⟨hnode, hnodes⟩)
      rw [(Node.shown_iff node).1 hnode, (Node.shownAll_iff nodes).1 hnodes]
    · rintro rfl
      exact .cons ((Node.shown_iff node).2 rfl) ((Node.shownAll_iff nodes).2 rfl)

end

end Plan

namespace CommandLine

/-! ### Data -/

variable {g : Graph} {v : Json}

/-- The data that tells of a compiled filter. -/
def ShowsFilter (p : Predicate) (v : Json) : Prop :=
  ∃ form words, p.Shown form words ∧
    v = .object [("display", .string words), ("predicate", form)]

/-- The data that tells of a compiled order; a descending key has a hyphen in front. -/
def ShowsOrder (keys : List OrderKey) (v : Json) : Prop :=
  v = .object
    [("display", .array (keys.map fun k =>
        .string ((if k.descending then "-" else "") ++ Text.joined "." k.path))),
      ("keys", .array (keys.map fun k =>
        .object [("descending", .bool k.descending), ("path", .array (k.path.map .string))]))]

/-- The data that tells of a relation plan. -/
def ShowsPlan (p : Plan g) (v : Json) : Prop :=
  ∃ forms, Plan.Node.ShownAll g p.relations forms ∧
    v = .object
      [("ceiling", .int p.ceiling), ("max_depth", .int p.maxDepth), ("relations", .object forms),
        ("root", .string (g.schema p.root).name)]

/-- The data that tells of a page. -/
def ShowsPage (p : Page) (v : Json) : Prop :=
  v = .object
    [("count", .int p.count), ("limit", .int p.limit), ("offset", .int p.offset),
      ("results", .array p.results)]

lemma showsFilter_iff (p : Predicate) : ShowsFilter p v ↔ v = describeFilter p := by
  have hform : describeFilter p =
      .object [("display", .string p.display), ("predicate", p.toJson)] := rfl
  rw [hform]
  constructor
  · rintro ⟨form, words, hshown, rfl⟩
    obtain ⟨rfl, rfl⟩ := p.shown_iff.1 hshown
    rfl
  · rintro rfl
    exact ⟨_, _, p.shown_iff.2 ⟨rfl, rfl⟩, rfl⟩

lemma showsOrder_iff (keys : List OrderKey) : ShowsOrder keys v ↔ v = describeOrder keys := Iff.rfl

lemma showsPlan_iff (p : Plan g) : ShowsPlan p v ↔ v = p.toJson := by
  have hform : p.toJson = .object
      [("ceiling", .int p.ceiling), ("max_depth", .int p.maxDepth),
        ("relations", .object (Plan.Node.allToJson g p.relations)),
        ("root", .string (g.schema p.root).name)] := rfl
  rw [hform]
  constructor
  · rintro ⟨forms, hforms, rfl⟩
    rw [(Plan.Node.shownAll_iff _).1 hforms]
  · rintro rfl
    exact ⟨_, (Plan.Node.shownAll_iff _).2 rfl, rfl⟩

lemma showsPage_iff (p : Page) : ShowsPage p v ↔ v = p.toJson := Iff.rfl

/-- Whether `x` is the data that tells of a result, or else the error that it is. -/
inductive Tells {α : Type} (shows : α → Json → Prop) : Except Error α → Except Error Json → Prop
  | data {a : α} {v : Json} : shows a v → Tells shows (.ok a) (.ok v)
  | error (e : Error) : Tells shows (.error e) (.error e)

lemma tells_iff {α : Type} {shows : α → Json → Prop} {write : α → Json}
    (h : ∀ {v} a, shows a v ↔ v = write a) {r : Except Error α} {x : Except Error Json} :
    Tells shows r x ↔ x = write <$> r := by
  cases r with
  | ok a =>
    constructor
    · rintro ⟨hshows⟩
      rw [(h a).1 hshows]
      rfl
    · rintro rfl
      exact .data ((h a).2 rfl)
  | error e =>
    constructor
    · rintro ⟨⟩
      rfl
    · rintro rfl
      exact .error e

end CommandLine

end Retrieval
