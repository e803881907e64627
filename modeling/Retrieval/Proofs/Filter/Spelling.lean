/-
# The grammar of filters

What tokens a filter spells, by the structure of its text: a run of text without brackets spells its
pieces, and a bracketed part spells what the piece in front of it says.  Main statement: the reader
with its stack gives exactly the tokens that a filter spells (`readFilter_eq_ok_iff`).
-/
import Mathlib.Data.List.Basic
import Retrieval.Proofs.Filter.Balance
import Retrieval.Proofs.Outcome

namespace Retrieval

/-- Pieces of text spell tokens, an empty piece none and a leaf itself. -/
inductive PiecesSpell : List (List Char) → List Token → Prop where
  | nil : PiecesSpell [] []
  | empty {piece : List Char} {pieces : List (List Char)} {tokens : List Token} :
    Piece.ofChars? piece = some .empty → PiecesSpell pieces tokens →
      PiecesSpell (piece :: pieces) tokens
  | leaf {piece : List Char} {path : List String} {operator value : String}
      {pieces : List (List Char)} {tokens : List Token} :
    Piece.ofChars? piece = some (.leaf path operator value) → PiecesSpell pieces tokens →
      PiecesSpell (piece :: pieces) (.leaf path operator (.scalar value) :: tokens)

/-- A run of text in front of a bracket: what its pieces but the last one spell, and what the last
one opens. -/
structure Opens (run : List Char) (before : List Token) (o : Opening) : Prop where
  bracketFree : BracketFree run
  front : PiecesSpell (run.splitOn ',').dropLast before
  last : (Piece.ofChars? ((run.splitOn ',').getLastD [])).bind Opening.ofPiece? = some o

/-- A text spells tokens. -/
inductive Spells : List Char → List Token → Prop where
  | text {run : List Char} {tokens : List Token} :
    BracketFree run → PiecesSpell (run.splitOn ',') tokens → Spells run tokens
  | splice {run inner rest : List Char} {before here behind : List Token} :
    Opens run before .splice → Spells inner here → Spells rest behind →
      Spells (run ++ '(' :: inner ++ ')' :: rest) (before ++ here ++ behind)
  | group {run inner rest : List Char} {before children behind : List Token} {c : Connective} :
    Opens run before (.group c) → Spells inner children → Spells rest behind →
      Spells (run ++ '(' :: inner ++ ')' :: rest) (before ++ [.group c children] ++ behind)
  | values {run items rest : List Char} {before behind : List Token} {path : List String}
      {operator : String} :
    Opens run before (.values path operator) → BracketFree items → Spells rest behind →
      Spells (run ++ '(' :: items ++ ')' :: rest)
        (before ++ [.leaf path operator (.list (Token.listItems items))] ++ behind)

lemma Spells.nested {cs : List Char} {tokens : List Token} (h : Spells cs tokens) : Nested cs := by
  induction h with
  | text hrun _ => exact .text hrun
  | splice ho _ _ ihinner ihrest => exact .group ho.bracketFree ihinner ihrest
  | group ho _ _ ihinner ihrest => exact .group ho.bracketFree ihinner ihrest
  | values ho hitems _ ihrest => exact .group ho.bracketFree (.text hitems) ihrest

/-! ### Pieces -/

namespace PiecesSpell

lemma append {ps qs : List (List Char)} {ts us : List Token} (hp : PiecesSpell ps ts)
    (hq : PiecesSpell qs us) : PiecesSpell (ps ++ qs) (ts ++ us) := by
  induction hp with
  | nil => exact hq
  | empty h _ ih => exact .empty h ih
  | leaf h _ ih => exact .leaf h ih

end PiecesSpell

namespace Token

lemma ofPiece_eq_ok_iff {input : String} {piece : List Char} {tokens : List Token} :
    ofPiece input piece = .ok tokens ↔
      (Piece.ofChars? piece = some .empty ∧ tokens = []) ∨
        ∃ path operator value, Piece.ofChars? piece = some (.leaf path operator value) ∧
          tokens = [.leaf path operator (.scalar value)] := by
  rw [ofPiece]
  rcases Piece.ofChars? piece with _ | _ | _ | _ <;> simp [eq_comm]

lemma ofPieces_cons_eq_ok_iff {input : String} {piece : List Char} {pieces : List (List Char)}
    {tokens : List Token} :
    ofPieces input (piece :: pieces) = .ok tokens ↔
      ∃ here behind, ofPiece input piece = .ok here ∧ ofPieces input pieces = .ok behind ∧
        tokens = here ++ behind := by
  simp only [ofPieces, List.mapM_cons, bind_eq_ok_iff]
  constructor
  · rintro ⟨_, ⟨here, hhere, rest, hrest, ⟨⟩⟩, ⟨⟩⟩
    exact ⟨here, rest.flatten, hhere, ⟨rest, hrest, rfl⟩, rfl⟩
  · rintro ⟨here, _, hhere, ⟨rest, hrest, ⟨⟩⟩, rfl⟩
    exact ⟨here :: rest, ⟨here, hhere, rest, hrest, rfl⟩, rfl⟩

/-- The reader gives exactly the tokens that pieces spell. -/
lemma ofPieces_eq_ok_iff {input : String} {pieces : List (List Char)} {tokens : List Token} :
    ofPieces input pieces = .ok tokens ↔ PiecesSpell pieces tokens := by
  induction pieces generalizing tokens with
  | nil => exact ⟨fun h => by cases h; exact .nil, fun h => by cases h; rfl⟩
  | cons piece pieces ih =>
    rw [ofPieces_cons_eq_ok_iff]
    simp only [ih, ofPiece_eq_ok_iff]
    constructor
    · rintro ⟨here, behind, ⟨hp, rfl⟩ | ⟨path, operator, value, hp, rfl⟩, hbehind, rfl⟩
      · exact .empty hp hbehind
      · exact .leaf hp hbehind
    · intro h
      cases h with
      | empty hp h => exact ⟨[], tokens, .inl ⟨hp, rfl⟩, h, rfl⟩
      | leaf hp h => exact ⟨_, _, .inr ⟨_, _, _, hp, rfl⟩, h, rfl⟩

lemma opening_eq_ok_iff {input : String} {run : List Char} {o : Opening} :
    opening input run = .ok o ↔
      (Piece.ofChars? ((run.splitOn ',').getLastD [])).bind Opening.ofPiece? = some o := by
  rw [opening]
  cases (Piece.ofChars? ((run.splitOn ',').getLastD [])).bind Opening.ofPiece? <;> simp

end Token

/-! ### Steps of the reader -/

/-- Whether a frame takes tokens, which the values of a leaf are not. -/
def Frame.TakesTokens (f : Frame) : Prop :=
  ∀ path operator, f.enclosure ≠ .bracket (.values path operator)

lemma Frame.TakesTokens.add {f : Frame} (h : f.TakesTokens) (tokens : List Token) :
    (f.add tokens).TakesTokens := h

lemma Frame.close_splice_eq_ok_iff {input : String} {tokens here : List Token} {run : List Char} :
    Frame.close input ⟨.bracket .splice, tokens⟩ run = .ok here ↔
      ∃ more, PiecesSpell (run.splitOn ',') more ∧ here = tokens ++ more := by
  simp only [Frame.close, bind_eq_ok_iff, Token.ofPieces_eq_ok_iff, Except.ok.injEq,
    eq_comm (a := here)]

lemma Frame.close_group_eq_ok_iff {input : String} {c : Connective} {tokens here : List Token}
    {run : List Char} :
    Frame.close input ⟨.bracket (.group c), tokens⟩ run = .ok here ↔
      ∃ more, PiecesSpell (run.splitOn ',') more ∧ here = [.group c (tokens ++ more)] := by
  simp only [Frame.close, bind_eq_ok_iff, Token.ofPieces_eq_ok_iff, Except.ok.injEq,
    eq_comm (a := here)]

namespace FilterReader

variable {input : String} {top next : Frame} {below : List Frame}

lemma enter_eq_ok_iff (htop : top.TakesTokens) {pending : List Char} {r : FilterReader} :
    enter input ⟨top :: below, pending⟩ = .ok r ↔
      ∃ before o, PiecesSpell (pending.reverse.splitOn ',').dropLast before ∧
        (Piece.ofChars? ((pending.reverse.splitOn ',').getLastD [])).bind Opening.ofPiece? =
          some o ∧
        r = ⟨⟨.bracket o, []⟩ :: top.add before :: below, []⟩ := by
  simp only [enter]
  split
  · next path operator h => exact absurd h (htop path operator)
  · simp only [bind_eq_ok_iff, Token.ofPieces_eq_ok_iff, Token.opening_eq_ok_iff,
      Except.ok.injEq, eq_comm (b := r)]
    constructor
    · rintro ⟨before, hbefore, o, ho, h⟩
      exact ⟨before, o, hbefore, ho, h⟩
    · rintro ⟨before, o, hbefore, ho, h⟩
      exact ⟨before, hbefore, o, ho, h⟩

lemma leave_eq_ok_iff {pending : List Char} {r : FilterReader} :
    leave input ⟨top :: next :: below, pending⟩ = .ok r ↔
      ∃ here, top.close input pending.reverse = .ok here ∧ r = ⟨next.add here :: below, []⟩ := by
  simp only [leave, bind_eq_ok_iff, Except.ok.injEq, eq_comm (b := r)]

/-- A run without brackets waits to be settled. -/
lemma read_bracketFree {run : List Char} (h : BracketFree run) (frames : List Frame)
    (pending : List Char) :
    read input ⟨frames, pending⟩ run = .ok ⟨frames, run.reverse ++ pending⟩ := by
  induction run generalizing pending with
  | nil => rfl
  | cons c run ih =>
    obtain ⟨hopen, hclose⟩ := h c (by simp)
    rw [read_cons, step, if_neg hopen, if_neg hclose]
    refine (ih (fun d hd => h d (by simp [hd])) (c :: pending)).trans ?_
    simp

/-- Reading a run, a bracketed text and a rest step by step. -/
lemma read_group {run : List Char} (hrun : BracketFree run) (frames : List Frame)
    (inner rest : List Char) :
    read input ⟨frames, []⟩ (run ++ '(' :: inner ++ ')' :: rest) = (do
      let r ← enter input ⟨frames, run.reverse⟩
      let r ← read input r inner
      let r ← leave input r
      read input r rest) := by
  have hopen : ∀ r, step input r '(' = enter input r := fun r => if_pos rfl
  have hclose : ∀ r, step input r ')' = leave input r := fun r => by simp [step]
  rw [List.append_assoc, read_append, read_bracketFree hrun, List.append_nil]
  simp only [List.cons_append, ← hopen, ← hclose]
  change read input _ ('(' :: (inner ++ ')' :: rest)) = _
  simp only [read_cons, read_append]

end FilterReader

/-! ### The reader and the grammar -/

/-- Reading a bracket and what it holds leaves what it spells in the frame around it. -/
lemma Opens.read_eq {input : String} {run inner rest last : List Char} {o : Opening}
    {before lead here : List Token} {top : Frame} {below : List Frame} (ho : Opens run before o)
    (htop : top.TakesTokens)
    (hinner : FilterReader.read input ⟨⟨.bracket o, []⟩ :: top.add before :: below, []⟩ inner =
      .ok ⟨⟨.bracket o, lead⟩ :: top.add before :: below, last.reverse⟩)
    (hclose : Frame.close input ⟨.bracket o, lead⟩ last = .ok here) :
    FilterReader.read input ⟨top :: below, []⟩ (run ++ '(' :: inner ++ ')' :: rest) =
      FilterReader.read input ⟨top.add (before ++ here) :: below, []⟩ rest := by
  have henter : FilterReader.enter input ⟨top :: below, run.reverse⟩ =
      .ok ⟨⟨.bracket o, []⟩ :: top.add before :: below, []⟩ :=
    (FilterReader.enter_eq_ok_iff htop).2
      ⟨before, o, by simpa using ho.front, by simpa using ho.last, rfl⟩
  have hleave : FilterReader.leave input ⟨⟨.bracket o, lead⟩ :: top.add before :: below,
      last.reverse⟩ = .ok ⟨(top.add before).add here :: below, []⟩ :=
    FilterReader.leave_eq_ok_iff.2 ⟨here, by simpa using hclose, rfl⟩
  rw [FilterReader.read_group ho.bracketFree, henter]
  change (FilterReader.read input _ inner >>= _) = _
  rw [hinner]
  change (FilterReader.leave input _ >>= _) = _
  rw [hleave, Frame.add_add]
  rfl

/-- A text that spells tokens can be read.  Until the next bracket its last run waits to be settled;
the tokens in front of it are in the frame already. -/
lemma Spells.exists_read {cs : List Char} {tokens : List Token} (h : Spells cs tokens)
    (input : String) {top : Frame} (htop : top.TakesTokens) (below : List Frame) :
    ∃ (lead more : List Token) (last : List Char),
      FilterReader.read input ⟨top :: below, []⟩ cs = .ok ⟨top.add lead :: below, last.reverse⟩ ∧
        PiecesSpell (last.splitOn ',') more ∧ tokens = lead ++ more := by
  induction h generalizing top below with
  | @text run tokens hrun hp =>
    refine ⟨[], tokens, run, ?_, hp, rfl⟩
    rw [FilterReader.read_bracketFree hrun, Frame.add_nil, List.append_nil]
  | @splice run inner rest before here behind ho _ _ ihinner ihrest =>
    have hsplice : Frame.TakesTokens ⟨.bracket .splice, []⟩ := by simp [Frame.TakesTokens]
    obtain ⟨lead, more, last, hinner, hlast, rfl⟩ := ihinner hsplice (top.add before :: below)
    have hclose : Frame.close input ⟨.bracket .splice, lead⟩ last = .ok (lead ++ more) :=
      Frame.close_splice_eq_ok_iff.2 ⟨more, hlast, rfl⟩
    obtain ⟨lead', more', last', hrest, hlast', rfl⟩ := ihrest (htop.add _) below
    refine ⟨before ++ (lead ++ more) ++ lead', more', last',
      (ho.read_eq htop hinner hclose).trans (hrest.trans ?_), hlast', ?_⟩
    · rw [Frame.add_add]
    · simp
  | @group run inner rest before children behind c ho _ _ ihinner ihrest =>
    have hgroup : Frame.TakesTokens ⟨.bracket (.group c), []⟩ := by simp [Frame.TakesTokens]
    obtain ⟨lead, more, last, hinner, hlast, rfl⟩ := ihinner hgroup (top.add before :: below)
    have hclose : Frame.close input ⟨.bracket (.group c), lead⟩ last =
        .ok [.group c (lead ++ more)] := Frame.close_group_eq_ok_iff.2 ⟨more, hlast, rfl⟩
    obtain ⟨lead', more', last', hrest, hlast', rfl⟩ := ihrest (htop.add _) below
    refine ⟨before ++ [.group c (lead ++ more)] ++ lead', more', last',
      (ho.read_eq htop hinner hclose).trans (hrest.trans ?_), hlast', ?_⟩
    · rw [Frame.add_add]
    · simp
  | @values run items rest before behind path operator ho hitems _ ihrest =>
    -- values are not settled before their bracket closes
    have hinner : FilterReader.read input
        ⟨⟨.bracket (.values path operator), []⟩ :: top.add before :: below, []⟩ items =
        .ok ⟨⟨.bracket (.values path operator), []⟩ :: top.add before :: below, items.reverse⟩ := by
      rw [FilterReader.read_bracketFree hitems, List.append_nil]
    obtain ⟨lead', more', last', hrest, hlast', rfl⟩ := ihrest (htop.add _) below
    refine ⟨before ++ [.leaf path operator (.list (Token.listItems items))] ++ lead', more', last',
      (ho.read_eq htop hinner rfl).trans (hrest.trans ?_), hlast', ?_⟩
    · rw [Frame.add_add]
    · simp

/-- What is read in a list of values is a run without brackets. -/
lemma Nested.bracketFree_of_read {input : String} {cs : List Char} (h : Nested cs) {top : Frame}
    {path : List String} {operator : String}
    (htop : top.enclosure = .bracket (.values path operator)) {below : List Frame}
    {r : FilterReader} (hread : FilterReader.read input ⟨top :: below, []⟩ cs = .ok r) :
    BracketFree cs ∧ r = ⟨top :: below, cs.reverse⟩ := by
  cases h with
  | text hrun =>
    rw [FilterReader.read_bracketFree hrun, List.append_nil] at hread
    cases hread
    exact ⟨hrun, rfl⟩
  | group hrun _ _ =>
    -- a bracket in a list of values is refused
    rw [FilterReader.read_group hrun] at hread
    obtain ⟨r₁, henter, -⟩ := bind_eq_ok_iff.1 hread
    simp only [FilterReader.enter, htop] at henter
    cases henter

/-- Nested text that is read spells the tokens that it leaves in its frame, together with those of
the last run. -/
lemma Nested.spells_of_read {input : String} {cs : List Char} (h : Nested cs) {top : Frame}
    (htop : top.TakesTokens) {below : List Frame} {r : FilterReader}
    (hread : FilterReader.read input ⟨top :: below, []⟩ cs = .ok r) :
    ∃ (lead : List Token) (last : List Char), r = ⟨top.add lead :: below, last.reverse⟩ ∧
      ∀ more, PiecesSpell (last.splitOn ',') more → Spells cs (lead ++ more) := by
  induction h generalizing top below r with
  | @text run hrun =>
    rw [FilterReader.read_bracketFree hrun, List.append_nil] at hread
    cases hread
    exact ⟨[], run, by simp, fun more hmore => .text hrun hmore⟩
  | @group run inner rest hrun hinner _ ihinner ihrest =>
    -- the reader went into the bracket, through what it holds and out again
    rw [FilterReader.read_group hrun] at hread
    obtain ⟨r₁, henter, hread⟩ := bind_eq_ok_iff.1 hread
    obtain ⟨r₂, hin, hread⟩ := bind_eq_ok_iff.1 hread
    obtain ⟨r₃, hleave, hread⟩ := bind_eq_ok_iff.1 hread
    obtain ⟨before, o, hfront, ho, rfl⟩ := (FilterReader.enter_eq_ok_iff htop).1 henter
    rw [List.reverse_reverse] at hfront ho
    have hopens : Opens run before o := ⟨hrun, hfront, ho⟩
    cases o with
    | splice =>
      obtain ⟨lead, last, rfl, hspells⟩ := ihinner (by simp [Frame.TakesTokens]) hin
      obtain ⟨here, hclose, rfl⟩ := FilterReader.leave_eq_ok_iff.1 hleave
      obtain ⟨more, hmore, rfl⟩ := Frame.close_splice_eq_ok_iff.1 hclose
      rw [List.reverse_reverse] at hmore
      obtain ⟨lead', last', rfl, hspells'⟩ := ihrest (htop.add _ |>.add _) hread
      refine ⟨before ++ (lead ++ more) ++ lead', last', by simp, fun more' hmore' => ?_⟩
      rw [List.append_assoc _ lead' more']
      exact .splice hopens (hspells more hmore) (hspells' more' hmore')
    | group c =>
      obtain ⟨lead, last, rfl, hspells⟩ := ihinner (by simp [Frame.TakesTokens]) hin
      obtain ⟨here, hclose, rfl⟩ := FilterReader.leave_eq_ok_iff.1 hleave
      obtain ⟨more, hmore, rfl⟩ := Frame.close_group_eq_ok_iff.1 hclose
      rw [List.reverse_reverse] at hmore
      obtain ⟨lead', last', rfl, hspells'⟩ := ihrest (htop.add _ |>.add _) hread
      refine ⟨before ++ [.group c (lead ++ more)] ++ lead', last', by simp, fun more' hmore' => ?_⟩
      rw [List.append_assoc _ lead' more']
      exact .group hopens (hspells more hmore) (hspells' more' hmore')
    | values path operator =>
      obtain ⟨hitems, rfl⟩ := hinner.bracketFree_of_read rfl hin
      obtain ⟨here, hclose, rfl⟩ := FilterReader.leave_eq_ok_iff.1 hleave
      rw [List.reverse_reverse] at hclose
      cases hclose
      obtain ⟨lead', last', rfl, hspells'⟩ := ihrest (htop.add _ |>.add _) hread
      refine ⟨before ++ [.leaf path operator (.list (Token.listItems inner))] ++ lead', last',
        by simp, fun more' hmore' => ?_⟩
      rw [List.append_assoc _ lead' more']
      exact .values hopens hitems (hspells' more' hmore')

/-- **The reader agrees with the grammar.**  A filter is read as tokens exactly if it is not blank
and spells them. -/
lemma readFilter_eq_ok_iff {input : String} {tokens : List Token} :
    readFilter input = .ok tokens ↔
      Text.isBlankText input = false ∧ Spells input.toList tokens := by
  have hfilter : Frame.TakesTokens ⟨.filter, []⟩ := by simp [Frame.TakesTokens]
  simp only [readFilter, bind_eq_ok_iff, readBrackets_eq_ok_iff]
  constructor
  · rintro ⟨_, ⟨rfl, hblank, hb⟩, r, hread, hfinish⟩
    obtain ⟨lead, last, rfl, hspells⟩ :=
      (balanced_iff_nested.1 hb).spells_of_read hfilter hread
    obtain ⟨more, hmore, hfinish⟩ := bind_eq_ok_iff.1 hfinish
    rw [List.reverse_reverse, Token.ofPieces_eq_ok_iff] at hmore
    cases hfinish
    exact ⟨hblank, hspells more hmore⟩
  · rintro ⟨hblank, hspells⟩
    obtain ⟨lead, more, last, hread, hmore, rfl⟩ := hspells.exists_read input hfilter []
    refine ⟨_, ⟨rfl, hblank, hspells.nested.balanced⟩, _, hread, ?_⟩
    refine bind_eq_ok_iff.2 ⟨more, ?_, rfl⟩
    rwa [List.reverse_reverse, Token.ofPieces_eq_ok_iff]

/-! ### Putting filters together -/

lemma BracketFree.comma {run run' : List Char} (h : BracketFree run) (h' : BracketFree run') :
    BracketFree (run ++ ',' :: run') := by
  intro c hc
  rcases List.mem_append.1 hc with hc | hc
  · exact h c hc
  · rcases List.mem_cons.1 hc with rfl | hc
    · decide
    · exact h' c hc

/-- A run in front of a comma brings its tokens to what the run behind the comma opens. -/
lemma Opens.comma {run run' : List Char} {tokens before : List Token} {o : Opening}
    (h : Opens run' before o) (hrun : BracketFree run)
    (hp : PiecesSpell (run.splitOn ',') tokens) :
    Opens (run ++ ',' :: run') (tokens ++ before) o := by
  have hne := List.splitOn_ne_nil ',' run'
  refine ⟨hrun.comma h.bracketFree, ?_, ?_⟩
  · rw [List.splitOn_append_cons_self, List.dropLast_append_of_ne_nil hne]
    exact hp.append h.front
  · rw [List.splitOn_append_cons_self, List.getLastD_eq_getLast?,
      List.getLast?_append_of_ne_nil _ hne, ← List.getLastD_eq_getLast?]
    exact h.last

/-- Texts with a comma between them spell their tokens one after the other. -/
lemma Spells.comma {cs ds : List Char} {tokens more : List Token} (h : Spells cs tokens)
    (h' : Spells ds more) : Spells (cs ++ ',' :: ds) (tokens ++ more) := by
  induction h with
  | @text run tokens hrun hp =>
    -- the run in front of the comma belongs to the first run behind it
    cases h' with
    | text hrun' hp' =>
      refine .text (hrun.comma hrun') ?_
      rw [List.splitOn_append_cons_self]
      exact hp.append hp'
    | splice ho hinner hrest => simpa using Spells.splice (ho.comma hrun hp) hinner hrest
    | group ho hinner hrest => simpa using Spells.group (ho.comma hrun hp) hinner hrest
    | values ho hitems hrest => simpa using Spells.values (ho.comma hrun hp) hitems hrest
  | splice ho hinner _ _ ih => simpa using Spells.splice ho hinner ih
  | group ho hinner _ _ ih => simpa using Spells.group ho hinner ih
  | values ho hitems _ ih => simpa using Spells.values ho hitems ih

/-- The word for a connective opens its group. -/
lemma opens_connective (c : Connective) : Opens c.name.toList [] (.group c) := by
  cases c with
  | and => exact ⟨by decide, .nil, by decide⟩
  | or => exact ⟨by decide, .nil, by decide⟩
  | not => exact ⟨by decide, .nil, by decide⟩

/-- Nothing spells no token. -/
lemma spells_nil : Spells [] [] := .text bracketFree_nil (.empty rfl .nil)

/-- A connective with a text in brackets behind it spells the group of the tokens of that text. -/
lemma Spells.connective {cs : List Char} {tokens : List Token} (h : Spells cs tokens)
    (c : Connective) :
    Spells (c.name.toList ++ '(' :: cs ++ [')']) [.group c tokens] := by
  simpa using Spells.group (opens_connective c) h spells_nil

end Retrieval
