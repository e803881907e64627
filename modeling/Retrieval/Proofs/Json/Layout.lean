/-
# Texts of JSON values

A value is written as a sequence of pieces with any blank space around them.  Whatever the layout, the
text is read as the value again, its objects as they are written.  This is shown for values without
numbers.  A text of nothing but blank space is no value.
-/
import Retrieval.Json.Reader
import Retrieval.Proofs.Json.Quoted
import Retrieval.Proofs.Text

namespace Retrieval.Json

/-! ### Layout -/

mutual

/-- The pieces that a value is written in: marks, names, numerals and strings. -/
def pieces : Json → List (List Char)
  | null => ["null".toList]
  | bool b => [if b then "true".toList else "false".toList]
  | number n => [n.chars]
  | string s => [quoted s]
  | array items => ['['] :: [[',']].intercalate (itemPieces items) ++ [[']']]
  | object members => ['\x7b'] :: [[',']].intercalate (memberPieces members) ++ [['\x7d']]

/-- The pieces of each of several values. -/
def itemPieces : List Json → List (List (List Char))
  | [] => []
  | item :: rest => pieces item :: itemPieces rest

/-- The pieces of each of several members. -/
def memberPieces : List (String × Json) → List (List (List Char))
  | [] => []
  | (name, value) :: rest => (quoted name :: [':'] :: pieces value) :: memberPieces rest

end

/-- Whether a text is blank space of JSON. -/
def Blank (cs : List Char) : Prop := ∀ c ∈ cs, isSpace c = true

/-- A text of pieces with blank space in front of each. -/
inductive Laid : List (List Char) → List Char → Prop where
  | nil : Laid [] []
  | cons {blank piece text : List Char} {pieces : List (List Char)} :
    Blank blank → Laid pieces text → Laid (piece :: pieces) (blank ++ piece ++ text)

/-- Whether a text is that of a value in some layout. -/
def LaidOut (v : Json) (text : String) : Prop :=
  ∃ front blank, Laid v.pieces front ∧ Blank blank ∧ text.toList = front ++ blank

instance (cs : List Char) : Decidable (Blank cs) :=
  decidable_of_iff (cs.all isSpace = true) List.all_eq_true

lemma blank_nil : Blank [] := by simp [Blank]

lemma laid_append_iff {ps qs : List (List Char)} {text : List Char} :
    Laid (ps ++ qs) text ↔ ∃ front back, Laid ps front ∧ Laid qs back ∧ text = front ++ back := by
  induction ps generalizing text with
  | nil =>
    constructor
    · exact fun h => ⟨[], text, .nil, h, rfl⟩
    · rintro ⟨front, back, hfront, hback, rfl⟩
      cases hfront
      exact hback
  | cons p ps ih =>
    constructor
    · rintro (_ | @⟨blank, _, text, _, hblank, h⟩)
      obtain ⟨front, back, hfront, hback, rfl⟩ := ih.1 h
      exact ⟨blank ++ p ++ front, back, .cons hblank hfront, hback, by simp⟩
    · rintro ⟨_, back, _ | @⟨blank, _, front, _, hblank, hfront⟩, hback, rfl⟩
      have h : Laid (p :: (ps ++ qs)) (blank ++ p ++ (front ++ back)) :=
        .cons hblank (ih.2 ⟨front, back, hfront, hback, rfl⟩)
      simpa using h

/-- Pieces may stand one behind the other without any blank space. -/
lemma laid_flatten (ps : List (List Char)) : Laid ps ps.flatten := by
  induction ps with
  | nil => exact .nil
  | cons p ps ih =>
    have h : Laid (p :: ps) ([] ++ p ++ ps.flatten) := .cons blank_nil ih
    exact h

lemma intercalate_cons {α : Type} (sep xs : List α) (xss : List (List α)) :
    sep.intercalate (xs :: xss) = xs ++ xss.flatMap (sep ++ ·) := by
  induction xss generalizing xs with
  | nil => simp
  | cons ys xss ih =>
    rw [List.intercalate_cons_cons, ih, List.flatMap_cons, List.append_assoc, List.append_assoc]

mutual

/-- The compact text of a value is that of its pieces. -/
lemma chars_eq : ∀ v : Json, v.chars = v.pieces.flatten
  | null => rfl
  | bool b => by cases b <;> rfl
  | number n => by simp [chars, pieces]
  | string s => by simp [chars, pieces]
  | array [] => rfl
  | array (item :: rest) => by
    simp [chars, pieces, itemChars, itemPieces, intercalate_cons, chars_eq item,
      moreItemChars_eq rest]
  | object [] => rfl
  | object ((name, value) :: rest) => by
    simp [chars, pieces, memberChars, memberPieces, intercalate_cons, chars_eq value,
      moreMemberChars_eq rest]

lemma moreItemChars_eq : ∀ items : List Json,
    moreItemChars items = ((itemPieces items).flatMap ([[',']] ++ ·)).flatten
  | [] => rfl
  | item :: rest => by
    simp [moreItemChars, itemPieces, chars_eq item, moreItemChars_eq rest]

lemma moreMemberChars_eq : ∀ members : List (String × Json),
    moreMemberChars members = ((memberPieces members).flatMap ([[',']] ++ ·)).flatten
  | [] => rfl
  | (name, value) :: rest => by
    simp [moreMemberChars, memberPieces, chars_eq value, moreMemberChars_eq rest]

end

/-- The compact text of a value is one of its layouts. -/
lemma laidOut_text (v : Json) : v.LaidOut v.text :=
  ⟨v.chars, [], chars_eq v ▸ laid_flatten _, blank_nil, by simp [text]⟩

/-! ### Cutting into lexemes -/

lemma lexemes?_space {c : Char} (h : isSpace c = true) (cs : List Char) :
    lexemes? (c :: cs) = lexemes? cs := by
  rw [lexemes?.eq_def]
  simp only [h, if_true]

lemma lexemes?_mark {c : Char} (h : isMark c = true) (cs : List Char) :
    lexemes? (c :: cs) = (lexemes? cs).map (.mark c :: ·) := by
  have hspace : isSpace c = false := by
    simp only [isMark, Bool.or_eq_true, beq_iff_eq] at h
    rcases h with ((((rfl | rfl) | rfl) | rfl) | rfl) | rfl <;> decide
  rw [lexemes?.eq_def]
  simp only [hspace, h, Bool.false_eq_true, if_false, if_true]

lemma lexemes?_blank {blank : List Char} (h : Blank blank) (cs : List Char) :
    lexemes? (blank ++ cs) = lexemes? cs := by
  induction blank with
  | nil => rfl
  | cons c blank ih =>
    obtain ⟨hc, hblank⟩ := List.forall_mem_cons.1 h
    rw [List.cons_append, lexemes?_space hc, ih hblank]

/-- Pieces that are cut into lexemes in every layout, as long as no word goes on behind them. -/
def Lexes (ps : List (List Char)) (ls : List Lexeme) : Prop :=
  ∀ front rest, Laid ps front → (∀ c ∈ rest.head?, isWordChar c = false) →
    lexemes? (front ++ rest) = (lexemes? rest).map (ls ++ ·)

lemma lexes_nil : Lexes [] [] := by
  rintro _ rest ⟨⟩ -
  simp

section

variable {ps qs : List (List Char)} {ls ls' : List Lexeme} {c : Char}

lemma Lexes.mark (hc : isMark c = true) (h : Lexes ps ls) : Lexes ([c] :: ps) (.mark c :: ls) := by
  rintro _ rest (_ | @⟨blank, _, front, _, hblank, hfront⟩) hrest
  rw [List.append_assoc, List.append_assoc, lexemes?_blank hblank, List.singleton_append,
    lexemes?_mark hc, h front rest hfront hrest]
  cases lexemes? rest <;> rfl

lemma Lexes.string {s : String} {parts : List StringPart}
    (hs : ∀ rest, lexemes? (quoted s ++ rest) = (lexemes? rest).map (.string parts :: ·))
    (h : Lexes ps ls) : Lexes (quoted s :: ps) (.string parts :: ls) := by
  rintro _ rest (_ | @⟨blank, _, front, _, hblank, hfront⟩) hrest
  rw [List.append_assoc, List.append_assoc, lexemes?_blank hblank, hs, h front rest hfront hrest]
  cases lexemes? rest <;> rfl

/-- A word ends where no character of words follows. -/
lemma lexemes?_word {word rest : List Char} (hne : word ≠ [])
    (hword : ∀ c ∈ word, isWordChar c = true) (hrest : ∀ c ∈ rest.head?, isWordChar c = false) :
    lexemes? (word ++ rest) = (lexemes? rest).map (.word word :: ·) := by
  induction word with
  | nil => exact absurd rfl hne
  | cons c word ih =>
    obtain ⟨hc, hmore⟩ := List.forall_mem_cons.1 hword
    obtain ⟨⟨hspace, hmark⟩, hquote⟩ : (isSpace c = false ∧ isMark c = false) ∧ c ≠ '"' := by
      simpa [isWordChar] using hc
    cases word with
    | nil =>
      cases rest with
      | nil => simp [lexemes?, hspace, hmark, hquote]
      | cons d rest =>
        have hd : isWordChar d = false := hrest d rfl
        simp [lexemes?, hspace, hmark, hquote, hd]
    | cons d word =>
      have hd : isWordChar d = true := hmore d List.mem_cons_self
      have hlater := ih (by simp) hmore
      rw [List.cons_append] at hlater
      rw [List.cons_append, List.cons_append, lexemes?, hspace, hmark]
      simp only [Bool.false_eq_true, if_false, hquote, hd, if_true, hlater]
      cases lexemes? rest <;> rfl

lemma lexes_word {word : List Char} (hne : word ≠ []) (hword : ∀ c ∈ word, isWordChar c = true) :
    Lexes [word] [.word word] := by
  rintro _ rest (_ | @⟨blank, _, front, _, hblank, ⟨⟩⟩) hrest
  rw [List.append_nil, List.append_assoc, lexemes?_blank hblank, lexemes?_word hne hword hrest]
  rfl

/-- Pieces of which the first is a mark. -/
def BeginWithMark (ps : List (List Char)) : Prop := ∃ c qs, ps = [c] :: qs ∧ isMark c = true

/-- Pieces may be followed by others that begin with a mark, which ends any word. -/
lemma Lexes.append (h : Lexes ps ls) (hqs : BeginWithMark qs) (h' : Lexes qs ls') :
    Lexes (ps ++ qs) (ls ++ ls') := by
  obtain ⟨c, qs, rfl, hc⟩ := hqs
  intro text rest htext hrest
  obtain ⟨front, back, hfront, hback, rfl⟩ := laid_append_iff.1 htext
  have hhead : ∀ d ∈ (back ++ rest).head?, isWordChar d = false := by
    rcases hback with _ | @⟨blank, _, back, _, hblank, hback⟩
    cases blank with
    | nil => simp [isWordChar, hc]
    | cons d blank => simp [isWordChar, hblank d List.mem_cons_self]
  rw [List.append_assoc, h front _ hfront hhead, h' back rest hback hrest]
  cases lexemes? rest <;> simp

/-- Whatever else stands in a container, a comma or the end of it comes next. -/
lemma Lexes.more {pss : List (List (List Char))} (h : Lexes ps ls) (hc : isMark c = true)
    (h' : Lexes (pss.flatMap ([[',']] ++ ·) ++ [[c]]) ls') :
    Lexes (ps ++ (pss.flatMap ([[',']] ++ ·) ++ [[c]])) (ls ++ ls') := by
  refine h.append ?_ h'
  cases pss with
  | nil => exact ⟨c, [], rfl, hc⟩
  | cons ps pss => exact ⟨',', _, rfl, by decide⟩

end

/-! ### From lexemes to values -/

namespace Written

/-- Lexemes that are read as a tree inside any open containers. -/
def Spells (ls : List Lexeme) (w : Written) : Prop :=
  ∀ opened rest, ahead? opened (ls ++ rest) = behind? opened w rest

/-- Lexemes that go on behind an item up to the end of its array. -/
def SpellsItems (ls : List Lexeme) (ws : List Written) : Prop :=
  ∀ opened done w rest, behind? (.items done :: opened) w (ls ++ rest) =
    behind? opened (array (done.reverse ++ w :: ws)) rest

/-- Lexemes that go on behind a member up to the end of its object. -/
def SpellsMembers (ls : List Lexeme) (ms : List (List StringPart × Written)) : Prop :=
  ∀ opened done name w rest, behind? (.members done name :: opened) w (ls ++ rest) =
    behind? opened (object (done.reverse ++ (name, w) :: ms)) rest

attribute [local simp] ahead? behind?

lemma spells_string (parts : List StringPart) : Spells [.string parts] (string parts) :=
  fun _ _ => by simp

lemma spells_word {cs : List Char} {w : Written} (h : ofWord? cs = some w) :
    Spells [.word cs] w :=
  fun _ _ => by simp [h]

variable {ls ls' : List Lexeme} {w : Written} {ws : List Written}
  {ms : List (List StringPart × Written)} {name : List StringPart}

/-- A value begins with something that does not end an array. -/
lemma Spells.exists_cons (h : Spells ls w) : ∃ l rest, ls = l :: rest ∧ l ≠ .mark ']' := by
  have hread := h [] []
  cases ls with
  | nil => simp at hread
  | cons l rest =>
    refine ⟨l, rest, rfl, ?_⟩
    rintro rfl
    simp at hread

lemma spells_array_nil : Spells [.mark '[', .mark ']'] (array []) :=
  fun _ _ => by simp

lemma spellsItems_nil : SpellsItems [.mark ']'] [] := by
  intro opened done w rest
  simp

lemma SpellsItems.cons (h : Spells ls w) (hmore : SpellsItems ls' ws) :
    SpellsItems (.mark ',' :: (ls ++ ls')) (w :: ws) := by
  intro opened done w' rest
  rw [List.cons_append, List.append_assoc, behind?]
  simp only [if_true]
  rw [h, hmore]
  simp

lemma SpellsItems.array (h : Spells ls w) (hmore : SpellsItems ls' ws) :
    Spells (.mark '[' :: (ls ++ ls')) (array (w :: ws)) := by
  intro opened rest
  have hopen : ahead? opened (.mark '[' :: (ls ++ (ls' ++ rest))) =
      ahead? (.items [] :: opened) (ls ++ (ls' ++ rest)) := by
    obtain ⟨l, after, rfl, hl⟩ := h.exists_cons
    rw [List.cons_append, ahead?]
    exact fun _ h => hl (List.cons.inj h).1
  rw [List.cons_append, List.append_assoc, hopen, h, hmore]
  rfl

lemma spells_object_nil : Spells [.mark '\x7b', .mark '\x7d'] (object []) :=
  fun _ _ => by simp

lemma spellsMembers_nil : SpellsMembers [.mark '\x7d'] [] := by
  intro opened done name w rest
  simp

lemma SpellsMembers.cons (h : Spells ls w) (hmore : SpellsMembers ls' ms) :
    SpellsMembers (.mark ',' :: .string name :: .mark ':' :: (ls ++ ls')) ((name, w) :: ms) := by
  intro opened done name' w' rest
  simp only [List.cons_append, List.append_assoc]
  rw [behind?]
  simp only [if_true]
  rw [h, hmore]
  simp

lemma SpellsMembers.object (h : Spells ls w) (hmore : SpellsMembers ls' ms) :
    Spells (.mark '\x7b' :: .string name :: .mark ':' :: (ls ++ ls')) (object ((name, w) :: ms)) := by
  intro opened rest
  simp only [List.cons_append, List.append_assoc]
  rw [ahead?, h, hmore]
  rfl

end Written

/-! ### From texts to values -/

/-- Pieces that are read as a value that nests at most so deep. -/
def Reads (depth : Nat) (v : Json) (ps : List (List Char)) : Prop :=
  ∃ ls w, Lexes ps ls ∧ Written.Spells ls w ∧ w.value? depth = some v

section

variable {depth : Nat} {v : Json} {ps : List (List Char)}

lemma reads_string (s : String) : Reads depth (.string s) [quoted s] := by
  obtain ⟨parts, hparts, hquoted⟩ := exists_lexemes?_quoted s
  exact ⟨[.string parts], .string parts, lexes_nil.string hquoted, Written.spells_string parts,
    by simp [Written.value?, hparts]⟩

lemma reads_word {word : List Char} {w : Written} (hne : word ≠ [])
    (hword : word.all isWordChar = true) (hw : Written.ofWord? word = some w)
    (hv : w.value? depth = some v) : Reads depth v [word] :=
  ⟨[.word word], w, lexes_word hne (List.all_eq_true.1 hword), Written.spells_word hw, hv⟩

/-- What stands behind an item of an array. -/
lemma exists_spellsItems {vs : List Json} {pss : List (List (List Char))}
    (h : List.Forall₂ (Reads depth) vs pss) :
    ∃ ls ws, Lexes (pss.flatMap ([[',']] ++ ·) ++ [[']']]) ls ∧ Written.SpellsItems ls ws ∧
      Written.itemValues? depth ws = some vs := by
  induction h with
  | nil => exact ⟨_, [], lexes_nil.mark (by decide), Written.spellsItems_nil, rfl⟩
  | @cons v ps vs pss hv hrest ih =>
    obtain ⟨ls, w, hlexes, hspells, hvalue⟩ := hv
    obtain ⟨ls', ws, hlexes', hmore, hvalues⟩ := ih
    have hafter := (hlexes.more (by decide) hlexes').mark (c := ',') (by decide)
    refine ⟨_, w :: ws, ?_, hmore.cons hspells, by simp [Written.itemValues?, hvalue, hvalues]⟩
    simpa using hafter

lemma reads_array {vs : List Json} {pss : List (List (List Char))}
    (h : List.Forall₂ (Reads depth) vs pss) :
    Reads (depth + 1) (.array vs) (['['] :: [[',']].intercalate pss ++ [[']']]) := by
  cases h with
  | nil =>
    have hlexes := (lexes_nil.mark (c := ']') (by decide)).mark (c := '[') (by decide)
    exact ⟨_, .array [], hlexes, Written.spells_array_nil, rfl⟩
  | @cons v ps vs pss hv hrest =>
    obtain ⟨ls, w, hlexes, hspells, hvalue⟩ := hv
    obtain ⟨ls', ws, hlexes', hmore, hvalues⟩ := exists_spellsItems hrest
    have hafter := (hlexes.more (by decide) hlexes').mark (c := '[') (by decide)
    refine ⟨_, .array (w :: ws), ?_, hmore.array hspells,
      by simp [Written.value?, Written.itemValues?, hvalue, hvalues]⟩
    rw [intercalate_cons]
    simpa using hafter

/-- Pieces that are read as a member of an object. -/
def ReadsMember (depth : Nat) (m : String × Json) (ps : List (List Char)) : Prop :=
  ∃ parts ls w, Lexes ps (.string parts :: .mark ':' :: ls) ∧ Written.Spells ls w ∧
    stringText? parts = some m.1 ∧ w.value? depth = some m.2

lemma Reads.member (h : Reads depth v ps) (name : String) :
    ReadsMember depth (name, v) (quoted name :: [':'] :: ps) := by
  obtain ⟨ls, w, hlexes, hspells, hvalue⟩ := h
  obtain ⟨parts, hparts, hquoted⟩ := exists_lexemes?_quoted name
  exact ⟨parts, ls, w, (hlexes.mark (by decide)).string hquoted, hspells, hparts, hvalue⟩

/-- What stands behind a member of an object. -/
lemma exists_spellsMembers {ms : List (String × Json)} {pss : List (List (List Char))}
    (h : List.Forall₂ (ReadsMember depth) ms pss) :
    ∃ ls ws, Lexes (pss.flatMap ([[',']] ++ ·) ++ [['\x7d']]) ls ∧ Written.SpellsMembers ls ws ∧
      Written.memberValues? depth ws = some ms := by
  induction h with
  | nil => exact ⟨_, [], lexes_nil.mark (by decide), Written.spellsMembers_nil, rfl⟩
  | @cons m ps ms pss hm hrest ih =>
    obtain ⟨parts, ls, w, hlexes, hspells, hname, hvalue⟩ := hm
    obtain ⟨ls', ws, hlexes', hmore, hvalues⟩ := ih
    have hafter := (hlexes.more (by decide) hlexes').mark (c := ',') (by decide)
    refine ⟨_, (parts, w) :: ws, ?_, hmore.cons hspells,
      by simp [Written.memberValues?, hname, hvalue, hvalues]⟩
    simpa using hafter

lemma reads_object {ms : List (String × Json)} {pss : List (List (List Char))}
    (h : List.Forall₂ (ReadsMember depth) ms pss) :
    Reads (depth + 1) (.object ms) (['\x7b'] :: [[',']].intercalate pss ++ [['\x7d']]) := by
  cases h with
  | nil =>
    have hlexes := (lexes_nil.mark (c := '\x7d') (by decide)).mark (c := '\x7b') (by decide)
    exact ⟨_, .object [], hlexes, Written.spells_object_nil, rfl⟩
  | @cons m ps ms pss hm hrest =>
    obtain ⟨parts, ls, w, hlexes, hspells, hname, hvalue⟩ := hm
    obtain ⟨ls', ws, hlexes', hmore, hvalues⟩ := exists_spellsMembers hrest
    have hafter := (hlexes.more (by decide) hlexes').mark (c := '\x7b') (by decide)
    refine ⟨_, .object ((parts, w) :: ws), ?_, hmore.object hspells,
      by simp [Written.value?, Written.memberValues?, hname, hvalue, hvalues]⟩
    rw [intercalate_cons]
    simpa using hafter

end

/-- A value without numbers whose containers nest at most so deep. -/
inductive NumberFree : Nat → Json → Prop where
  | null {depth : Nat} : NumberFree depth .null
  | bool {depth : Nat} (b : Bool) : NumberFree depth (.bool b)
  | string {depth : Nat} (s : String) : NumberFree depth (.string s)
  | array {depth : Nat} {items : List Json} :
    (∀ item ∈ items, NumberFree depth item) → NumberFree (depth + 1) (.array items)
  | object {depth : Nat} {members : List (String × Json)} :
    (∀ m ∈ members, NumberFree depth m.2) → NumberFree (depth + 1) (.object members)

lemma forall₂_itemPieces {R : Json → List (List Char) → Prop} {items : List Json}
    (h : ∀ item ∈ items, R item item.pieces) : List.Forall₂ R items (itemPieces items) := by
  induction items with
  | nil => exact .nil
  | cons item rest ih =>
    rw [List.forall_mem_cons] at h
    exact .cons h.1 (ih h.2)

lemma forall₂_memberPieces {depth : Nat} {members : List (String × Json)}
    (h : ∀ m ∈ members, Reads depth m.2 m.2.pieces) :
    List.Forall₂ (ReadsMember depth) members (memberPieces members) := by
  induction members with
  | nil => exact .nil
  | cons m rest ih =>
    rw [List.forall_mem_cons] at h
    exact .cons (h.1.member m.1) (ih h.2)

/-- A value without numbers is read from its pieces. -/
lemma NumberFree.reads {depth : Nat} {v : Json} (h : NumberFree depth v) :
    Reads depth v v.pieces := by
  induction h with
  | null => exact reads_word (w := .null) (by decide) (by decide) rfl rfl
  | bool b =>
    cases b with
    | false => exact reads_word (w := .bool false) (by decide) (by decide) rfl rfl
    | true => exact reads_word (w := .bool true) (by decide) (by decide) rfl rfl
  | string s => exact reads_string s
  | array _ ih => exact reads_array (forall₂_itemPieces ih)
  | object _ ih => exact reads_object (forall₂_memberPieces ih)

/-- A value without numbers is read from each of its texts, whatever the layout. -/
theorem parse?_of_laidOut {v : Json} {text : String} (h : NumberFree maxNesting v)
    (htext : v.LaidOut text) : parse? text = some v := by
  obtain ⟨ls, w, hlexes, hspells, hvalue⟩ := h.reads
  obtain ⟨front, blank, hfront, hblank, hchars⟩ := htext
  have hends : ∀ c ∈ blank.head?, isWordChar c = false := by
    intro c hc
    simp [isWordChar, hblank c (List.mem_of_mem_head? hc)]
  have hlexemes : lexemes? text.toList = some ls := by
    have hnone : lexemes? blank = some [] := by
      simpa [lexemes?] using lexemes?_blank hblank []
    rw [hchars, hlexes front blank hfront hends, hnone, Option.map_some, List.append_nil]
  have hread : Written.ahead? [] ls = some w := by
    have hspelled := hspells [] []
    rw [List.append_nil] at hspelled
    rw [hspelled, Written.behind?]
    rfl
  rw [parse?, Written.ofText?, hlexemes, Option.bind_some, hread, Option.bind_some, hvalue]

/-! ### Blank texts -/

/-- Blank space begins with no mark, and with no string. -/
lemma isMark_of_isBlank {c : Char} (h : Text.isBlank c = true) : isMark c = false ∧ c ≠ '"' := by
  refine ⟨?_, Text.ne_of_isBlank h (by decide)⟩
  by_contra hmark
  simp only [isMark, Bool.not_eq_false, Bool.or_eq_true, beq_iff_eq] at hmark
  rcases hmark with ((((rfl | rfl) | rfl) | rfl) | rfl) | rfl <;> exact absurd h (by decide)

lemma exists_consWord_eq (c : Char) (ls : List Lexeme) :
    ∃ w rest, consWord c ls = .word (c :: w) :: rest := by
  rw [consWord.eq_def]
  split
  · exact ⟨_, _, rfl⟩
  · exact ⟨[], _, rfl⟩

/-- If blank space has a lexeme, the first is a word, of blank space that JSON does not skip. -/
lemma exists_lexemes?_of_isBlank {cs : List Char} (h : ∀ c ∈ cs, Text.isBlank c = true) :
    lexemes? cs = some [] ∨
      ∃ c w rest, lexemes? cs = some (.word (c :: w) :: rest) ∧ Text.isBlank c = true := by
  induction cs with
  | nil => exact .inl (by rw [lexemes?])
  | cons c cs ih =>
    obtain ⟨hc, hcs⟩ := List.forall_mem_cons.1 h
    cases hspace : isSpace c with
    | true =>
      rw [lexemes?_space hspace]
      exact ih hcs
    | false =>
      obtain ⟨ls, hls⟩ : ∃ ls, lexemes? cs = some ls := by
        obtain hls | ⟨_, _, _, hls, -⟩ := ih hcs
        · exact ⟨_, hls⟩
        · exact ⟨_, hls⟩
      obtain ⟨w, rest, hcons⟩ := exists_consWord_eq c ls
      obtain ⟨hmark, hquote⟩ := isMark_of_isBlank hc
      rw [lexemes?.eq_def]
      simp only [hspace, hmark, hquote, Bool.false_eq_true, if_false, hls, Option.map_some, hcons]
      split
      · exact .inr ⟨c, _, _, rfl, hc⟩
      · split
        · exact .inr ⟨c, _, _, rfl, hc⟩
        · exact .inr ⟨c, _, _, rfl, hc⟩

/-- Blank space begins no word of JSON. -/
lemma Written.ofWord?_of_isBlank {c : Char} (h : Text.isBlank c = true) (w : List Char) :
    ofWord? (c :: w) = none := by
  have hdigit : isDigit c = false := by
    by_contra hdigit
    have hrange : 48 ≤ c.toNat ∧ c.toNat ≤ 57 := by
      simpa [isDigit, Char.le_def, UInt32.le_iff_toNat_le] using hdigit
    simp only [Text.isBlank, Bool.or_eq_true, Bool.and_eq_true, decide_eq_true_iff, beq_iff_eq] at h
    omega
  have hsign : c ≠ '-' := Text.ne_of_isBlank h (by decide)
  have hnumeral : Numeral.ofChars? (c :: w) = none := by
    rw [Numeral.ofChars?]
    · simp [Numeral.ofUnsigned?, spanDigits, hdigit]
    · exact fun cs hcs => hsign (List.cons.inj hcs).1
  have hnull : c ≠ 'n' := Text.ne_of_isBlank h (by decide)
  have htrue : c ≠ 't' := Text.ne_of_isBlank h (by decide)
  have hfalse : c ≠ 'f' := Text.ne_of_isBlank h (by decide)
  simp [ofWord?, hnumeral, hnull, htrue, hfalse]

/-- Blank space is no document. -/
lemma ofText?_of_isBlankText {text : String} (h : Text.isBlankText text) : ofText? text = none := by
  have hnone : Written.ofText? text = none := by
    rw [Written.ofText?]
    obtain hls | ⟨c, w, rest, hls, hc⟩ := exists_lexemes?_of_isBlank (List.all_eq_true.1 h)
    · simp [hls, Written.ahead?]
    · simp [hls, Written.ahead?, Written.ofWord?_of_isBlank hc]
  rw [ofText?, parse?, hnone]
  rfl

end Retrieval.Json
