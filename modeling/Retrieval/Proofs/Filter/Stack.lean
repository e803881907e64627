/-
# The stack of the reader

While a filter with matching brackets is read, the stack of the reader holds one frame more than
brackets are open: the frame of the filter at the bottom and a frame for each open bracket above it.
So no bracket ever lacks a frame, and a filter is refused as imbalanced by the check of its brackets
or not at all.
-/
import Retrieval.Proofs.Filter.Balance

namespace Retrieval

/-- The frames of a reader with `depth` brackets open. -/
inductive OpenFrames : Nat → List Frame → Prop where
  | filter (tokens : List Token) : OpenFrames 0 [⟨.filter, tokens⟩]
  | bracket (o : Opening) (tokens : List Token) {depth : Nat} {frames : List Frame} :
    OpenFrames depth frames → OpenFrames (depth + 1) (⟨.bracket o, tokens⟩ :: frames)

namespace OpenFrames

variable {depth : Nat} {frames : List Frame}

lemma length_eq (h : OpenFrames depth frames) : frames.length = depth + 1 := by
  induction h with
  | filter => rfl
  | bracket o tokens _ ih => rw [List.length_cons, ih]

/-- There is always a frame to read into, and it may be given other tokens. -/
lemma exists_top (h : OpenFrames depth frames) :
    ∃ top below, frames = top :: below ∧
      ∀ tokens, OpenFrames depth ({ top with tokens := tokens } :: below) := by
  cases h with
  | filter tokens => exact ⟨_, [], rfl, fun tokens => .filter tokens⟩
  | bracket o tokens h => exact ⟨_, _, rfl, fun tokens => .bracket o tokens h⟩

/-- With a bracket open, its frame lies on another one. -/
lemma exists_bracket (h : OpenFrames depth frames) (hpos : 0 < depth) :
    ∃ o tokens next below, frames = ⟨.bracket o, tokens⟩ :: next :: below ∧
      OpenFrames (depth - 1) (next :: below) := by
  cases h with
  | filter => omega
  | bracket o tokens h =>
    obtain ⟨next, below, rfl, -⟩ := h.exists_top
    exact ⟨o, tokens, next, below, rfl, h⟩

lemma eq_singleton (h : OpenFrames 0 frames) : ∃ tokens, frames = [⟨.filter, tokens⟩] := by
  cases h with
  | filter tokens => exact ⟨tokens, rfl⟩

end OpenFrames

/-! ### What can go wrong -/

/-- Whatever goes wrong is a malformed piece of the filter. -/
def OnlyMalformed (input : String) {α : Type} (r : Except QueryError α) : Prop :=
  ∀ e, r = .error e → ∃ piece, e = .malformedToken piece input

namespace OnlyMalformed

variable {input : String} {α β : Type}

@[simp] lemma ok (a : α) : OnlyMalformed input (.ok a) := by
  intro e h
  cases h

@[simp] lemma malformed (piece : String) :
    OnlyMalformed input (.error (.malformedToken piece input) : Except QueryError α) := by
  intro e h
  cases h
  exact ⟨piece, rfl⟩

lemma bind {r : Except QueryError α} {f : α → Except QueryError β} (hr : OnlyMalformed input r)
    (hf : ∀ a, r = .ok a → OnlyMalformed input (f a)) : OnlyMalformed input (r >>= f) := by
  cases r with
  | error e =>
    obtain ⟨piece, rfl⟩ := hr e rfl
    exact malformed piece
  | ok a => exact hf a rfl

lemma ne_imbalance {r : Except QueryError α} (h : OnlyMalformed input r) (text : String) :
    r ≠ .error (.bracketImbalance text) := by
  intro he
  obtain ⟨piece, hp⟩ := h _ he
  cases hp

end OnlyMalformed

namespace Token

variable (input : String)

lemma ofPiece_onlyMalformed (piece : List Char) : OnlyMalformed input (ofPiece input piece) := by
  unfold ofPiece malformed
  split <;> simp

lemma ofPieces_onlyMalformed (pieces : List (List Char)) :
    OnlyMalformed input (ofPieces input pieces) := by
  unfold ofPieces
  refine .bind ?_ fun _ _ => .ok _
  induction pieces with
  | nil => exact .ok []
  | cons piece pieces ih =>
    rw [List.mapM_cons]
    exact (ofPiece_onlyMalformed input piece).bind fun _ _ => ih.bind fun _ _ => .ok _

lemma opening_onlyMalformed (run : List Char) : OnlyMalformed input (opening input run) := by
  unfold opening malformed
  dsimp only
  split <;> simp

end Token

lemma Frame.close_onlyMalformed (input : String) (o : Opening) (tokens : List Token)
    (run : List Char) : OnlyMalformed input (Frame.close input ⟨.bracket o, tokens⟩ run) := by
  cases o with
  | splice => exact (Token.ofPieces_onlyMalformed input _).bind fun _ _ => .ok _
  | group c => exact (Token.ofPieces_onlyMalformed input _).bind fun _ _ => .ok _
  | values path operator => exact .ok _

/-! ### One character -/

/-- The result of a step of the reader that leaves `depth` brackets open: if anything is wrong, a
piece of the filter is. -/
structure LeavesOpen (input : String) (depth : Nat) (r : Except QueryError FilterReader) : Prop
  where
  onlyMalformed : OnlyMalformed input r
  openFrames : ∀ r', r = .ok r' → OpenFrames depth r'.frames

namespace LeavesOpen

variable {input : String} {depth : Nat}

lemma ok {r : FilterReader} (h : OpenFrames depth r.frames) : LeavesOpen input depth (.ok r) := by
  refine ⟨.ok r, fun r' hr => ?_⟩
  cases hr
  exact h

lemma bind {α : Type} {r : Except QueryError α} {f : α → Except QueryError FilterReader}
    (hr : OnlyMalformed input r) (hf : ∀ a, r = .ok a → LeavesOpen input depth (f a)) :
    LeavesOpen input depth (r >>= f) := by
  refine ⟨hr.bind fun a ha => (hf a ha).onlyMalformed, fun r' hr' => ?_⟩
  cases r with
  | error e => cases hr'
  | ok a => exact (hf a rfl).openFrames r' hr'

end LeavesOpen

namespace FilterReader

variable (input : String) {depth : Nat} {r : FilterReader}

lemma enter_leavesOpen (h : OpenFrames depth r.frames) :
    LeavesOpen input (depth + 1) (r.enter input) := by
  obtain ⟨top, below, hframes, htop⟩ := h.exists_top
  simp only [enter, hframes]
  split
  · exact ⟨.malformed _, fun r' hr => by cases hr⟩
  · refine .bind (Token.ofPieces_onlyMalformed input _) fun before _ => ?_
    refine .bind (Token.opening_onlyMalformed input _) fun o _ => ?_
    exact .ok (.bracket o [] (htop _))

lemma leave_leavesOpen (h : OpenFrames depth r.frames) (hpos : 0 < depth) :
    LeavesOpen input (depth - 1) (r.leave input) := by
  obtain ⟨o, tokens, next, below, hframes, hnext⟩ := h.exists_bracket hpos
  simp only [leave, hframes]
  refine .bind (Frame.close_onlyMalformed input o tokens _) fun here _ => .ok ?_
  -- the frame below takes the tokens and stays what it is
  obtain ⟨top, rest, heq, htop⟩ := hnext.exists_top
  cases heq
  exact htop _

/-- Every character keeps the frames in step with the open brackets. -/
lemma step_leavesOpen (h : OpenFrames depth r.frames) {c : Char} (hc : ClosesOpen depth [c]) :
    LeavesOpen input (depth + [c].count '(' - [c].count ')') (r.step input c) := by
  rw [step]
  by_cases hopen : c = '('
  · subst hopen
    exact enter_leavesOpen input h
  · by_cases hclose : c = ')'
    · subst hclose
      rw [if_neg hopen, if_pos rfl]
      exact leave_leavesOpen input h (closesOpen_closing.1 hc).1
    · rw [if_neg hopen, if_neg hclose, List.count_singleton, List.count_singleton]
      simp only [beq_iff_eq, hopen, hclose, if_false]
      exact .ok h

/-! ### Many characters -/

/-- Reading a text that closes no more brackets than are open keeps the frames in step with the
open brackets. -/
lemma read_leavesOpen {cs : List Char} (h : OpenFrames depth r.frames) (hcs : ClosesOpen depth cs) :
    LeavesOpen input (depth + cs.count '(' - cs.count ')') (r.read input cs) := by
  induction cs generalizing depth r with
  | nil => exact .ok h
  | cons c cs ih =>
    -- one character first, and the rest from the depth that it leaves
    have hc : ClosesOpen depth [c] := fun read hr => hcs read (hr.trans (by simp))
    have hrest : ClosesOpen (depth + [c].count '(' - [c].count ')') cs := by
      intro read hr
      have hle := hcs (c :: read) (List.cons_prefix_cons.2 ⟨rfl, hr⟩)
      rw [← List.singleton_append, List.count_append, List.count_append] at hle
      omega
    have hstep := step_leavesOpen input h hc
    have hdepth : depth + (c :: cs).count '(' - (c :: cs).count ')' =
        depth + [c].count '(' - [c].count ')' + cs.count '(' - cs.count ')' := by
      have hle := hc [c] List.prefix_rfl
      rw [← List.singleton_append, List.count_append, List.count_append]
      omega
    rw [read_cons, hdepth]
    exact .bind hstep.onlyMalformed fun r' hr' => ih (hstep.openFrames r' hr') hrest

lemma finish_onlyMalformed (h : OpenFrames 0 r.frames) : OnlyMalformed input (r.finish input) := by
  obtain ⟨tokens, hframes⟩ := h.eq_singleton
  simp only [finish, hframes, List.isEmpty_nil, if_true]
  exact (Token.ofPieces_onlyMalformed input _).bind fun _ _ => .ok _

end FilterReader

/-! ### Whole filters -/

/-- A reader that has read the beginning of a text with matching brackets is in step with the
brackets that are open there. -/
lemma Balanced.read_leavesOpen (input : String) {read rest : List Char}
    (h : Balanced (read ++ rest)) :
    LeavesOpen input (read.count '(' - read.count ')') (FilterReader.start.read input read) := by
  have hread : ClosesOpen 0 read := fun p hp => by
    simpa using h.closed_le p (hp.trans (List.prefix_append read rest))
  simpa using FilterReader.read_leavesOpen input (.filter []) hread

/-- In a text with matching brackets the next character closes no bracket that is not open. -/
lemma Balanced.closesOpen_next {read more : List Char} {c : Char}
    (h : Balanced (read ++ c :: more)) :
    ClosesOpen (read.count '(' - read.count ')') [c] := by
  intro p hp
  have hle := h.closed_le read (List.prefix_append read _)
  have hnext := h.closed_le (read ++ p)
    ((List.prefix_append_right_inj read).2 (hp.trans (by simp)))
  rw [List.count_append, List.count_append] at hnext
  omega

/-- A filter with matching brackets that is not blank is read, or some piece of it is malformed. -/
lemma readFilter_onlyMalformed {input : String} (hblank : Text.isBlankText input = false)
    (hb : Balanced input.toList) : OnlyMalformed input (readFilter input) := by
  have hwhole : Balanced (input.toList ++ []) := by simpa using hb
  have hread := hwhole.read_leavesOpen input
  rw [readFilter, readBrackets_eq_ok_iff.2 ⟨rfl, hblank, hb⟩]
  refine hread.onlyMalformed.bind fun r hr => FilterReader.finish_onlyMalformed input ?_
  simpa [hb.settled] using hread.openFrames r hr

/-- **Imbalance is found by the check or not at all.**  A filter is refused as imbalanced exactly if
it is blank or its brackets do not match; any other one is read or has a malformed piece.  Once the
check has passed, the stack is at every character one frame higher than brackets are open: no step
and no end lacks a frame, a closing bracket meets the frame of a bracket on top of another frame,
and at the end only the frame of the filter is left. -/
theorem readFilter_eq_imbalance_iff (input : String) :
    (readFilter input = .error (.bracketImbalance input) ↔
      (∀ c ∈ input.toList, Text.isBlank c = true) ∨ ¬ Balanced input.toList) ∧
    ((∃ c ∈ input.toList, Text.isBlank c = false) → Balanced input.toList →
      (∃ tokens, readFilter input = .ok tokens) ∨
        ∃ piece, readFilter input = .error (.malformedToken piece input)) ∧
    ∀ read rest r, readBrackets input = .ok (read ++ rest) →
      FilterReader.start.read input read = .ok r →
        r.frames.length + read.count ')' = read.count '(' + 1 ∧
        (∀ c more, rest = c :: more →
          ∀ text, r.step input c ≠ .error (.bracketImbalance text)) ∧
        (∀ more, rest = ')' :: more →
          ∃ o tokens next below, r.frames = ⟨.bracket o, tokens⟩ :: next :: below) ∧
        (rest = [] → (∃ tokens, r.frames = [⟨.filter, tokens⟩]) ∧
          ∀ text, r.finish input ≠ .error (.bracketImbalance text)) := by
  have hblank : Text.isBlankText input = true ↔ ∀ c ∈ input.toList, Text.isBlank c = true := by
    simp [Text.isBlankText]
  refine ⟨⟨fun h => ?_, fun h => ?_⟩, fun ⟨c, hc, hcb⟩ hb => ?_, fun read rest r hcheck hr => ?_⟩
  · -- beyond the check nothing is refused as imbalanced
    by_contra hne
    rw [not_or, not_not, ← hblank, Bool.not_eq_true] at hne
    exact (readFilter_onlyMalformed hne.1 hne.2).ne_imbalance input h
  · rw [← hblank] at h
    rw [readFilter, readBrackets_eq_error_iff.2 ⟨rfl, h⟩]
    rfl
  · have hne : Text.isBlankText input = false := by
      refine Bool.eq_false_iff.2 fun hall => ?_
      simp [hblank.1 hall c hc] at hcb
    cases h : readFilter input with
    | ok tokens => exact .inl ⟨tokens, rfl⟩
    | error e =>
      obtain ⟨piece, rfl⟩ := readFilter_onlyMalformed hne hb e h
      exact .inr ⟨piece, rfl⟩
  · obtain ⟨heq, -, hb⟩ := readBrackets_eq_ok_iff.1 hcheck
    rw [← heq] at hb
    -- so far no more brackets are closed than were opened, and the frames are in step with that
    have hle := hb.closed_le read (List.prefix_append read rest)
    have hframes := (hb.read_leavesOpen input).openFrames r hr
    refine ⟨?_, ?_, ?_, ?_⟩
    · rw [hframes.length_eq]
      omega
    · rintro c more rfl
      have hstep := FilterReader.step_leavesOpen input hframes hb.closesOpen_next
      exact hstep.onlyMalformed.ne_imbalance
    · -- what a closing bracket closes is open, so its frame is on the stack
      rintro more rfl
      have hpos := (closesOpen_closing.1 hb.closesOpen_next).1
      obtain ⟨o, tokens, next, below, hf, -⟩ := hframes.exists_bracket hpos
      exact ⟨o, tokens, next, below, hf⟩
    · rintro rfl
      have hsettled := hb.settled
      simp only [List.append_nil] at hsettled
      rw [hsettled, Nat.sub_self] at hframes
      exact ⟨hframes.eq_singleton, (FilterReader.finish_onlyMalformed input hframes).ne_imbalance⟩

end Retrieval
