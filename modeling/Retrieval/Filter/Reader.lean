/-
# Reading filters

A filter is read from left to right.  The reader keeps a stack of frames, one for the filter and one
for each bracket that is still open, and the text that it has met since the last bracket.  What this
text says is settled at the next bracket, or at the end.  The brackets of the whole text are checked
before any of it is read.
-/
import Retrieval.Filter.Token

namespace Retrieval

/-! ### Brackets -/

/-- Whether the brackets of a text match, given how many are open before it. -/
def bracketsMatch (depth : Nat) : List Char → Bool
  | [] => depth = 0
  | c :: cs =>
    if c = '(' then bracketsMatch (depth + 1) cs
    else if c = ')' then 0 < depth && bracketsMatch (depth - 1) cs
    else bracketsMatch depth cs

/-- The characters of a filter, which may not be blank and whose brackets have to match. -/
def readBrackets (input : String) : Except QueryError (List Char) :=
  if !Text.isBlankText input && bracketsMatch 0 input.toList then .ok input.toList
  else .error (.bracketImbalance input)

/-! ### Frames -/

/-- What is being read. -/
inductive Enclosure where
  | filter
  /-- What an open bracket holds. -/
  | bracket (o : Opening)
deriving DecidableEq

/-- Something that is being read, with the tokens met in it so far. -/
structure Frame where
  enclosure : Enclosure
  tokens : List Token

/-- A frame with more tokens behind those it has. -/
def Frame.add (f : Frame) (tokens : List Token) : Frame := { f with tokens := f.tokens ++ tokens }

@[simp] theorem Frame.enclosure_add (f : Frame) (tokens : List Token) :
    (f.add tokens).enclosure = f.enclosure := rfl

@[simp] theorem Frame.add_nil (f : Frame) : f.add [] = f := by simp [Frame.add]

@[simp] theorem Frame.add_add (f : Frame) (tokens more : List Token) :
    (f.add tokens).add more = f.add (tokens ++ more) := by simp [Frame.add]

/-- The tokens that a frame leaves to the one around it at its closing bracket, with the text in
front of that bracket. -/
def Frame.close (input : String) (f : Frame) (run : List Char) : Except QueryError (List Token) :=
  match f.enclosure with
  | .filter => .error (.bracketImbalance input)
  | .bracket .splice => do
    let more ← Token.ofPieces input (run.splitOn ',')
    .ok (f.tokens ++ more)
  | .bracket (.group c) => do
    let more ← Token.ofPieces input (run.splitOn ',')
    .ok [.group c (f.tokens ++ more)]
  | .bracket (.values path operator) => .ok [.leaf path operator (.list (Token.listItems run))]

/-! ### The reader -/

/-- A filter that is read up to some character. -/
structure FilterReader where
  /-- What is open, the innermost first. -/
  frames : List Frame
  /-- The characters since the last bracket, the last one first. -/
  pending : List Char

namespace FilterReader

/-- Before the first character. -/
def start : FilterReader := ⟨[⟨.filter, []⟩], []⟩

/-- Read an opening bracket.  A list of values holds none. -/
def enter (input : String) (r : FilterReader) : Except QueryError FilterReader :=
  let run := r.pending.reverse
  match r.frames with
  | [] => .error (.bracketImbalance input)
  | top :: below =>
    match top.enclosure with
    | .bracket (.values _ _) => .error (.malformedToken (String.ofList (run ++ ['('])) input)
    | _ => do
      let before ← Token.ofPieces input (run.splitOn ',').dropLast
      let o ← Token.opening input run
      .ok ⟨⟨.bracket o, []⟩ :: top.add before :: below, []⟩

/-- Read a closing bracket. -/
def leave (input : String) (r : FilterReader) : Except QueryError FilterReader :=
  match r.frames with
  | top :: next :: below => do
    let here ← top.close input r.pending.reverse
    .ok ⟨next.add here :: below, []⟩
  | _ => .error (.bracketImbalance input)

/-- Read a character. -/
def step (input : String) (r : FilterReader) (c : Char) : Except QueryError FilterReader :=
  if c = '(' then r.enter input
  else if c = ')' then r.leave input
  else .ok { r with pending := c :: r.pending }

/-- Read characters one after the other. -/
def read (input : String) (r : FilterReader) (cs : List Char) : Except QueryError FilterReader :=
  cs.foldlM (step input) r

@[simp] theorem read_nil (input : String) (r : FilterReader) : r.read input [] = .ok r := rfl

theorem read_cons (input : String) (r : FilterReader) (c : Char) (cs : List Char) :
    r.read input (c :: cs) = (do let r ← r.step input c; r.read input cs) := rfl

theorem read_append (input : String) (r : FilterReader) (cs ds : List Char) :
    r.read input (cs ++ ds) = (do let r ← r.read input cs; r.read input ds) :=
  List.foldlM_append

/-- The tokens of a filter at its end. -/
def finish (input : String) (r : FilterReader) : Except QueryError (List Token) :=
  match r.frames with
  | [] => .error (.bracketImbalance input)
  | top :: below => do
    let more ← Token.ofPieces input (r.pending.reverse.splitOn ',')
    if below.isEmpty then .ok (top.tokens ++ more) else .error (.bracketImbalance input)

end FilterReader

/-- The tokens of a filter. -/
def readFilter (input : String) : Except QueryError (List Token) := do
  let cs ← readBrackets input
  let r ← FilterReader.start.read input cs
  r.finish input

end Retrieval
