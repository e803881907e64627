/-
# What the options of a page ask for

The options of a command line are texts, numbers and flags.  They reach the service as texts, which
are read again, and what is read is what was given: an option that is not given is as configured, and
none but an unusable limit is refused.
-/
import Retrieval.CommandLine.Run
import Retrieval.Proofs.Outcome
import Retrieval.Proofs.Parameters.Entries
import Retrieval.Proofs.Text

namespace Retrieval

/-! ### Values as texts -/

lemma toList_repr_int (n : Int) : n.repr.toList = integerChars n := by
  cases n with
  | ofNat n =>
    have h : (Int.ofNat n).repr = n.repr := rfl
    rw [h, Nat.toList_repr, integerChars, if_neg (by simp)]
    rfl
  | negSucc n =>
    have h : (Int.negSucc n).repr = "-" ++ (n + 1).repr := rfl
    rw [h, String.toList_append, Nat.toList_repr, integerChars, if_pos (Int.negSucc_lt_zero n)]
    rfl

lemma trimmed_integerChars (n : Int) : Text.Trimmed (integerChars n) := by
  have hplain : ∀ c ∈ integerChars n, Text.isBlank c = false :=
    fun c hc => (plain_of_mem_integerChars hc).2.2.2.2
  exact ⟨fun c hc => hplain c (List.mem_of_head? hc), fun c hc => hplain c (List.mem_of_getLast? hc)⟩

lemma trim_repr_int (n : Int) : Text.trim n.repr.toList = integerChars n := by
  rw [toList_repr_int, (trimmed_integerChars n).trim_eq]

namespace Parameters

/-- A natural number is read again unless it has more than 64 bits. -/
lemma count?_repr (n : Nat) :
    count? n.repr = if n < 0x10000000000000000 then some n else none := by
  have htrim : Text.trim n.repr.toList = Nat.toDigits 10 n := trim_repr_int n
  have hwrites := WritesNatural.digits (Nat.toDigits_ne_nil (n := n) (b := 10))
    fun _ => isDigit_of_mem_toDigits
  rw [ofDigits_toDigits] at hwrites
  rw [count?, htrim, readNatural?_eq_some_iff.2 hwrites, Option.filter_some]
  simp

lemma limit?_repr (n : Nat) : limit? n.repr = if 1 ≤ n ∧ n ≤ maxLimit then some n else none := by
  rw [limit?, count?_repr]
  split
  · simp [Option.filter_some]
  · next h =>
    have hlarge : ¬ (1 ≤ n ∧ n ≤ maxLimit) := by
      rw [maxLimit]
      omega
    rw [if_neg hlarge]
    rfl

lemma level?_repr {n : Int} (h : InInt64 n) : level? n.repr = some n := by
  rw [level?, Text.trimmed, trim_repr_int, readInt64?_integerChars h]

lemma flag?_ite (b : Bool) : flag? (if b then "true" else "false") = some b := by
  cases b <;> decide +kernel

/-! ### Entries that may be missing -/

variable {p q : Parameters} {xs ys : List (String × String)}

lemma setAll_append : p.setAll (xs ++ ys) = p.setAll xs >>= fun q => q.setAll ys := by
  induction xs generalizing p with
  | nil => rfl
  | cons x xs ih =>
    rw [List.cons_append, setAll, setAll]
    split
    · exact ih
    · rfl

lemma setAll_append_of_ok (h : p.setAll xs = .ok q) : p.setAll (xs ++ ys) = q.setAll ys := by
  rw [setAll_append, h]
  rfl

lemma setAll_append_of_error {e : Error} (h : p.setAll xs = .error e) :
    p.setAll (xs ++ ys) = .error e := by
  rw [setAll_append, h]
  rfl

lemma setAll_query (p : Parameters) (query : Option String) :
    p.setAll (query.map (("query", ·))).toList =
      .ok { p with query := query.elim p.query nonBlank? } := by
  cases query <;> simp [setAll, set?, withQuery]

lemma setAll_order (p : Parameters) (order : Option String) :
    p.setAll (order.map (("order", ·))).toList =
      .ok { p with order := order.elim p.order nonBlank? } := by
  cases order <;> simp [setAll, set?, withOrder]

lemma setAll_limit (p : Parameters) {limit : Option Nat}
    (h : ∀ n ∈ limit, 1 ≤ n ∧ n ≤ maxLimit) :
    p.setAll (limit.map fun n => ("limit", toString n)).toList =
      .ok { p with limit := limit.getD p.limit } := by
  cases limit with
  | none => rfl
  | some n => simp [setAll, set?, limit?_repr, h n rfl]

lemma setAll_limit_of_not (p : Parameters) {n : Nat} (h : ¬ (1 ≤ n ∧ n ≤ maxLimit)) :
    p.setAll ((some n).map fun n => ("limit", toString n)).toList =
      .error (.invalidParameter "limit" (toString n)) := by
  simp [setAll, set?, limit?_repr, h]

lemma setAll_maxLevel (p : Parameters) {maxLevel : Option Int} (h : ∀ n ∈ maxLevel, InInt64 n) :
    p.setAll (maxLevel.map fun n => ("max_level", toString n)).toList =
      .ok { p with maxLevel := maxLevel.getD p.maxLevel } := by
  cases maxLevel with
  | none => rfl
  | some n => simp [setAll, set?, level?_repr (h n rfl)]

lemma setAll_offset_distinct (p : Parameters) {offset : Nat} (h : offset < 0x10000000000000000)
    (distinct : Bool) :
    p.setAll [("offset", toString offset), ("distinct", if distinct then "true" else "false")] =
      .ok { p with offset, distinct } := by
  simp [setAll, set?, count?_repr, h, flag?_ite]

end Parameters

namespace CommandLine

/-! ### Options that a program can be given -/

/-- Whether the offset and the depth of a page are numbers of 64 bits. -/
structure PageRequest.InRange (page : PageRequest) : Prop where
  offset : page.offset < 0x10000000000000000
  maxLevel : ∀ n ∈ page.maxLevel, InInt64 n

/-- Whether the page of a command, if it has one, is given in numbers of 64 bits. -/
def Command.InRange : Command → Prop
  | render _ page => page.InRange
  | _ => True

namespace Reading

variable {r : Reading} {name : String}

lemma natural?_lt {n : Nat} (h : r.natural? name = some n) : n < 0x10000000000000000 := by
  obtain ⟨s, -, hs⟩ := Option.bind_eq_some_iff.1 h
  simpa using (Option.filter_eq_some_iff.1 hs).2

lemma inInt64_of_integer? {n : Int} (h : r.integer? name = some n) : InInt64 n := by
  obtain ⟨s, -, hs⟩ := Option.bind_eq_some_iff.1 h
  simpa [InInt64] using (Option.filter_eq_some_iff.1 hs).2

lemma inRange_page (r : Reading) : r.page.InRange where
  offset := by
    rw [page]
    cases h : r.natural? "offset" with
    | none => exact Nat.two_pow_pos 64
    | some n => exact natural?_lt h
  maxLevel _ h := inInt64_of_integer? h

lemma inRange_command? {name : CommandName} {command : Command}
    (h : r.command? name = some command) : command.InRange := by
  cases name with
  | filter | order =>
    obtain ⟨s, -, rfl⟩ := Option.map_eq_some_iff.1 h
    trivial
  | plan | count =>
    obtain rfl := Option.some.inj h
    trivial
  | render =>
    obtain rfl := Option.some.inj h
    exact r.inRange_page

end Reading

/-- The words of a command line give numbers of 64 bits only. -/
theorem Invocation.inRange_of_ofWords {words : List String} {i : Invocation}
    (h : Invocation.ofWords words = .ok i) : i.command.InRange := by
  rw [ofWords] at h
  obtain ⟨⟨before, next⟩, -, h⟩ := bind_eq_ok_iff.1 h
  cases next with
  | none =>
    obtain ⟨_, -, h⟩ := bind_eq_ok_iff.1 h
    cases h
  | some next =>
    obtain ⟨word, behind⟩ := next
    dsimp only at h
    split at h
    · cases h
    · next name hname =>
      obtain ⟨r, -, h⟩ := bind_eq_ok_iff.1 h
      split at h
      · cases h
      · next i' hi' =>
        obtain ⟨before', -, h⟩ := bind_eq_ok_iff.1 h
        cases h
        obtain ⟨entity, -, h⟩ := Option.bind_eq_some_iff.1 hi'
        obtain ⟨command, hcommand, h⟩ := Option.bind_eq_some_iff.1 h
        cases h
        exact Reading.inRange_command? hcommand

/-! ### The parameters of a page -/

/-- The parameters that the options of a page ask for: those that are not given are as configured,
a blank filter or order is none, and a limit has to be in range. -/
def PageRequest.asked (page : PageRequest) (c : Configuration) (query : Option String) :
    Except Error Parameters :=
  match page.limit.filter fun n => ¬ (1 ≤ n ∧ n ≤ Parameters.maxLimit) with
  | some n => .error (.invalidParameter "limit" (toString n))
  | none =>
    .ok
      { query := query.bind Parameters.nonBlank?
        order := page.order.bind Parameters.nonBlank?
        limit := page.limit.getD c.pageSize
        offset := page.offset
        distinct := page.distinct
        maxLevel := page.maxLevel.getD c.defaultMaxLevel }

/-- The options of a page come through as they are given. -/
lemma ofEntries_page {page : PageRequest} (h : page.InRange) (c : Configuration) (s : Source) :
    Parameters.ofEntries c (s.entries ++ page.entries) = page.asked c s.query := by
  rw [Parameters.ofEntries, Source.entries, PageRequest.entries, PageRequest.asked]
  simp only [List.append_assoc]
  refine (Parameters.setAll_append_of_ok (Parameters.setAll_query _ _)).trans ?_
  refine (Parameters.setAll_append_of_ok (Parameters.setAll_order _ _)).trans ?_
  dsimp only [Parameters.defaults]
  cases hlimit : page.limit.filter fun n => ¬ (1 ≤ n ∧ n ≤ Parameters.maxLimit) with
  | some n =>
    obtain ⟨hgiven, hnot⟩ := Option.filter_eq_some_iff.1 hlimit
    rw [hgiven]
    exact Parameters.setAll_append_of_error
      (Parameters.setAll_limit_of_not _ (of_decide_eq_true hnot))
  | none =>
    have hall : ∀ n ∈ page.limit, 1 ≤ n ∧ n ≤ Parameters.maxLimit := by
      simpa [Option.filter_eq_none_iff, Nat.one_le_iff_ne_zero] using hlimit
    refine (Parameters.setAll_append_of_ok (Parameters.setAll_limit _ hall)).trans ?_
    refine (Parameters.setAll_append_of_ok (Parameters.setAll_maxLevel _ h.maxLevel)).trans ?_
    refine (Parameters.setAll_offset_distinct _ h.offset _).trans ?_
    -- nothing is said about the filter and the order before
    dsimp only
    cases s.query <;> cases page.order <;> rfl

/-- Counting leaves everything but the filter as configured. -/
lemma ofEntries_count (c : Configuration) (s : Source) :
    Parameters.ofEntries c s.entries =
      .ok { Parameters.defaults c with query := s.query.bind Parameters.nonBlank? } := by
  rw [Parameters.ofEntries, Source.entries, Parameters.setAll_query]
  cases s.query <;> rfl

end CommandLine

end Retrieval
