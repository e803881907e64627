/-
# Reading dates and times of day

The strict form of an instant is a case of the loose one as far as date and time of day are
concerned.  So every text of an instant is read in one way: a date, a time of day, a fraction of a
second and an offset from universal time, which may be missing.
-/
import Retrieval.Proofs.Calendar.Alignment

namespace Retrieval

/-- A number is below the power of ten of its digits. -/
lemma ofDigits_lt {d : List Char} (hd : ∀ c ∈ d, isDigit c = true) :
    ofDigits d < 10 ^ d.length := by
  -- the digits before these may have been read already, as `m`
  have hread : ∀ m, d.foldl (fun n c => n * 10 + (c.toNat - '0'.toNat)) m <
      (m + 1) * 10 ^ d.length := by
    induction d with
    | nil => simp
    | cons c d ih =>
      intro m
      rw [List.forall_mem_cons, isDigit_iff] at hd
      have hzero : '0'.toNat = 48 := rfl
      refine (ih hd.2 _).trans_le ?_
      rw [List.length_cons, Nat.pow_succ', ← Nat.mul_assoc]
      refine Nat.mul_le_mul_right _ ?_
      dsimp only
      omega
  have hlt := hread 0
  rwa [Nat.zero_add, Nat.one_mul] at hlt

namespace Calendar

variable {cs rest : List Char} {c : Char} {n least most : Nat}

/-! ### Numbers -/

lemma takeNumber?_mono {least' : Nat} (h : takeNumber? least most cs = some (n, rest))
    (hle : least' ≤ least) : takeNumber? least' most cs = some (n, rest) := by
  simp only [takeNumber?] at h ⊢
  split at h
  · cases h
  · rw [if_neg (by omega), h]

/-- A number begins with a digit. -/
lemma exists_cons_of_takeNumber? (h : takeNumber? (least + 1) most cs = some (n, rest)) :
    ∃ c cs', cs = c :: cs' ∧ isDigit c = true := by
  cases cs with
  | nil => simp [takeNumber?] at h
  | cons c cs =>
    refine ⟨c, cs, rfl, ?_⟩
    by_contra hc
    simp [takeNumber?, hc] at h

/-- No blank space stands in front of a number. -/
lemma trimStart_of_takeNumber? (h : takeNumber? (least + 1) most cs = some (n, rest)) :
    Text.trimStart cs = cs := by
  obtain ⟨c, cs, rfl, hc⟩ := exists_cons_of_takeNumber? h
  exact List.dropWhile_cons_of_neg (by simp [isBlank_of_isDigit hc])

lemma looseNumber?_of_takeNumber? (h : takeNumber? 2 2 cs = some (n, rest)) :
    looseNumber? cs = some (n, rest) := by
  rw [looseNumber?, trimStart_of_takeNumber? h]
  exact takeNumber?_mono h (by decide)

/-! ### Years -/

/-- A year is written as a sign and a number of any width, or as a number of up to four digits. -/
lemma cases_of_looseYear? {cs' : List Char} {year : Int} (h : looseYear? cs = some (year, rest))
    (hcs : Text.trimStart cs = c :: cs') :
    (c = '-' ∨ c = '+') ∧ (∃ n : Nat, takeNumber? 1 cs'.length cs' = some (n, rest) ∧
      year = if c = '-' then -(n : Int) else n) ∨
    ¬ (c = '-' ∨ c = '+') ∧ ∃ n : Nat, takeNumber? 1 4 (c :: cs') = some (n, rest) ∧ year = n := by
  rw [looseYear?, hcs] at h
  split at h
  · next heq =>
    cases heq
    obtain ⟨⟨n, _⟩, hn, h⟩ := Option.map_eq_some_iff.1 h
    cases h
    exact .inl ⟨.inl rfl, n, hn, rfl⟩
  · next heq =>
    cases heq
    obtain ⟨⟨n, _⟩, hn, h⟩ := Option.map_eq_some_iff.1 h
    cases h
    exact .inl ⟨.inr rfl, n, hn, rfl⟩
  · next hminus hplus =>
    obtain ⟨⟨n, _⟩, hn, h⟩ := Option.map_eq_some_iff.1 h
    cases h
    refine .inr ⟨?_, n, hn, rfl⟩
    rintro (rfl | rfl)
    · exact hminus _ rfl
    · exact hplus _ rfl

/-- A year is written with some characters. -/
lemma exists_cons_of_looseYear? {year : Int} (h : looseYear? cs = some (year, rest)) :
    ∃ c cs', Text.trimStart cs = c :: cs' := by
  cases htrim : Text.trimStart cs with
  | nil =>
    rw [looseYear?, htrim] at h
    cases h
  | cons c cs' => exact ⟨c, cs', rfl⟩

/-- A number of four digits is a year in the loose form as well. -/
lemma looseYear?_of_takeNumber? (h : takeNumber? 4 4 cs = some (n, rest)) :
    looseYear? cs = some ((n : Int), rest) := by
  have htrim := trimStart_of_takeNumber? h
  obtain ⟨c, cs, rfl, hc⟩ := exists_cons_of_takeNumber? h
  rw [looseYear?, htrim]
  split
  · next heq =>
    cases heq
    cases hc
  · next heq =>
    cases heq
    cases hc
  · rw [takeNumber?_mono h (by decide)]
    rfl

/-! ### Dates -/

variable {date : Date}

lemma whole?_eq_some_iff {α : Type} {r : Option (α × List Char)} {a : α} :
    whole? r = some a ↔ r = some (a, []) := by
  cases r with
  | none => simp [whole?]
  | some read => simp [whole?, Prod.ext_iff, and_comm]

/-- The parts of a date. -/
lemma exists_of_looseDate? (h : looseDate? cs = some (date, rest)) :
    ∃ behindYear month behindMonth day, looseYear? cs = some (date.year, behindYear) ∧
      takeChar? '-' behindYear = some month ∧ looseNumber? month = some (date.month, behindMonth) ∧
      takeChar? '-' behindMonth = some day ∧ looseNumber? day = some (date.day, rest) := by
  obtain ⟨⟨year, c₁⟩, hyear, h⟩ := Option.bind_eq_some_iff.1 h
  obtain ⟨c₂, hhyphen, h⟩ := Option.bind_eq_some_iff.1 h
  obtain ⟨⟨month, c₃⟩, hmonth, h⟩ := Option.bind_eq_some_iff.1 h
  obtain ⟨c₄, hhyphen', h⟩ := Option.bind_eq_some_iff.1 h
  obtain ⟨⟨day, c₅⟩, hday, h⟩ := Option.bind_eq_some_iff.1 h
  dsimp only at h
  split at h
  · obtain ⟨date', hdate, h⟩ := Option.bind_eq_some_iff.1 h
    cases h
    rw [Date.of?] at hdate
    split at hdate
    · cases hdate
      exact ⟨c₁, c₂, c₃, c₄, hyear, hhyphen, hmonth, hhyphen', hday⟩
    · cases hdate
  · cases h

lemma looseDate?_of_parts {year : Int} {month day : Nat} {c₁ c₂ c₃ c₄ : List Char}
    (hyear : looseYear? cs = some (year, c₁)) (hhyphen : takeChar? '-' c₁ = some c₂)
    (hmonth : looseNumber? c₂ = some (month, c₃)) (hhyphen' : takeChar? '-' c₃ = some c₄)
    (hday : looseNumber? c₄ = some (day, rest)) (hrange : yearInRange year = true)
    (hdate : Date.of? year month day = some date) : looseDate? cs = some (date, rest) := by
  simp only [looseDate?, hyear, hhyphen, hmonth, hhyphen', hday, hrange, hdate, bind,
    Option.bind_some, if_true]

/-! ### Times of day -/

/-- A text behind a date without the letter that may separate a time of day from it. -/
def behindSeparator : List Char → List Char
  | 'T' :: cs | 't' :: cs => cs
  | cs => cs

lemma behindSeparator_cons (hupper : c ≠ 'T') (hlower : c ≠ 't') (cs : List Char) :
    behindSeparator (c :: cs) = c :: cs := by
  rw [behindSeparator.eq_def]
  split
  · next heq => exact absurd (List.cons.inj heq).1 hupper
  · next heq => exact absurd (List.cons.inj heq).1 hlower
  · rfl

lemma behindSeparator_of_isDigit (h : isDigit c = true) (cs : List Char) :
    behindSeparator (c :: cs) = c :: cs := by
  refine behindSeparator_cons ?_ ?_ cs <;>
  · rintro rfl
    cases h

/-- The date, the minute of the day and the second that a text begins with, in whatever form. -/
def clock? (cs : List Char) : Option ((Date × Nat × Nat) × List Char) := do
  let (date, cs) ← looseDate? cs
  let (hour, cs) ← looseNumber? (behindSeparator cs)
  let cs ← takeChar? ':' cs
  let (minute, cs) ← looseNumber? cs
  let cs ← takeChar? ':' cs
  let (second, cs) ← looseNumber? cs
  if hour < 24 ∧ minute < 60 then some ((date, hour * 60 + minute, second), cs) else none

variable {minute second nanosecond : Nat} {time : List Char}

/-- The parts of a date and a time of day. -/
lemma exists_of_clock? (h : clock? cs = some ((date, minute, second), rest)) :
    ∃ behindDate hour behindHour minutes minute' behindMinute seconds,
      looseDate? cs = some (date, behindDate) ∧
      looseNumber? (behindSeparator behindDate) = some (hour, behindHour) ∧
      takeChar? ':' behindHour = some minutes ∧
      looseNumber? minutes = some (minute', behindMinute) ∧
      takeChar? ':' behindMinute = some seconds ∧ looseNumber? seconds = some (second, rest) ∧
      minute' < 60 ∧ minute = hour * 60 + minute' := by
  obtain ⟨⟨date', c₁⟩, hdate, h⟩ := Option.bind_eq_some_iff.1 h
  obtain ⟨⟨hour, c₂⟩, hhour, h⟩ := Option.bind_eq_some_iff.1 h
  obtain ⟨c₃, hcolon, h⟩ := Option.bind_eq_some_iff.1 h
  obtain ⟨⟨minute', c₄⟩, hminute, h⟩ := Option.bind_eq_some_iff.1 h
  obtain ⟨c₅, hcolon', h⟩ := Option.bind_eq_some_iff.1 h
  obtain ⟨⟨second', c₆⟩, hsecond, h⟩ := Option.bind_eq_some_iff.1 h
  dsimp only at h
  split at h
  · next hbounds =>
    cases h
    exact ⟨c₁, hour, c₂, c₃, minute', c₄, c₅, hdate, hhour, hcolon, hminute, hcolon', hsecond,
      hbounds.2, rfl⟩
  · cases h

/-- Date and time of day are read from a text whatever the form of its numbers. -/
lemma exists_clock?_of_takeTime? {number? : List Char → Option (Nat × List Char)}
    (hnumber : ∀ cs n rest, number? cs = some (n, rest) → looseNumber? cs = some (n, rest))
    {behind : List Char} (hdate : looseDate? cs = some (date, behind))
    (hbehind : looseNumber? (behindSeparator behind) = looseNumber? time)
    (htime : takeTime? number? time = some ((minute, second, nanosecond), rest)) :
    ∃ tail, clock? cs = some ((date, minute, second), tail) ∧
      takeFraction? tail = some (nanosecond, rest) ∧ minute < 1440 := by
  obtain ⟨⟨hour, c₁⟩, hhour, h⟩ := Option.bind_eq_some_iff.1 htime
  obtain ⟨c₂, hcolon, h⟩ := Option.bind_eq_some_iff.1 h
  obtain ⟨⟨minute', c₃⟩, hminute, h⟩ := Option.bind_eq_some_iff.1 h
  obtain ⟨c₄, hcolon', h⟩ := Option.bind_eq_some_iff.1 h
  obtain ⟨⟨second', tail⟩, hsecond, h⟩ := Option.bind_eq_some_iff.1 h
  obtain ⟨⟨nanosecond', rest'⟩, hfraction, h⟩ := Option.bind_eq_some_iff.1 h
  dsimp only at h hcolon hminute hcolon' hsecond hfraction
  split at h
  · next hbounds =>
    cases h
    refine ⟨tail, ?_, hfraction, by omega⟩
    simp only [clock?, hdate, hbehind, hnumber _ _ _ hhour, hcolon, hnumber _ _ _ hminute, hcolon',
      hnumber _ _ _ hsecond, bind, Option.bind_some]
    exact if_pos ⟨hbounds.1, hbounds.2.1⟩
  · cases h

/-! ### Offsets -/

/-- The offset from universal time that a text begins with, none if it begins with no offset. -/
def leadingOffset (cs : List Char) : Int := (takeOffset? cs).elim 0 Prod.fst

lemma leadingOffset_of_takeOffset? {offset : Int} (h : takeOffset? cs = some (offset, rest)) :
    leadingOffset cs = offset := by
  rw [leadingOffset, h, Option.elim_some]

/-- Whether a text is an offset or empty. -/
def IsOffset (cs : List Char) : Prop := cs = [] ∨ ∃ offset, takeOffset? cs = some (offset, [])

/-- The hours and minutes behind the sign of an offset. -/
lemma exists_of_offset (ahead : Bool) {offset : Int}
    (h : (do
      let (hour, cs) ← takeNumber? 2 2 cs
      let cs ← takeChar? ':' cs
      let (minute, cs) ← takeNumber? 2 2 cs
      if hour < 24 ∧ minute < 60 then
        let n : Int := hour * 60 + minute
        some (if ahead then n else -n, cs)
      else none) = some (offset, rest)) :
    ∃ hour behindHour behindColon minute,
      takeNumber? 2 2 cs = some (hour, behindHour) ∧ takeChar? ':' behindHour = some behindColon ∧
      takeNumber? 2 2 behindColon = some (minute, rest) ∧ hour < 24 ∧ minute < 60 ∧
      offset = if ahead then (hour * 60 + minute : Int) else -(hour * 60 + minute) := by
  obtain ⟨⟨hour, c₁⟩, hhour, h⟩ := Option.bind_eq_some_iff.1 h
  obtain ⟨c₂, hcolon, h⟩ := Option.bind_eq_some_iff.1 h
  obtain ⟨⟨minute, c₃⟩, hminute, h⟩ := Option.bind_eq_some_iff.1 h
  dsimp only at h
  split at h
  · next hbounds =>
    cases h
    exact ⟨hour, c₁, c₂, minute, hhour, hcolon, hminute, hbounds.1, hbounds.2, rfl⟩
  · cases h

/-- An offset is written as `Z` or as a sign, hours and minutes. -/
lemma cases_of_takeOffset? {offset : Int} (h : takeOffset? (c :: cs) = some (offset, rest)) :
    (c = 'Z' ∨ c = 'z') ∧ offset = 0 ∧ rest = cs ∨
    (c = '+' ∨ c = '-' ∨ c = '\u2212') ∧ ∃ hour behindHour behindColon minute,
      takeNumber? 2 2 cs = some (hour, behindHour) ∧ takeChar? ':' behindHour = some behindColon ∧
      takeNumber? 2 2 behindColon = some (minute, rest) ∧ hour < 24 ∧ minute < 60 ∧
      offset = if c = '+' then (hour * 60 + minute : Int) else -(hour * 60 + minute) := by
  rw [takeOffset?.eq_def] at h
  split at h
  · next heq =>
    cases heq
    cases h
    exact .inl ⟨.inl rfl, rfl, rfl⟩
  · next heq =>
    cases heq
    cases h
    exact .inl ⟨.inr rfl, rfl, rfl⟩
  · next heq =>
    cases heq
    refine .inr ?_
    split at h
    · next hplus =>
      obtain ⟨hour, c₁, c₂, minute, hread⟩ := exists_of_offset true h
      exact ⟨.inl hplus, hour, c₁, c₂, minute, by simpa [hplus] using hread⟩
    · next hplus =>
      split at h
      · next hminus =>
        obtain ⟨hour, c₁, c₂, minute, hread⟩ := exists_of_offset false h
        exact ⟨.inr hminus, hour, c₁, c₂, minute, by simpa [hplus] using hread⟩
      · cases h
  · next heq => cases heq

lemma natAbs_leadingOffset (cs : List Char) : (leadingOffset cs).natAbs < 1440 := by
  rw [leadingOffset]
  cases h : takeOffset? cs with
  | none => decide
  | some read =>
    obtain ⟨offset, rest⟩ := read
    cases cs with
    | nil => cases h
    | cons c cs =>
      rcases cases_of_takeOffset? h with ⟨-, rfl, -⟩ | ⟨-, hour, _, _, minute, -, -, -, hh, hm, rfl⟩
      · exact Nat.zero_lt_succ _
      · rw [Option.elim_some]
        split <;> omega

/-! ### Instants -/

/-- What is read from the text of an instant. -/
structure Reading where
  date : Date
  minute : Nat
  second : Nat
  nanosecond : Nat
  /-- What stands behind the seconds. -/
  tail : List Char
  /-- What stands behind the fraction of a second. -/
  zone : List Char

namespace Reading

/-- The instant of which a date and a time of day are read. -/
def instant (r : Reading) : Instant :=
  .ofLocal r.date r.minute r.second r.nanosecond (leadingOffset r.zone)

/-- Whether something is read from a text, to its end. -/
structure Of (r : Reading) (cs : List Char) : Prop where
  clock : clock? cs = some ((r.date, r.minute, r.second), r.tail)
  fraction : takeFraction? r.tail = some (r.nanosecond, r.zone)
  bound : r.minute < 1440
  offset : IsOffset r.zone

/-- The time of day and the offset behind the date of the strict form. -/
lemma exists_of_strict {x : Instant} {behind : List Char}
    (hdate : looseDate? cs = some (date, behind))
    (hbehind : looseNumber? (behindSeparator behind) = looseNumber? time)
    (h : (do
      let ((minute, second, nanosecond), cs) ← takeTime? (takeNumber? 2 2) time
      let (offset, cs) ← takeOffset? cs
      if cs.isEmpty then some (Instant.ofLocal date minute second nanosecond offset) else none) =
        some x) :
    ∃ r : Reading, r.Of cs ∧ r.instant = x := by
  obtain ⟨⟨⟨minute, second, nanosecond⟩, rest⟩, htime, h⟩ := Option.bind_eq_some_iff.1 h
  obtain ⟨⟨offset, end'⟩, hoffset, h⟩ := Option.bind_eq_some_iff.1 h
  dsimp only at h hoffset
  split at h
  · next hempty =>
    rw [List.isEmpty_iff] at hempty
    subst hempty
    obtain ⟨tail, hclock, hfraction, hbound⟩ := exists_clock?_of_takeTime?
      (fun _ _ _ => looseNumber?_of_takeNumber?) hdate hbehind htime
    refine ⟨⟨date, minute, second, nanosecond, tail, rest⟩,
      ⟨hclock, hfraction, hbound, .inr ⟨offset, hoffset⟩⟩, ?_⟩
    rw [instant, leadingOffset, hoffset]
    exact Option.some.inj h
  · cases h

/-- The strict form is read like the loose one. -/
lemma exists_of_strict? {x : Instant} (h : Instant.strict? cs = some x) :
    ∃ r : Reading, r.Of cs ∧ r.instant = x := by
  obtain ⟨⟨year, c₁⟩, hyear, h⟩ := Option.bind_eq_some_iff.1 h
  obtain ⟨c₂, hhyphen, h⟩ := Option.bind_eq_some_iff.1 h
  obtain ⟨⟨month, c₃⟩, hmonth, h⟩ := Option.bind_eq_some_iff.1 h
  obtain ⟨c₄, hhyphen', h⟩ := Option.bind_eq_some_iff.1 h
  obtain ⟨⟨day, behind⟩, hday, h⟩ := Option.bind_eq_some_iff.1 h
  obtain ⟨date, hdate, h⟩ := Option.bind_eq_some_iff.1 h
  have hrange : yearInRange year = true := by
    obtain ⟨d, -, rfl, hd, -, hlength⟩ := exists_digits_of_takeNumber? hyear
    have hlt := (ofDigits_lt hd).trans_le
      (Nat.pow_le_pow_right (by decide) (show d.length ≤ 4 by omega))
    simp only [yearInRange, Bool.and_eq_true, decide_eq_true_eq]
    omega
  have hloose : looseDate? cs = some (date, behind) :=
    looseDate?_of_parts (looseYear?_of_takeNumber? hyear) hhyphen
      (looseNumber?_of_takeNumber? hmonth) hhyphen' (looseNumber?_of_takeNumber? hday) hrange hdate
  -- a letter or a blank separates the time of day
  split at h
  · exact exists_of_strict hloose rfl h
  · exact exists_of_strict hloose rfl h
  · refine exists_of_strict hloose ?_ h
    rfl
  · cases h

/-- A loose form is a date, what separates it from the time of day, and this time. -/
lemma exists_of_loose? {x : Instant} {separator? : List Char → Option (List Char)}
    (hseparator : ∀ behind time n rest, separator? behind = some time →
      looseNumber? time = some (n, rest) →
        looseNumber? (behindSeparator behind) = looseNumber? time)
    (h : Instant.loose? separator? cs = some x) : ∃ r : Reading, r.Of cs ∧ r.instant = x := by
  obtain ⟨⟨date, behind⟩, hdate, h⟩ := Option.bind_eq_some_iff.1 h
  obtain ⟨time, htime, h⟩ := Option.bind_eq_some_iff.1 h
  obtain ⟨⟨minute, second, nanosecond⟩, hwhole, h⟩ := Option.bind_eq_some_iff.1 h
  obtain ⟨⟨_, rest⟩, hread, hempty⟩ := Option.bind_eq_some_iff.1 hwhole
  obtain ⟨⟨hour, _⟩, hhour, -⟩ := Option.bind_eq_some_iff.1 hread
  dsimp only at hempty
  split at hempty
  · next hnil =>
    rw [List.isEmpty_iff] at hnil
    subst hnil
    cases hempty
    obtain ⟨tail, hclock, hfraction, hbound⟩ := exists_clock?_of_takeTime? (fun _ _ _ => id) hdate
      (hseparator _ _ _ _ htime hhour) hread
    refine ⟨⟨date, minute, second, nanosecond, tail, []⟩,
      ⟨hclock, hfraction, hbound, .inl rfl⟩, ?_⟩
    cases h
    exact Instant.ofLocal_zero hbound
  · cases hempty

/-- No letter stands in front of a number. -/
lemma behindSeparator_of_looseNumber? (h : looseNumber? cs = some (n, rest)) :
    behindSeparator cs = cs := by
  have hletter : ∀ {c}, Text.isBlank c = false → isDigit c = false → ∀ cs,
      looseNumber? (c :: cs) ≠ some (n, rest) := by
    intro c hblank hdigit cs hread
    rw [looseNumber?, Text.trimStart, List.dropWhile_cons_of_neg (by simp [hblank])] at hread
    obtain ⟨_, _, hcons, hc⟩ := exists_cons_of_takeNumber? hread
    cases hcons
    rw [hdigit] at hc
    cases hc
  rw [behindSeparator.eq_def]
  split
  · exact absurd h (hletter (by decide) (by decide) _)
  · exact absurd h (hletter (by decide) (by decide) _)
  · rfl

/-- The text of an instant is read as a date, a time of day, a fraction and an offset. -/
lemma exists_of_ofText? {s : String} {x : Instant} (h : Instant.ofText? s = some x) :
    ∃ r : Reading, r.Of s.toList ∧ r.instant = x := by
  rw [Instant.ofText?, Option.or_eq_some_iff] at h
  rcases h with h | ⟨-, h⟩
  · exact exists_of_strict? h
  · rw [Option.or_eq_some_iff] at h
    rcases h with h | ⟨-, h⟩
    · refine exists_of_loose? (fun behind time n rest hseparator _ => ?_) h
      rw [takeChar?_eq_some_iff.1 hseparator]
      rfl
    · refine exists_of_loose? (fun behind time n rest hseparator hnumber => ?_) h
      cases hseparator
      rw [behindSeparator_of_looseNumber? hnumber]

end Reading

end Calendar

end Retrieval
