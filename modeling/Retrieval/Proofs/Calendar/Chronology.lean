/-
# Dates and instants in the order of their texts

An operand that is a date or an instant keeps its text, and comparing such operands orders the
texts.  Where the texts are written alike, this is the order in time: the first digits in which they
differ are of the most significant part in which the dates and times of day differ.
-/
import Retrieval.Filter.Coercion
import Retrieval.Proofs.Calendar.Reading
import Retrieval.Proofs.Json.Compare

namespace Retrieval

namespace Calendar

variable {fraction : Bool} {s t s' t' : List Char}

/-! ### Years and dates -/

/-- Years that are the same or not negative are in the order of their texts. -/
lemma settled_looseYear? {a b : Int} (h : aligned false s t = true)
    (hyears : a = b ∨ 0 ≤ a ∧ 0 ≤ b) (hs : looseYear? s = some (a, s'))
    (ht : looseYear? t = some (b, t')) : Settled false s t (compare a b) s' t' := by
  refine (settled_trimStart h).trans fun h => ?_
  obtain ⟨c, u, hu⟩ := exists_cons_of_looseYear? hs
  obtain ⟨d, v, hv⟩ := exists_cons_of_looseYear? ht
  rw [hu, hv] at h ⊢
  rcases cases_of_looseYear? hs hu with ⟨hsign, m, hm, rfl⟩ | ⟨hsign, m, hm, rfl⟩
  · -- a sign is the same in both texts
    have hc : isDigit c = false ∧ c ≠ '.' := by
      rcases hsign with rfl | rfl <;> decide
    obtain ⟨_, hcons, -⟩ := exists_cons_of_aligned hc.1 h
    cases hcons
    rcases cases_of_looseYear? ht hv with ⟨-, n, hn, rfl⟩ | ⟨hsign', -⟩
    · have hnumber := (settled_cons_of_ne hc.2 h).trans
        fun h => settled_takeNumber?_unbounded h hm hn
      have hyear : compare (if c = '-' then -(m : Int) else m) (if c = '-' then -(n : Int) else n) =
          compare m n := by
        split at hyears
        · obtain rfl : m = n := by omega
          rw [Std.ReflOrd.compare_self, Std.ReflOrd.compare_self]
        · next hplus => rw [if_neg hplus, if_neg hplus, compare_natCast]
      rw [hyear]
      exact hnumber
    · exact absurd hsign hsign'
  · rcases cases_of_looseYear? ht hv with ⟨hsign', -⟩ | ⟨-, n, hn, rfl⟩
    · rcases eq_or_isDigit_of_aligned h with rfl | ⟨-, hdigit⟩
      · exact absurd hsign' hsign
      · rcases hsign' with rfl | rfl <;> cases hdigit
    · rw [compare_natCast]
      exact settled_takeNumber? h hm hn

lemma settled_looseDate? {a b : Date} (h : aligned false s t = true)
    (hyears : a.year = b.year ∨ 0 ≤ a.year ∧ 0 ≤ b.year) (hs : looseDate? s = some (a, s'))
    (ht : looseDate? t = some (b, t')) : Settled false s t (a.compare b) s' t' := by
  obtain ⟨s₁, s₂, s₃, s₄, hyear, hhyphen, hmonth, hhyphen', hday⟩ := exists_of_looseDate? hs
  obtain ⟨t₁, t₂, t₃, t₄, kyear, khyphen, kmonth, khyphen', kday⟩ := exists_of_looseDate? ht
  have hyear := settled_looseYear? h hyears hyear kyear
  have hmonth := hyear.trans fun h => (settled_takeChar? (by decide) h hhyphen khyphen).trans
    fun h => settled_looseNumber? h hmonth kmonth
  have hday := hmonth.trans fun h => (settled_takeChar? (by decide) h hhyphen' khyphen').trans
    fun h => settled_looseNumber? h hday kday
  simpa [Date.compare, Ordering.then_assoc] using hday

/-! ### Times of day -/

lemma settled_behindSeparator (h : aligned fraction s t = true) :
    Settled fraction s t .eq (behindSeparator s) (behindSeparator t) := by
  cases s with
  | nil =>
    cases t with
    | nil => exact .refl rfl
    | cons d t => cases h
  | cons c s =>
    cases t with
    | nil => cases h
    | cons d t =>
      rcases eq_or_isDigit_of_aligned h with rfl | ⟨hc, hd⟩
      · by_cases hupper : c = 'T'
        · subst hupper
          exact settled_cons_of_ne (by decide) h
        · by_cases hlower : c = 't'
          · subst hlower
            exact settled_cons_of_ne (by decide) h
          · rw [behindSeparator_cons hupper hlower, behindSeparator_cons hupper hlower]
            exact .refl h
      · rw [behindSeparator_of_isDigit hc, behindSeparator_of_isDigit hd]
        exact .refl h

lemma settled_clock? {a b : Date} {minute minute' second second' : Nat}
    (h : aligned false s t = true) (hyears : a.year = b.year ∨ 0 ≤ a.year ∧ 0 ≤ b.year)
    (hs : clock? s = some ((a, minute, second), s'))
    (ht : clock? t = some ((b, minute', second'), t')) :
    Settled false s t
      ((a.compare b).then ((compare minute minute').then (compare second second'))) s' t' := by
  obtain ⟨_, _, _, _, _, _, _, hdate, hhour, hcolon, hminute, hcolon', hsecond, hbound, rfl⟩ :=
    exists_of_clock? hs
  obtain ⟨_, _, _, _, _, _, _, kdate, khour, kcolon, kminute, kcolon', ksecond, kbound, rfl⟩ :=
    exists_of_clock? ht
  have hdate := settled_looseDate? h hyears hdate kdate
  have hhour := hdate.trans fun h => (settled_behindSeparator h).trans
    fun h => settled_looseNumber? h hhour khour
  have hminute := hhour.trans fun h => (settled_takeChar? (by decide) h hcolon kcolon).trans
    fun h => settled_looseNumber? h hminute kminute
  have hsecond := hminute.trans fun h => (settled_takeChar? (by decide) h hcolon' kcolon').trans
    fun h => settled_looseNumber? h hsecond ksecond
  rw [compare_mul_add_nat _ _ hbound kbound]
  simpa [Ordering.then_assoc] using hsecond

/-! ### Fractions -/

/-- The digits of the fraction that a text begins with. -/
def fractionDigits : List Char → List Char
  | '.' :: cs => cs.takeWhile isDigit
  | _ => []

/-- As many digits as are asked for, the missing ones being zeros. -/
def padded (n : Nat) (digits : List Char) : List Char :=
  (digits ++ List.replicate (n - digits.length) '0').take n

lemma padded_cons (n : Nat) (c : Char) (digits : List Char) :
    padded (n + 1) (c :: digits) = c :: padded n digits := by
  simp [padded]

/-- Digits of fractions settle the order if they do not agree as far as they are read. -/
lemma settled_padded {d e : List Char} (n : Nat) (h : aligned true (d ++ s) (e ++ t) = true)
    (hd : ∀ c ∈ d, isDigit c = true) (he : ∀ c ∈ e, isDigit c = true)
    (hs : ∀ c ∈ s.head?, isDigit c = false) (ht : ∀ c ∈ t.head?, isDigit c = false)
    (hagree : d.take n = e.take n → d = e) :
    Settled true (d ++ s) (e ++ t) (compare (padded n d) (padded n e)) s t := by
  by_cases heq : d = e
  · subst heq
    rw [Std.ReflOrd.compare_self]
    exact settled_digits_self h hd
  induction d generalizing e n with
  | nil =>
    -- where one fraction ends, the other one has a digit
    obtain ⟨c, e, rfl⟩ := List.exists_cons_of_ne_nil (Ne.symm heq)
    cases s with
    | nil => cases h
    | cons b s =>
      obtain ⟨_, hcons, -⟩ := exists_cons_of_aligned (hs b rfl) h
      cases hcons
      exact absurd (he c (by simp)) (by simp [hs c rfl])
  | cons c d ih =>
    cases e with
    | nil =>
      cases t with
      | nil => cases h
      | cons b t =>
        rcases eq_or_isDigit_of_aligned h with rfl | ⟨-, hb⟩
        · exact absurd (hd c (by simp)) (by simp [ht c rfl])
        · exact absurd hb (by simp [ht b rfl])
    | cons b e =>
      rw [List.forall_mem_cons] at hd he
      cases n with
      | zero => exact absurd (hagree rfl) heq
      | succ n =>
        rw [padded_cons, padded_cons]
        by_cases hcb : c = b
        · subst hcb
          have hsettled := (settled_cons h).trans fun h => ih n h hd.2 he.2
            (fun hagree' => List.tail_eq_of_cons_eq (hagree (by simp [hagree'])))
            (fun heq' => heq (by rw [heq']))
          rw [List.compare_cons_cons, Std.ReflOrd.compare_self]
          exact hsettled
        · exact settled_of_ne hcb _ _

lemma length_padded (n : Nat) (digits : List Char) : (padded n digits).length = n := by
  simp [padded]
  omega

lemma isDigit_of_mem_padded {n : Nat} {digits : List Char} (h : ∀ c ∈ digits, isDigit c = true) :
    ∀ c ∈ padded n digits, isDigit c = true := by
  intro c hc
  rcases List.mem_append.1 (List.mem_of_mem_take hc) with hc | hc
  · exact h c hc
  · rw [List.eq_of_mem_replicate hc]
    rfl

/-- A fraction is a point and digits, of which nine are read, or nothing. -/
lemma cases_of_takeFraction? {n : Nat} (h : takeFraction? s = some (n, s')) :
    (∃ digits, s = '.' :: (digits ++ s') ∧ fractionDigits s = digits ∧
      n = ofDigits (padded 9 digits) ∧ (∀ c ∈ digits, isDigit c = true) ∧
      ∀ c ∈ s'.head?, isDigit c = false) ∨
    s.head? ≠ some '.' ∧ n = 0 ∧ s' = s := by
  rw [takeFraction?.eq_def] at h
  split at h
  · next cs =>
    dsimp only at h
    split at h
    · cases h
    · cases h
      have hsplit : cs.takeWhile isDigit ++ cs.drop (cs.takeWhile isDigit).length = cs :=
        List.prefix_iff_eq_append.1 (List.takeWhile_prefix isDigit)
      have hdrop : cs.drop (cs.takeWhile isDigit).length = cs.dropWhile isDigit :=
        List.append_cancel_left (hsplit.trans List.takeWhile_append_dropWhile.symm)
      refine .inl ⟨cs.takeWhile isDigit, by rw [hsplit], rfl, rfl,
        fun c hc => List.mem_takeWhile_imp hc, ?_⟩
      intro c hc
      rw [hdrop] at hc
      have hnot := List.head?_dropWhile_not isDigit cs
      rwa [Option.mem_def.1 hc] at hnot
  · next hpoint =>
    cases h
    refine .inr ⟨fun hhead => ?_, rfl, rfl⟩
    obtain ⟨cs, rfl⟩ := List.head?_eq_some_iff.1 hhead
    exact hpoint _ rfl

/-- Fractions that do not first differ behind the digits that are read settle the order. -/
lemma settled_takeFraction? {a b : Nat} (h : aligned false s t = true)
    (hagree : (fractionDigits s).take 9 = (fractionDigits t).take 9 →
      fractionDigits s = fractionDigits t)
    (hs : takeFraction? s = some (a, s')) (ht : takeFraction? t = some (b, t')) :
    Settled true s t (compare a b) s' t' := by
  rcases cases_of_takeFraction? hs with ⟨d, rfl, hd, rfl, hdigits, hend⟩ | ⟨hpoint, rfl, rfl⟩
  · rcases cases_of_takeFraction? ht with ⟨e, rfl, he, rfl, hdigits', hend'⟩ | ⟨hpoint, -, -⟩
    · rw [hd, he] at hagree
      rw [compare_ofDigits (by rw [length_padded, length_padded]) (isDigit_of_mem_padded hdigits)
        (isDigit_of_mem_padded hdigits')]
      exact (settled_cons h).trans
        fun h => settled_padded 9 h hdigits hdigits' hend hend' hagree
    · obtain ⟨_, rfl, -⟩ := exists_cons_of_aligned (by decide) h
      exact absurd rfl hpoint
  · rcases cases_of_takeFraction? ht with ⟨e, rfl, -⟩ | ⟨-, rfl, rfl⟩
    · cases s' with
      | nil => cases h
      | cons c s =>
        rcases eq_or_isDigit_of_aligned h with rfl | ⟨-, hdigit⟩
        · exact absurd rfl hpoint
        · cases hdigit
    · exact .refl (aligned_true_of_aligned h)

/-! ### Offsets -/

/-- Aligned texts of the same offset are the same. -/
lemma eq_of_isOffset (h : aligned true s t = true) (hs : IsOffset s) (ht : IsOffset t)
    (hoffset : leadingOffset s = leadingOffset t) : s = t := by
  rcases hs with rfl | ⟨a, hs⟩
  · cases t with
    | nil => rfl
    | cons d t => cases h
  rcases ht with rfl | ⟨b, ht⟩
  · cases s with
    | nil => rfl
    | cons c s => cases h
  rw [leadingOffset_of_takeOffset? hs, leadingOffset_of_takeOffset? ht] at hoffset
  subst hoffset
  cases s with
  | nil => cases hs
  | cons c s =>
    have hs := cases_of_takeOffset? hs
    have hdigit : isDigit c = false := by
      rcases hs with ⟨rfl | rfl, -⟩ | ⟨rfl | rfl | rfl, -⟩ <;> rfl
    have hpoint : c ≠ '.' := by
      rcases hs with ⟨rfl | rfl, -⟩ | ⟨rfl | rfl | rfl, -⟩ <;> decide
    obtain ⟨t, rfl, h'⟩ := exists_cons_of_aligned hdigit h
    have ht := cases_of_takeOffset? ht
    rcases hs with ⟨hzulu, -, rfl⟩ | ⟨hsign, hour, _, _, minute, hhour, hcolon, hminute, -, hm, hs⟩
    · rcases ht with ⟨-, -, rfl⟩ | ⟨hsign, -⟩
      · rfl
      · rcases hzulu with rfl | rfl <;> simp at hsign
    · rcases ht with ⟨hzulu, -⟩ | ⟨-, hour', _, _, minute', khour, kcolon, kminute, -, km, ht⟩
      · rcases hzulu with rfl | rfl <;> simp at hsign
      · -- the same number of minutes is the same hour and minute
        obtain ⟨rfl, rfl⟩ : hour = hour' ∧ minute = minute' := by
          split at hs <;> omega
        have hread := (settled_cons_of_ne hpoint h).trans fun h =>
          (settled_takeNumber?_width h hhour khour).trans fun h =>
            (settled_takeChar? (by decide) h hcolon kcolon).trans fun h =>
              settled_takeNumber?_width h hminute kminute
        refine Std.LawfulEqOrd.eq_of_compare (hread.compare_eq.trans ?_)
        simp

/-! ### Texts written alike -/

/-- The year that a text begins with. -/
def leadingYear (cs : List Char) : Int := (looseYear? cs).elim 0 Prod.fst

/-- What stands behind the seconds of a text. -/
def behindClock (cs : List Char) : List Char := (clock? cs).elim [] Prod.snd

/-- The offset from universal time at the end of a text. -/
def finalOffset (cs : List Char) : Int :=
  leadingOffset ((takeFraction? (behindClock cs)).elim [] Prod.snd)

/-- Whether two texts of dates are written alike: they first differ, if at all, in digits of numbers
with equally many digits, and not in their years if one of these is negative. -/
structure DatesAlike (s t : List Char) : Prop where
  aligned : aligned false s t = true
  years : leadingYear s = leadingYear t ∨ 0 ≤ leadingYear s ∧ 0 ≤ leadingYear t

/-- Whether two texts of instants are written alike: so are their dates and times of day, fractions
do not first differ behind the nine digits that are read, and the offsets are the same. -/
structure InstantsAlike (s t : List Char) : Prop extends DatesAlike s t where
  fractions : (fractionDigits (behindClock s)).take 9 = (fractionDigits (behindClock t)).take 9 →
    fractionDigits (behindClock s) = fractionDigits (behindClock t)
  offsets : finalOffset s = finalOffset t

instance (s t : List Char) : Decidable (DatesAlike s t) :=
  decidable_of_iff (_ ∧ _) ⟨fun h => ⟨h.1, h.2⟩, fun h => ⟨h.aligned, h.years⟩⟩

instance (s t : List Char) : Decidable (InstantsAlike s t) :=
  decidable_of_iff (_ ∧ _ ∧ _) ⟨fun h => ⟨h.1, h.2.1, h.2.2⟩,
    fun h => ⟨h.toDatesAlike, h.fractions, h.offsets⟩⟩

lemma leadingYear_of_looseDate? {a : Date} (h : looseDate? s = some (a, s')) :
    leadingYear s = a.year := by
  obtain ⟨_, _, _, _, hyear, -⟩ := exists_of_looseDate? h
  rw [leadingYear, hyear, Option.elim_some]

lemma DatesAlike.years_eq {a b : Date} (h : DatesAlike s t) (hs : looseDate? s = some (a, s'))
    (ht : looseDate? t = some (b, t')) : a.year = b.year ∨ 0 ≤ a.year ∧ 0 ≤ b.year := by
  rw [← leadingYear_of_looseDate? hs, ← leadingYear_of_looseDate? ht]
  exact h.years

/-- Dates that are written alike are in the order of their texts. -/
lemma DatesAlike.compare_eq {a b : Date} (h : DatesAlike s t) (hs : whole? (looseDate? s) = some a)
    (ht : whole? (looseDate? t) = some b) : compare s t = a.compare b := by
  rw [whole?_eq_some_iff] at hs ht
  have hread := settled_looseDate? h.aligned (h.years_eq hs ht) hs ht
  simpa using hread.compare_eq

/-- Instants that are written alike are in the order of their texts. -/
lemma InstantsAlike.compare_eq {q r : Reading} (h : InstantsAlike s t) (hq : q.Of s) (hr : r.Of t) :
    compare s t = q.instant.compare r.instant := by
  have hfractions := h.fractions
  have hoffset := h.offsets
  simp only [finalOffset, behindClock, hq.clock, hr.clock, Option.elim_some, hq.fraction,
    hr.fraction] at hfractions hoffset
  obtain ⟨_, _, _, _, _, _, _, hdate, -⟩ := exists_of_clock? hq.clock
  obtain ⟨_, _, _, _, _, _, _, kdate, -⟩ := exists_of_clock? hr.clock
  have hread := (settled_clock? h.aligned (h.years_eq hdate kdate) hq.clock hr.clock).trans
    fun h => settled_takeFraction? h hfractions hq.fraction hr.fraction
  have hzone : ∀ o : Ordering, (o = .eq → aligned true q.zone r.zone = true) →
      o.then (compare q.zone r.zone) = o := by
    intro o halign
    cases o with
    | eq =>
      rw [eq_of_isOffset (halign rfl) hq.offset hr.offset hoffset, Std.ReflOrd.compare_self]
      rfl
    | lt => rfl
    | gt => rfl
  rw [hread.compare_eq, hzone _ hread.rest, Reading.instant, Reading.instant, ← hoffset,
    Instant.compare_ofLocal _ _ _ _ hq.bound hr.bound (natAbs_leadingOffset _)]
  simp [Ordering.then_assoc]

end Calendar

/-! ### Operands -/

/-- Whether two values are compared as something else of theirs, which is in a given order. -/
structure ComparedAs (o : Ordering) (v w : Json) : Prop where
  less : Test.less.passes v w = true ↔ o = .lt
  equal : Test.equal.passes v w = true ↔ o = .eq
  greater : Test.greater.passes v w = true ↔ o = .gt

/-- Texts are compared as texts. -/
lemma comparedAs_string (s t : String) : ComparedAs (compare s t) (.string s) (.string t) := by
  constructor
  · simp [Test.passes_less, Json.order?]
  · simp [Test.passes_equal, Json.looseEq, Json.same]
  · simp [Test.passes_greater, Json.order?]

namespace ValueType

variable {attr s : String} {v : Json}

lemma coerce_eq_ok_iff {type : ValueType} : type.coerce attr s = .ok v ↔ type.read? s = some v := by
  rw [coerce]
  cases type.read? s <;> simp

lemma coerce_date_eq_ok_iff :
    date.coerce attr s = .ok v ↔ (Date.ofText? s).isSome ∧ v = .string s := by
  rw [coerce_eq_ok_iff, read?]
  cases Date.ofText? s <;> simp [eq_comm]

lemma coerce_datetime_eq_ok_iff :
    datetime.coerce attr s = .ok v ↔ (Instant.ofText? s).isSome ∧ v = .string s := by
  rw [coerce_eq_ok_iff, read?]
  cases Instant.ofText? s <;> simp [eq_comm]

end ValueType

open Calendar (DatesAlike InstantsAlike)

/-- **Dates and instants are in the order of their texts.**  The value of a text as a date or as an
instant is the text itself, and such values are compared as texts, so that equality holds only for
one date or instant.  Where two texts are written alike, their values are compared as the dates or
instants that they denote. -/
theorem dates_compared_as_texts {attr attr' s t : String} {v w : Json} :
    (ValueType.date.coerce attr s = .ok v → ValueType.date.coerce attr' t = .ok w →
      v = .string s ∧ w = .string t ∧
      ∃ a b, Date.ofText? s = some a ∧ Date.ofText? t = some b ∧
        ComparedAs (compare s t) v w ∧ (Test.equal.passes v w = true → a = b) ∧
        (DatesAlike s.toList t.toList → ComparedAs (a.compare b) v w)) ∧
    (ValueType.datetime.coerce attr s = .ok v → ValueType.datetime.coerce attr' t = .ok w →
      v = .string s ∧ w = .string t ∧
      ∃ x y, Instant.ofText? s = some x ∧ Instant.ofText? t = some y ∧
        ComparedAs (compare s t) v w ∧ (Test.equal.passes v w = true → x = y) ∧
        (InstantsAlike s.toList t.toList → ComparedAs (x.compare y) v w)) := by
  have htexts : Test.equal.passes (.string s) (.string t) = true → s = t := fun h =>
    Std.LawfulEqOrd.eq_of_compare ((comparedAs_string s t).equal.1 h)
  constructor
  · intro hs ht
    obtain ⟨hread, rfl⟩ := ValueType.coerce_date_eq_ok_iff.1 hs
    obtain ⟨hread', rfl⟩ := ValueType.coerce_date_eq_ok_iff.1 ht
    obtain ⟨a, ha⟩ := Option.isSome_iff_exists.1 hread
    obtain ⟨b, hb⟩ := Option.isSome_iff_exists.1 hread'
    refine ⟨rfl, rfl, a, b, ha, hb, comparedAs_string s t, fun heq => ?_, fun halike => ?_⟩
    · obtain rfl := htexts heq
      exact Option.some.inj (ha.symm.trans hb)
    · rw [← halike.compare_eq ha hb, ← compare_string]
      exact comparedAs_string s t
  · intro hs ht
    obtain ⟨hread, rfl⟩ := ValueType.coerce_datetime_eq_ok_iff.1 hs
    obtain ⟨hread', rfl⟩ := ValueType.coerce_datetime_eq_ok_iff.1 ht
    obtain ⟨x, hx⟩ := Option.isSome_iff_exists.1 hread
    obtain ⟨y, hy⟩ := Option.isSome_iff_exists.1 hread'
    refine ⟨rfl, rfl, x, y, hx, hy, comparedAs_string s t, fun heq => ?_, fun halike => ?_⟩
    · obtain rfl := htexts heq
      exact Option.some.inj (hx.symm.trans hy)
    · obtain ⟨q, hq, rfl⟩ := Calendar.Reading.exists_of_ofText? hx
      obtain ⟨r, hr, rfl⟩ := Calendar.Reading.exists_of_ofText? hy
      rw [← halike.compare_eq hq hr, ← compare_string]
      exact comparedAs_string s t

theorem dates_compared_as_texts_alike :
    (∃ a b, Date.ofText? "2024-2-29" = some a ∧ Date.ofText? "2024-3-1" = some b ∧
      ComparedAs (a.compare b) (.string "2024-2-29") (.string "2024-3-1")) ∧
    ∃ x y, Instant.ofText? "2024-01-01 23:30:00.25+01:00" = some x ∧
      Instant.ofText? "2024-01-02T00:10:00.5+01:00" = some y ∧
      ComparedAs (x.compare y) (.string "2024-01-01 23:30:00.25+01:00")
        (.string "2024-01-02T00:10:00.5+01:00") := by
  constructor
  · have hs : ValueType.date.coerce "born" "2024-2-29" = .ok (.string "2024-2-29") :=
      ValueType.coerce_date_eq_ok_iff.2 ⟨by decide, rfl⟩
    have ht : ValueType.date.coerce "born" "2024-3-1" = .ok (.string "2024-3-1") :=
      ValueType.coerce_date_eq_ok_iff.2 ⟨by decide, rfl⟩
    obtain ⟨-, -, a, b, ha, hb, -, -, hcompared⟩ := dates_compared_as_texts.1 hs ht
    exact ⟨a, b, ha, hb, hcompared (by decide)⟩
  · have hs : ValueType.datetime.coerce "at" "2024-01-01 23:30:00.25+01:00" =
        .ok (.string "2024-01-01 23:30:00.25+01:00") :=
      ValueType.coerce_datetime_eq_ok_iff.2 ⟨by decide, rfl⟩
    have ht : ValueType.datetime.coerce "at" "2024-01-02T00:10:00.5+01:00" =
        .ok (.string "2024-01-02T00:10:00.5+01:00") :=
      ValueType.coerce_datetime_eq_ok_iff.2 ⟨by decide, rfl⟩
    obtain ⟨-, -, x, y, hx, hy, -, -, hcompared⟩ := dates_compared_as_texts.2 hs ht
    exact ⟨x, y, hx, hy, hcompared (by decide)⟩

/-- In time, the first of September comes before the first of October, and half past midnight an
hour ahead of universal time before midnight of universal time; as texts, they come behind them. -/
theorem dates_not_compared_in_time :
    ValueType.date.coerce "born" "2024-9-1" = .ok (.string "2024-9-1") ∧
    ValueType.date.coerce "born" "2024-10-01" = .ok (.string "2024-10-01") ∧
    (∃ a b, Date.ofText? "2024-9-1" = some a ∧ Date.ofText? "2024-10-01" = some b ∧
      a.compare b = .lt) ∧
    Test.less.passes (.string "2024-9-1") (.string "2024-10-01") = false ∧
    (∃ x y, Instant.ofText? "2024-01-01T00:30:00+01:00" = some x ∧
      Instant.ofText? "2024-01-01T00:00:00Z" = some y ∧ x.compare y = .lt) ∧
    Test.less.passes (.string "2024-01-01T00:30:00+01:00") (.string "2024-01-01T00:00:00Z") =
      false := by
  refine ⟨ValueType.coerce_date_eq_ok_iff.2 ⟨by decide, rfl⟩,
    ValueType.coerce_date_eq_ok_iff.2 ⟨by decide, rfl⟩,
    ⟨⟨2024, 9, 1, by decide⟩, ⟨2024, 10, 1, by decide⟩, by decide, by decide, by decide⟩,
    by decide, ?_, by decide⟩
  exact ⟨⟨⟨2023, 12, 31, by decide⟩, 1410, 0, 0⟩, ⟨⟨2024, 1, 1, by decide⟩, 0, 0, 0⟩, by decide,
    by decide, by decide⟩

end Retrieval
