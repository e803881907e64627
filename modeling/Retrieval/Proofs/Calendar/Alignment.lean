/-
# Aligned texts

Texts are ordered by the first characters in which they differ.  If these are digits of numbers with
equally many digits, the texts are in the order of the numbers, whatever comes behind them.  Reading
two such texts part by part settles their order by the first parts that differ.
-/
import Mathlib.Algebra.Order.Ring.Int
import Mathlib.Data.List.TakeWhile
import Mathlib.Data.String.Basic
import Retrieval.Calendar.Reader
import Retrieval.Proofs.Calendar.Days
import Retrieval.Proofs.Number.Integer

namespace Retrieval

/-- Texts are ordered as the lists of their characters. -/
lemma compare_string (s t : String) : compare s t = compare s.toList t.toList := by
  have hlt : ∀ cs ds : List Char, cs < ds → compare cs ds = .lt := by
    intro cs ds h
    induction h with
    | nil => rfl
    | rel h => rw [List.compare_cons_cons, compare_lt_iff_lt.2 h, Ordering.lt_then]
    | cons _ ih => rw [List.compare_cons_cons, compare_eq_iff_eq.2 rfl, Ordering.eq_then, ih]
  rcases lt_trichotomy s t with h | rfl | h
  · rw [compare_lt_iff_lt.2 h, hlt _ _ (String.lt_iff_toList_lt.1 h)]
  · rw [compare_eq_iff_eq.2 rfl, Std.ReflOrd.compare_self]
  · rw [compare_gt_iff_gt.2 h, Std.OrientedOrd.eq_swap, hlt _ _ (String.lt_iff_toList_lt.1 h),
      Ordering.swap_lt]

/-! ### Digits -/

lemma isDigit_iff {c : Char} : isDigit c = true ↔ 48 ≤ c.toNat ∧ c.toNat ≤ 57 := by
  simp [isDigit, Char.le_def, UInt32.le_iff_toNat_le]

/-- One more digit decides between numbers that are the same before it. -/
lemma compare_digit {c d : Char} (m n : Nat) (hc : isDigit c = true) (hd : isDigit d = true) :
    compare (m * 10 + (c.toNat - '0'.toNat)) (n * 10 + (d.toNat - '0'.toNat)) =
      (compare m n).then (compare c d) := by
  have hzero : '0'.toNat = 48 := rfl
  have hlt : ∀ c d : Char, c < d ↔ c.toNat < d.toNat := fun c d => UInt32.lt_iff_toNat_lt
  rw [isDigit_iff] at hc hd
  have hvalue : compare (c.toNat - '0'.toNat) (d.toNat - '0'.toNat) = compare c d :=
    compare_congr (by rw [hlt]; omega) (by rw [hlt]; omega)
  rw [← hvalue]
  exact compare_mul_add_nat m n (by omega) (by omega)

/-- Numbers with equally many digits are ordered as their texts. -/
lemma compare_append_digits {d e : List Char} (hlength : d.length = e.length)
    (hd : ∀ c ∈ d, isDigit c = true) (he : ∀ c ∈ e, isDigit c = true) (s t : List Char) :
    compare (d ++ s) (e ++ t) = (compare (ofDigits d) (ofDigits e)).then (compare s t) := by
  -- the digits before these may have been read already, as `m` and `n`
  have hread : ∀ {d e : List Char} (m n : Nat), d.length = e.length →
      (∀ c ∈ d, isDigit c = true) → (∀ c ∈ e, isDigit c = true) →
      (compare m n).then (compare (d ++ s) (e ++ t)) =
        (compare (d.foldl (fun n c => n * 10 + (c.toNat - '0'.toNat)) m)
          (e.foldl (fun n c => n * 10 + (c.toNat - '0'.toNat)) n)).then (compare s t) := by
    intro d
    induction d with
    | nil =>
      intro e m n hlength _ _
      rw [List.eq_nil_of_length_eq_zero hlength.symm]
      rfl
    | cons c d ih =>
      intro e m n hlength hd he
      obtain ⟨c', e, rfl⟩ := List.exists_cons_of_length_eq_add_one hlength.symm
      rw [List.forall_mem_cons] at hd he
      rw [List.foldl_cons, List.foldl_cons, ← ih _ _ (by simpa using hlength) hd.2 he.2,
        compare_digit m n hd.1 he.1, List.cons_append, List.cons_append, List.compare_cons_cons,
        Ordering.then_assoc]
  exact hread 0 0 hlength hd he

lemma compare_ofDigits {d e : List Char} (hlength : d.length = e.length)
    (hd : ∀ c ∈ d, isDigit c = true) (he : ∀ c ∈ e, isDigit c = true) :
    compare (ofDigits d) (ofDigits e) = compare d e := by
  simpa using (compare_append_digits hlength hd he [] []).symm

namespace Calendar

/-! ### Alignment -/

/-- Whether two texts are equal or first differ in two digits that count alike: in digits of
fractions, which come behind a point, or of numbers with equally many digits. -/
def aligned (fraction : Bool) : List Char → List Char → Bool
  | [], [] => true
  | c :: s, d :: t =>
    if c = d then aligned (fraction || c = '.') s t
    else isDigit c && isDigit d &&
      (fraction || (s.takeWhile isDigit).length = (t.takeWhile isDigit).length)
  | _, _ => false

example : aligned false "2024-1-5".toList "2025-10-30".toList = true ∧
    aligned false "2024-1-5".toList "2024-10-30".toList = false := by decide

variable {fraction : Bool} {s t s' t' : List Char} {c d : Char}

lemma aligned_cons_self : aligned fraction (c :: s) (c :: t) = aligned (fraction || c = '.') s t :=
  if_pos rfl

/-- As digits of a fraction, digits count whatever stands behind them. -/
lemma aligned_true_of_aligned (h : aligned fraction s t = true) : aligned true s t = true := by
  fun_induction aligned fraction s t with
  | case1 => rfl
  | case2 fraction s d t ih =>
    rw [aligned_cons_self]
    exact ih h
  | case3 fraction c s d t hne =>
    rw [Bool.and_eq_true] at h
    rw [aligned, if_neg hne, Bool.and_eq_true]
    exact ⟨h.1, rfl⟩
  | case4 => cases h

/-- Texts may begin alike; behind a point all digits count. -/
lemma aligned_append_left {front : List Char} (h : '.' ∉ front) :
    aligned fraction (front ++ s) (front ++ t) = aligned fraction s t := by
  induction front with
  | nil => rfl
  | cons c front ih =>
    rw [List.mem_cons, not_or] at h
    rw [List.cons_append, List.cons_append, aligned_cons_self, decide_eq_false (Ne.symm h.1),
      Bool.or_false, ih h.2]

/-- Aligned texts begin alike or with two digits. -/
lemma eq_or_isDigit_of_aligned (h : aligned fraction (c :: s) (d :: t) = true) :
    c = d ∨ isDigit c = true ∧ isDigit d = true := by
  by_cases heq : c = d
  · exact .inl heq
  · rw [aligned, if_neg heq, Bool.and_eq_true, Bool.and_eq_true] at h
    exact .inr h.1

/-- A text that begins with another character than a digit is aligned to texts that begin so. -/
lemma exists_cons_of_aligned (hc : isDigit c = false) (h : aligned fraction (c :: s) t = true) :
    ∃ t', t = c :: t' ∧ aligned (fraction || c = '.') s t' = true := by
  cases t with
  | nil => cases h
  | cons d t =>
    obtain rfl : c = d := by
      rcases eq_or_isDigit_of_aligned h with heq | ⟨hdigit, -⟩
      · exact heq
      · rw [hc] at hdigit
        cases hdigit
    rw [aligned_cons_self] at h
    exact ⟨t, rfl, h⟩

/-- Numbers at the front of aligned texts have equally many digits. -/
lemma length_takeWhile_of_aligned (h : aligned false s t = true) :
    (s.takeWhile isDigit).length = (t.takeWhile isDigit).length := by
  generalize hbefore : false = fraction at h
  fun_induction aligned fraction s t with
  | case1 => rfl
  | case2 fraction s c t ih =>
    subst hbefore
    by_cases hc : isDigit c
    · have hpoint : c ≠ '.' := by
        rintro rfl
        cases hc
      rw [List.takeWhile_cons_of_pos hc, List.takeWhile_cons_of_pos hc, List.length_cons,
        List.length_cons, ih (by rw [decide_eq_false hpoint, Bool.or_false]) h]
    · rw [List.takeWhile_cons_of_neg hc, List.takeWhile_cons_of_neg hc]
  | case3 fraction c s d t hne =>
    subst hbefore
    simp only [Bool.and_eq_true, Bool.false_or, decide_eq_true_eq] at h
    rw [List.takeWhile_cons_of_pos h.1.1, List.takeWhile_cons_of_pos h.1.2, List.length_cons,
      List.length_cons, h.2]
  | case4 => cases h

/-! ### Reading in step -/

/-- What reading two aligned texts, up to what is left of them, settles about their order: they are
ordered as what was read, or as what is left, and then what is left is aligned. -/
structure Settled (fraction : Bool) (s t : List Char) (o : Ordering) (s' t' : List Char) :
    Prop where
  compare_eq : compare s t = o.then (compare s' t')
  rest : o = .eq → aligned fraction s' t' = true

lemma Settled.trans {fraction' : Bool} {o o' : Ordering} {s'' t'' : List Char}
    (h : Settled fraction s t o s' t')
    (h' : aligned fraction s' t' = true → Settled fraction' s' t' o' s'' t'') :
    Settled fraction' s t (o.then o') s'' t'' := by
  cases o with
  | eq =>
    have hrest := h' (h.rest rfl)
    exact ⟨h.compare_eq.trans hrest.compare_eq, hrest.rest⟩
  | lt => exact ⟨h.compare_eq, fun heq => by cases heq⟩
  | gt => exact ⟨h.compare_eq, fun heq => by cases heq⟩

lemma Settled.refl (h : aligned fraction s t = true) : Settled fraction s t .eq s t :=
  ⟨rfl, fun _ => h⟩

/-- A character that both texts begin with settles nothing. -/
lemma settled_cons (h : aligned fraction (c :: s) (c :: t) = true) :
    Settled (fraction || c = '.') (c :: s) (c :: t) .eq s t := by
  rw [aligned_cons_self] at h
  refine ⟨?_, fun _ => h⟩
  rw [List.compare_cons_cons, Std.ReflOrd.compare_self]

lemma settled_cons_of_ne (hc : c ≠ '.') (h : aligned fraction (c :: s) (c :: t) = true) :
    Settled fraction (c :: s) (c :: t) .eq s t := by
  have hcons := settled_cons h
  rwa [decide_eq_false hc, Bool.or_false] at hcons

/-- Different characters settle the order. -/
lemma settled_of_ne (h : c ≠ d) (u v : List Char) :
    Settled fraction (c :: s) (d :: t) (compare (c :: u) (d :: v)) s' t' := by
  have hne : compare c d ≠ .eq := fun heq => h (Std.LawfulEqOrd.eq_of_compare heq)
  have hdecides : ∀ o, (compare c d).then o = compare c d := by
    intro o
    cases hcompare : compare c d with
    | lt => rfl
    | eq => exact absurd hcompare hne
    | gt => rfl
  have hthen : ∀ o, (compare (c :: u) (d :: v)).then o = compare c d := by
    intro o
    rw [List.compare_cons_cons, Ordering.then_assoc, hdecides]
  refine ⟨?_, fun heq => absurd ?_ hne⟩
  · rw [hthen, List.compare_cons_cons, hdecides]
  · rwa [List.compare_cons_cons, hdecides] at heq

/-- A number is read from equally many digits. -/
lemma settled_digits {d e : List Char} (h : aligned fraction (d ++ s) (e ++ t) = true)
    (hlength : d.length = e.length) (hd : ∀ c ∈ d, isDigit c = true)
    (he : ∀ c ∈ e, isDigit c = true) :
    Settled fraction (d ++ s) (e ++ t) (compare (ofDigits d) (ofDigits e)) s t := by
  refine ⟨compare_append_digits hlength hd he s t, fun heq => ?_⟩
  rw [compare_ofDigits hlength hd he, Std.LawfulEqOrd.compare_eq_iff_eq] at heq
  subst heq
  have hpoint : '.' ∉ d := fun hmem => by
    have := hd _ hmem
    cases this
  rwa [aligned_append_left hpoint] at h

/-- Digits that both texts begin with settle nothing. -/
lemma settled_digits_self {d : List Char} (h : aligned fraction (d ++ s) (d ++ t) = true)
    (hd : ∀ c ∈ d, isDigit c = true) : Settled fraction (d ++ s) (d ++ t) .eq s t := by
  have hsettled := settled_digits h rfl hd hd
  rwa [Std.ReflOrd.compare_self] at hsettled

lemma exists_digits_of_takeNumber? {least most n : Nat}
    (h : takeNumber? least most s = some (n, s')) :
    ∃ d, s = d ++ s' ∧ n = ofDigits d ∧ (∀ c ∈ d, isDigit c = true) ∧ least ≤ d.length ∧
      d.length = min most (s.takeWhile isDigit).length := by
  simp only [takeNumber?] at h
  split at h
  · cases h
  · next hleast =>
    obtain ⟨rfl, rfl⟩ := Prod.mk.inj (Option.some.inj h)
    have hprefix : (s.takeWhile isDigit).take most <+: s :=
      (List.take_prefix _ _).trans (List.takeWhile_prefix _)
    exact ⟨_, (List.prefix_iff_eq_append.1 hprefix).symm, rfl,
      fun c hc => List.mem_takeWhile_imp (List.mem_of_mem_take hc), not_lt.1 hleast,
      List.length_take⟩

/-- Reading numbers from aligned texts settles their order as that of the numbers. -/
lemma settled_takeNumber? {least most a b : Nat} (h : aligned false s t = true)
    (hs : takeNumber? least most s = some (a, s')) (ht : takeNumber? least most t = some (b, t')) :
    Settled false s t (compare a b) s' t' := by
  obtain ⟨d, rfl, rfl, hd, -, hlength⟩ := exists_digits_of_takeNumber? hs
  obtain ⟨e, rfl, rfl, he, -, hlength'⟩ := exists_digits_of_takeNumber? ht
  refine settled_digits h ?_ hd he
  rw [hlength, hlength', length_takeWhile_of_aligned h]

/-- The same holds of numbers of any width. -/
lemma settled_takeNumber?_unbounded {least a b : Nat} (h : aligned false s t = true)
    (hs : takeNumber? least s.length s = some (a, s'))
    (ht : takeNumber? least t.length t = some (b, t')) :
    Settled false s t (compare a b) s' t' := by
  obtain ⟨d, hsplit, rfl, hd, -, hlength⟩ := exists_digits_of_takeNumber? hs
  obtain ⟨e, hsplit', rfl, he, -, hlength'⟩ := exists_digits_of_takeNumber? ht
  have hle : ∀ cs : List Char, (cs.takeWhile isDigit).length ≤ cs.length :=
    fun cs => (List.takeWhile_prefix isDigit).length_le
  rw [Nat.min_eq_right (hle _)] at hlength hlength'
  have hcount := length_takeWhile_of_aligned h
  subst hsplit hsplit'
  exact settled_digits h (by omega) hd he

/-- The same holds of numbers of a fixed width, wherever they stand. -/
lemma settled_takeNumber?_width {width a b : Nat} (h : aligned fraction s t = true)
    (hs : takeNumber? width width s = some (a, s'))
    (ht : takeNumber? width width t = some (b, t')) :
    Settled fraction s t (compare a b) s' t' := by
  obtain ⟨d, rfl, rfl, hd, hleast, hlength⟩ := exists_digits_of_takeNumber? hs
  obtain ⟨e, rfl, rfl, he, hleast', hlength'⟩ := exists_digits_of_takeNumber? ht
  exact settled_digits h (by omega) hd he

lemma takeChar?_eq_some_iff : takeChar? c s = some s' ↔ s = c :: s' := by
  cases s with
  | nil => simp [takeChar?]
  | cons d s =>
    rw [takeChar?]
    split <;> simp_all

lemma settled_takeChar? (hc : c ≠ '.') (h : aligned fraction s t = true)
    (hs : takeChar? c s = some s') (ht : takeChar? c t = some t') :
    Settled fraction s t .eq s' t' := by
  obtain rfl := takeChar?_eq_some_iff.1 hs
  obtain rfl := takeChar?_eq_some_iff.1 ht
  exact settled_cons_of_ne hc h

lemma isBlank_of_isDigit (h : isDigit c = true) : Text.isBlank c = false := by
  rw [isDigit_iff] at h
  simp only [Text.isBlank, Bool.or_eq_false_iff, Bool.and_eq_false_iff, decide_eq_false_iff_not,
    beq_eq_false_iff_ne]
  omega

/-- Blank space in front is the same in aligned texts. -/
lemma settled_trimStart (h : aligned fraction s t = true) :
    Settled fraction s t .eq (Text.trimStart s) (Text.trimStart t) := by
  fun_induction aligned fraction s t with
  | case1 => exact .refl rfl
  | case2 fraction s c t ih =>
    have hcons : aligned fraction (c :: s) (c :: t) = true := by rwa [aligned_cons_self]
    rw [Text.trimStart, Text.trimStart]
    by_cases hblank : Text.isBlank c
    · have hpoint : c ≠ '.' := by
        rintro rfl
        cases hblank
      rw [decide_eq_false hpoint, Bool.or_false] at ih
      rw [List.dropWhile_cons_of_pos hblank, List.dropWhile_cons_of_pos hblank]
      exact (settled_cons_of_ne hpoint hcons).trans ih
    · rw [List.dropWhile_cons_of_neg hblank, List.dropWhile_cons_of_neg hblank]
      exact .refl hcons
  | case3 fraction c s d t hne =>
    have hcons : aligned fraction (c :: s) (d :: t) = true := by rwa [aligned, if_neg hne]
    rw [Bool.and_eq_true, Bool.and_eq_true] at h
    rw [Text.trimStart, Text.trimStart,
      List.dropWhile_cons_of_neg (by simp [isBlank_of_isDigit h.1.1]),
      List.dropWhile_cons_of_neg (by simp [isBlank_of_isDigit h.1.2])]
    exact .refl hcons
  | case4 => cases h

lemma settled_looseNumber? {a b : Nat} (h : aligned false s t = true)
    (hs : looseNumber? s = some (a, s')) (ht : looseNumber? t = some (b, t')) :
    Settled false s t (compare a b) s' t' :=
  (settled_trimStart h).trans fun h => settled_takeNumber? h hs ht

end Calendar

end Retrieval
