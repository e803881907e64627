/-
# Queries of links

The query of a link is a filter: an attribute, the word for equality and the text of a key.  If the
name of the attribute is plain and the key an integer, the query is decoded to this filter, and the
filter is compiled to the comparison of the attribute with the key.  Only the key is encoded, so a
name that holds an escape of its own would be decoded to another one.
-/
import Retrieval.Link
import Retrieval.Proofs.Filter.Meaning
import Retrieval.Proofs.Filter.RoundTrip
import Retrieval.Proofs.Number.Integer

namespace Retrieval

/-! ### Decoding -/

namespace PercentEncoding

lemma hexValue?_dot : hexValue? '.' = none := by decide

/-- An escape does not reach over a full stop. -/
lemma decodeBytes_append_dot (cs rest : List Char) :
    decodeBytes (cs ++ '.' :: rest) = decodeBytes cs ++ decodeBytes ('.' :: rest) := by
  fun_induction decodeBytes cs with
  | case1 => rfl
  | case2 high low tail m n hm hn ih =>
    rw [List.cons_append, List.cons_append, List.cons_append, decodeBytes]
    simp only [hm, hn, ih, List.cons_append]
  | case3 high low tail hnone ih =>
    rw [List.cons_append, List.cons_append, List.cons_append, decodeBytes]
    split
    · next m n hm hn => exact absurd hn (hnone m n hm)
    · rw [← List.cons_append, ← List.cons_append, ih, List.append_assoc]
  | case4 c tail hpercent ih =>
    by_cases hc : c = '%'
    · -- less than two characters follow, and the full stop is no digit
      subst hc
      rcases tail with _ | ⟨high, _ | ⟨low, tail⟩⟩
      · cases rest with
        | nil => rfl
        | cons low rest => simp [decodeBytes, hexValue?_dot]
      · have hdot : decodeBytes ('%' :: high :: '.' :: rest) =
            String.utf8EncodeChar '%' ++ decodeBytes (high :: '.' :: rest) := by
          rw [decodeBytes, hexValue?_dot]
          cases hexValue? high <;> rfl
        rw [List.append_assoc, ← ih]
        exact hdot
      · exact (hpercent high low tail rfl rfl).elim
    · rw [List.cons_append, decodeBytes_cons_of_ne hc, ih, List.append_assoc]

/-- A text without a percent sign stands for itself. -/
lemma decodeBytes_of_notMem {cs : List Char} (h : '%' ∉ cs) :
    decodeBytes cs = cs.flatMap String.utf8EncodeChar := by
  induction cs with
  | nil => rfl
  | cons c cs ih =>
    rw [List.mem_cons, not_or] at h
    rw [decodeBytes_cons_of_ne (Ne.symm h.1), ih h.2, List.flatMap_cons]

lemma toByteArray_of_fromUTF8? {bytes : ByteArray} {s : String}
    (h : String.fromUTF8? bytes = some s) : s.toByteArray = bytes := by
  rw [String.fromUTF8?] at h
  split at h
  · cases h
    rfl
  · cases h

/-- A text is decoded to another one if its bytes are those of the other. -/
lemma decode?_eq_some_iff {s t : String} :
    decode? s = some t ↔ decodeBytes s.toList = t.toList.flatMap String.utf8EncodeChar := by
  have hself := fromUTF8?_utf8Encode t.toList
  rw [String.ofList_toList] at hself
  constructor
  · intro h
    exact List.toByteArray_inj.1
      ((toByteArray_of_fromUTF8? h).symm.trans (toByteArray_of_fromUTF8? hself))
  · intro h
    rw [decode?, h, hself]

/-- A text without a percent sign is decoded to itself. -/
lemma decode?_of_notMem {s : String} (h : '%' ∉ s.toList) : decode? s = some s :=
  decode?_eq_some_iff.2 (decodeBytes_of_notMem h)

end PercentEncoding

/-! ### Queries for texts -/

/-- A name that stands in a filter as it is: it is not empty and has no character that structures a
filter and no blank one. -/
structure PlainName (name : String) : Prop where
  ne_empty : name ≠ ""
  chars : ∀ c ∈ name.toList, c ≠ '.' ∧ c ≠ ',' ∧ c ≠ '(' ∧ c ≠ ')' ∧ Text.isBlank c = false

instance (name : String) : Decidable (PlainName name) :=
  decidable_of_iff (name ≠ "" ∧ name.toList.all fun c =>
    c != '.' && c != ',' && c != '(' && c != ')' && !Text.isBlank c)
    ⟨fun h => ⟨h.1, by simpa [and_assoc] using h.2⟩,
      fun h => ⟨h.1, by simpa [and_assoc] using h.chars⟩⟩

/-- A filter can express a text that is not empty, not the word for null and has no comma and no
bracket. -/
lemma Links.isExpressible_iff {s : String} :
    Links.isExpressible s ↔
      s ≠ "" ∧ s ≠ "null" ∧ ∀ c ∈ s.toList, c ≠ ',' ∧ c ≠ '(' ∧ c ≠ ')' := by
  simp only [Links.isExpressible, Bool.and_eq_true, Bool.not_eq_true', bne_iff_ne, ne_eq,
    List.any_eq_false, Bool.or_eq_true, decide_eq_true_eq, not_or, String.isEmpty_eq_false_iff,
    and_assoc]

/-- The filter that asks for the records whose attribute is a text. -/
def textQuery (attr text : String) : String := attr ++ ".eq." ++ text

lemma toList_textQuery (attr text : String) :
    (textQuery attr text).toList = (attr ++ ".eq.").toList ++ text.toList := by
  rw [textQuery, String.toList_append]

lemma isBlankText_textQuery (attr text : String) :
    Text.isBlankText (textQuery attr text) = false := by
  rw [Text.isBlankText, List.all_eq_false]
  exact ⟨'.', by simp [textQuery], by decide⟩

/-- Behind a plain name only the end of the text is trimmed. -/
lemma trim_textQuery {attr : String} (h : PlainName attr) (text : String) :
    Text.trim (textQuery attr text).toList =
      Text.joinTexts '.' [attr, "eq", String.ofList (Text.trimEnd text.toList)] := by
  have htrimmed : Text.Trimmed (attr ++ ".eq.").toList := by
    constructor
    · intro c hc
      have hne : attr.toList ≠ [] := by simpa using h.ne_empty
      rw [String.toList_append, List.head?_append_of_ne_nil _ hne] at hc
      exact (h.chars c (List.mem_of_mem_head? hc)).2.2.2.2
    · intro c hc
      obtain rfl : '.' = c := by simpa using hc
      decide
  rw [toList_textQuery, htrimmed.trim_append (by simp)]
  simp [Text.joinTexts]

/-- The query for a text that a filter can express is a single leaf. -/
lemma spells_textQuery {attr text : String} (h : PlainName attr)
    (htext : Links.isExpressible text) :
    Spells (textQuery attr text).toList
      [.leaf [attr] "eq" (.scalar (String.ofList (Text.trimEnd text.toList)))] := by
  refine spells_piece ?_ ?_
  · intro c hc
    rw [toList_textQuery, List.mem_append, String.toList_append, List.mem_append] at hc
    rcases hc with (hc | hc) | hc
    · obtain ⟨-, hcomma, hopen, hclose, -⟩ := h.chars c hc
      exact ⟨hcomma, hopen, hclose⟩
    · simp only [String.reduceToList, List.mem_cons, List.not_mem_nil, or_false] at hc
      rcases hc with rfl | rfl | rfl | rfl <;> decide
    · exact (Links.isExpressible_iff.1 htext).2.2 c hc
  · have hdivides : Piece.Divides [attr] "eq" (String.ofList (Text.trimEnd text.toList)) := by
      refine ⟨by simp, ?_, by simp, by decide, .inl (by decide)⟩
      intro s hs
      obtain rfl := List.mem_singleton.1 hs
      exact ⟨h.ne_empty, fun hdot => (h.chars _ hdot).1 rfl⟩
    exact hdivides.ofChars? (trim_textQuery h text)

/-- If the name of the attribute stays as it is when it is decoded, the encoded text behind it is
decoded to the text. -/
lemma decode?_textQuery {attr : String} (h : PercentEncoding.decode? attr = some attr)
    (text : String) :
    PercentEncoding.decode? (textQuery attr (PercentEncoding.encode text)) =
      some (textQuery attr text) := by
  rw [PercentEncoding.decode?_eq_some_iff] at h ⊢
  have hlist : ∀ s, (textQuery attr s).toList =
      attr.toList ++ '.' :: 'e' :: 'q' :: '.' :: s.toList := by
    intro s
    simp [textQuery]
  rw [hlist, hlist, PercentEncoding.decodeBytes_append_dot, h]
  simp only [PercentEncoding.decodeBytes_cons_of_ne (show '.' ≠ '%' by decide),
    PercentEncoding.decodeBytes_cons_of_ne (show 'e' ≠ '%' by decide),
    PercentEncoding.decodeBytes_cons_of_ne (show 'q' ≠ '%' by decide),
    PercentEncoding.encode, String.toList_ofList, PercentEncoding.decodeBytes_flatMap_encodeChar,
    List.flatMap_append, List.flatMap_cons]

/-! ### Queries for integers -/

/-- The text of an integer in a filter. -/
def integerText (n : Int) : String := String.ofList (integerChars n)

/-- The filter that asks for the records whose attribute is an integer. -/
def equalityQuery (attr : String) (n : Int) : String := attr ++ ".eq." ++ integerText n

lemma equalityQuery_eq (attr : String) (n : Int) :
    equalityQuery attr n = textQuery attr (integerText n) := rfl

lemma integerText_ne_null (n : Int) : integerText n ≠ "null" := by
  intro hnull
  have htext : integerChars n = "null".toList := by
    rw [← hnull, integerText, String.toList_ofList]
  have hmem : 'n' ∈ integerChars n := by
    rw [htext]
    decide
  rcases isDigit_or_of_mem_integerChars hmem with hdigit | hsign
  · exact absurd hdigit (by decide)
  · exact absurd hsign (by decide)

lemma trimEnd_integerText (n : Int) :
    Text.trimEnd (integerText n).toList = (integerText n).toList := by
  rw [Text.trimEnd_eq_self_iff, integerText, String.toList_ofList]
  intro c hc
  exact (plain_of_mem_integerChars (List.mem_of_mem_getLast? hc)).2.2.2.2

/-- A filter can express every integer. -/
lemma isExpressible_integerText (n : Int) : Links.isExpressible (integerText n) := by
  have hne : integerText n ≠ "" := by
    -- an integer is read back from its text, and nothing is read from the empty one
    intro hempty
    have hread := readInteger?_integerChars n
    rw [String.ofList_eq_empty_iff.1 hempty] at hread
    cases hread
  refine Links.isExpressible_iff.2 ⟨hne, integerText_ne_null n, fun c hc => ?_⟩
  rw [integerText, String.toList_ofList] at hc
  obtain ⟨hcomma, hopen, hclose, -⟩ := plain_of_mem_integerChars hc
  exact ⟨hcomma, hopen, hclose⟩

variable {attr : String} {n : Int}

lemma trim_equalityQuery (h : PlainName attr) (n : Int) :
    Text.trim (equalityQuery attr n).toList = (equalityQuery attr n).toList := by
  rw [equalityQuery_eq, trim_textQuery h, trimEnd_integerText, String.ofList_toList]
  simp [textQuery, Text.joinTexts]

/-- The query for an integer is a single leaf. -/
lemma spells_equalityQuery (h : PlainName attr) (n : Int) :
    Spells (equalityQuery attr n).toList [.leaf [attr] "eq" (.scalar (integerText n))] := by
  have hspells := spells_textQuery h (isExpressible_integerText n)
  rwa [trimEnd_integerText, String.ofList_toList] at hspells

lemma isBlankText_equalityQuery (attr : String) (n : Int) :
    Text.isBlankText (equalityQuery attr n) = false := isBlankText_textQuery attr _

lemma conversion_integerText (n : Int) :
    Conversion.of "eq" (.scalar (integerText n)) =
      .ok ⟨.equal, .text (integerText n), false⟩ := by
  have heq : Operator.ofName? "eq" = some .eq := by decide
  rw [Conversion.of, heq]
  simp only [Conversion.ofScalar, if_neg (integerText_ne_null n)]

/-- The text of an integer is the integer again where integers are expected. -/
lemma coerce_integerText {g : Graph} {p : ResolvedPath g} (htype : p.type = .int)
    (hn : InInt64 n) : Operand.coerce p .equal (.text (integerText n)) = .ok (.int n) := by
  have hread : ValueType.read? .int (integerText n) = some (.int n) := by
    rw [ValueType.read?, integerText, readInt64?_integerChars hn, Option.map_some]
  rw [Operand.coerce, htype]
  simp [ValueType.coerceFor, Test.isDatePart, Test.isTextMatch, ValueType.coerce, hread]

/-! ### Addresses -/

/-- The link of an integer ends in the query for it. -/
lemma Links.address?_int (l : Links) {n : Nat} (target : Schema n) (kind attr : String)
    (key : Int) : l.address? target kind attr (.int key) =
      some (l.base ++ "/" ++ target.route ++ "/" ++ kind ++ "?query=" ++ equalityQuery attr key) := by
  have htext : Links.keyText? (.int key) = some (integerText key) := rfl
  rw [address?, htext, Option.map_some, integerText, encode_integerChars, ← integerText,
    equalityQuery]
  simp only [String.append_assoc]

/-- Whether a link is the address of a kind of request for records of a schema, and what its query
is when it is decoded. -/
def Links.LeadsTo (l : Links) {n : Nat} (target : Schema n) (kind link query : String) : Prop :=
  ∃ encoded, link = l.base ++ "/" ++ target.route ++ "/" ++ kind ++ "?query=" ++ encoded ∧
    PercentEncoding.decode? encoded = some query

/-- A link has one query. -/
lemma Links.LeadsTo.unique {l : Links} {n : Nat} {target : Schema n} {kind link query other : String}
    (h : l.LeadsTo target kind link query) (h' : l.LeadsTo target kind link other) :
    query = other := by
  obtain ⟨encoded, rfl, hquery⟩ := h
  obtain ⟨encoded', hlink, hother⟩ := h'
  have hencoded : encoded = encoded' := (String.append_right_inj _).1 hlink
  rw [hencoded, hother] at hquery
  exact (Option.some.inj hquery).symm

/-- The link of a key leads to the query for the text of the key. -/
lemma Links.exists_leadsTo_of_address? {l : Links} {n : Nat} {target : Schema n}
    {kind attr link : String} {key : Json} (hattr : PercentEncoding.decode? attr = some attr)
    (h : l.address? target kind attr key = some link) :
    ∃ text, keyText? key = some text ∧ l.LeadsTo target kind link (textQuery attr text) := by
  rw [address?, Option.map_eq_some_iff] at h
  obtain ⟨text, htext, rfl⟩ := h
  refine ⟨text, htext, textQuery attr (PercentEncoding.encode text), ?_,
    decode?_textQuery hattr text⟩
  simp only [textQuery, String.append_assoc]

lemma Links.leadsTo_of_address? {l : Links} {n : Nat} {target : Schema n} {kind attr link : String}
    {key : Int} (hattr : PercentEncoding.decode? attr = some attr)
    (h : l.address? target kind attr (.int key) = some link) :
    l.LeadsTo target kind link (equalityQuery attr key) := by
  obtain ⟨_, ⟨⟩, hleads⟩ := exists_leadsTo_of_address? hattr h
  exact hleads

namespace Graph

variable {g : Graph} {i : g.Id}

/-- Whether an attribute holds keys: it is an integer or a to-one relation. -/
def takesKey (g : Graph) (i : g.Id) (name : String) : Bool :=
  match ((g.schema i).attribute? name).map Attribute.kind with
  | some (.scalar .int) => true
  | some (.relation r) => r.cardinality = .toOne
  | _ => false

lemma takesKey_iff {name : String} :
    g.takesKey i name ↔ (g.schema i).attribute? name = some ⟨name, .scalar .int⟩ ∨
      ∃ r, (g.schema i).attribute? name = some ⟨name, .relation r⟩ ∧ r.cardinality = .toOne := by
  rw [takesKey]
  cases ha : (g.schema i).attribute? name with
  | none => simp
  | some a =>
    obtain ⟨other, kind⟩ := a
    have hname : other = name := by simpa using List.find?_some ha
    subst hname
    rcases kind with (_ | _ | _ | _ | _ | _ | _) | r <;> simp

/-- What holds keys is an attribute of its name. -/
lemma exists_of_takesKey {name : String} (h : g.takesKey i name) :
    ∃ a ∈ (g.schema i).attributes, a.name = name := by
  obtain ha | ⟨r, ha, -⟩ := takesKey_iff.1 h
  · exact ⟨_, List.mem_of_find?_eq_some ha, rfl⟩
  · exact ⟨_, List.mem_of_find?_eq_some ha, rfl⟩

/-- The graphs whose keys can be asked for in filters: every primary key is an integer, every
to-many relation has a remote attribute that holds keys, and all names are plain. -/
structure Linkable (g : Graph) : Prop where
  keyType : ∀ i, (g.schema i).keyType = .int
  remote : ∀ i, ∀ named ∈ (g.schema i).relations, named.2.cardinality = .toMany →
    named.2.remote.any (g.takesKey named.2.target)
  plain : ∀ i, ∀ a ∈ (g.schema i).attributes, PlainName a.name
  /-- The segment for the primary key is no other attribute. -/
  pk : ∀ i, ∀ a ∈ (g.schema i).attributes,
    a.name = primaryKeySegment → a.name = (g.schema i).primaryKey

namespace Linkable

variable (hg : g.Linkable)
include hg

lemma attribute?_primaryKey (i : g.Id) : (g.schema i).attribute? (g.schema i).primaryKey =
    some ⟨(g.schema i).primaryKey, .scalar .int⟩ := by
  have htype := hg.keyType i
  rw [Schema.keyType] at htype
  cases ha : (g.schema i).attribute? (g.schema i).primaryKey with
  | none => simp [ha] at htype
  | some a =>
    obtain ⟨name, kind⟩ := a
    have hname : name = (g.schema i).primaryKey := by simpa using List.find?_some ha
    subst hname
    rcases kind with t | r
    · simp only [ha, Option.bind_some, Attribute.type?, Option.getD_some] at htype
      rw [htype]
    · simp [ha, Attribute.type?] at htype

lemma takesKey_primaryKey (i : g.Id) : g.takesKey i (g.schema i).primaryKey :=
  takesKey_iff.2 (.inl (hg.attribute?_primaryKey i))

lemma plainName {attr : String} (h : g.takesKey i attr) : PlainName attr := by
  obtain ⟨a, ha, rfl⟩ := exists_of_takesKey h
  exact hg.plain i a ha

/-- What is compared with an attribute that holds keys is read as an integer. -/
lemma resolvePath_eq {attr : String} (h : g.takesKey i attr) :
    ∃ isRelation, g.resolvePath i [attr] = .ok ⟨[attr], i, .int, isRelation⟩ := by
  have hsegment : ∀ a, (g.schema i).attribute? attr = some a → a.name = attr →
      (g.schema i).segmentName attr = attr := by
    intro a ha hname
    rw [Schema.segmentName]
    split
    · next hpk =>
      have halias := hg.pk i a (List.mem_of_find?_eq_some ha) (hname.trans hpk)
      rw [← halias, hname]
    · rfl
  obtain ha | ⟨r, ha, -⟩ := takesKey_iff.1 h
  · exact ⟨false, by rw [resolvePath, follow, hsegment _ ha rfl, ha]⟩
  · refine ⟨true, ?_⟩
    rw [resolvePath, follow, hsegment _ ha rfl, ha]
    simp only [hg.keyType]

end Linkable

/-- The query for an integer is compiled to the comparison with that integer. -/
lemma compileFilter_equalityQuery (hg : g.Linkable) {schema : String}
    (hi : g.find? schema = some i) {attr : String} (h : g.takesKey i attr) {n : Int}
    (hn : InInt64 n) :
    g.compileFilter schema (equalityQuery attr n) =
      .ok (.compare ⟨[attr], .equal, .int n, false⟩) := by
  obtain ⟨isRelation, hp⟩ := hg.resolvePath_eq h
  have hleaf : g.compileLeaf i [attr] "eq" (.scalar (integerText n)) =
      .ok ⟨[attr], .equal, .int n, false⟩ := by
    have hvalue := coerce_integerText (p := ⟨[attr], i, .int, isRelation⟩) rfl hn
    rw [compileLeaf, hp, conversion_integerText]
    simp only [bind, Except.bind, hvalue]
  have htoken : g.compileToken i (.leaf [attr] "eq" (.scalar (integerText n))) =
      .ok (.compare ⟨[attr], .equal, .int n, false⟩) := by
    rw [compileToken, hleaf]
    rfl
  have htokens : g.compileTokens i [.leaf [attr] "eq" (.scalar (integerText n))] =
      .ok [.compare ⟨[attr], .equal, .int n, false⟩] :=
    compileTokens_cons_eq_ok_iff.2 ⟨_, [], htoken, by rw [compileTokens], rfl⟩
  exact compileFilter_eq_ok_iff.2 ⟨i, _, _, hi, isBlankText_equalityQuery attr n,
    spells_equalityQuery (hg.plainName h) n, htokens, rfl⟩

end Graph

end Retrieval
