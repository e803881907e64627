/-
# Reading the query of a link back

The query of a link for a text is decoded to an attribute, the word for equality and that text.
Read as a filter, this is a single comparison of the attribute, with the text less the blank
characters at its end: a filter is trimmed before it is read, and what stands at its end is the key.
So a key is read as itself exactly if it does not end in a blank character.
-/
import Retrieval.Proofs.Link

namespace Retrieval

/-- The query for a text that a filter can express is read as that text, trimmed at its end. -/
lemma readFilter_textQuery {attr text : String} (h : PlainName attr)
    (htext : Links.isExpressible text) :
    readFilter (textQuery attr text) =
      .ok [.leaf [attr] "eq" (.scalar (String.ofList (Text.trimEnd text.toList)))] :=
  readFilter_eq_ok_iff.2 ⟨isBlankText_textQuery attr text, spells_textQuery h htext⟩

namespace Links

variable (l : Links) {n : Nat} (target : Schema n)

/-- Whether the query of a link is read as the comparison of an attribute with a text, and as
nothing else. -/
def ReadsAs (kind link attr text : String) : Prop :=
  ∃ query, l.LeadsTo target kind link query ∧
    readFilter query = .ok [.leaf [attr] "eq" (.scalar text)]

variable {l target}

/-- A link is read as one text at most. -/
lemma ReadsAs.unique {kind link attr text other : String}
    (h : l.ReadsAs target kind link attr text) (h' : l.ReadsAs target kind link attr other) :
    text = other := by
  obtain ⟨query, hquery, hread⟩ := h
  obtain ⟨query', hquery', hread'⟩ := h'
  rw [hquery.unique hquery', hread'] at hread
  simpa using hread.symm

/-- The link of a text is read as the text less the blank characters at its end. -/
lemma readsAs_trimEnd {kind attr s link : String} (hplain : PlainName attr)
    (hdecode : PercentEncoding.decode? attr = some attr)
    (h : l.address? target kind attr (.string s) = some link) :
    l.ReadsAs target kind link attr (String.ofList (Text.trimEnd s.toList)) := by
  obtain ⟨text, htext, hleads⟩ := exists_leadsTo_of_address? hdecode h
  rw [keyText?] at htext
  split at htext
  · next hexpressible =>
    cases htext
    exact ⟨_, hleads, readFilter_textQuery hplain hexpressible⟩
  · cases htext

/-- The link of a text is read as the text itself unless that ends in a blank character. -/
lemma readsAs_self_iff {kind attr s link : String} (hplain : PlainName attr)
    (hdecode : PercentEncoding.decode? attr = some attr)
    (h : l.address? target kind attr (.string s) = some link) :
    l.ReadsAs target kind link attr s ↔ ∀ c ∈ s.toList.getLast?, Text.isBlank c = false := by
  have htrimmed := readsAs_trimEnd hplain hdecode h
  rw [← Text.trimEnd_eq_self_iff]
  constructor
  · intro hself
    have hlist := congrArg String.toList (hself.unique htrimmed)
    rw [String.toList_ofList] at hlist
    exact hlist.symm
  · intro hend
    rwa [hend, String.ofList_toList] at htrimmed

end Links

/-- **Links of texts read back.**  Take a text that has a link, under the primary key of a schema or
under a remote attribute of it whose name is plain and not changed by percent-decoding.  The decoded
query of the link is read as the comparison of that attribute with exactly this text, and as nothing
else, if and only if the text does not end in a blank character. -/
theorem link_readsAs_self_iff (l : Links) {n : Nat} (target : Schema n) (s link : String) :
    (PlainName target.primaryKey →
      PercentEncoding.decode? target.primaryKey = some target.primaryKey →
      l.detail? target (.string s) = some link →
      (l.ReadsAs target "detail" link target.primaryKey s ↔
        ∀ c ∈ s.toList.getLast?, Text.isBlank c = false)) ∧
    ∀ remote, PlainName remote → PercentEncoding.decode? remote = some remote →
      l.list? target remote (.string s) = some link →
      (l.ReadsAs target "list" link remote s ↔
        ∀ c ∈ s.toList.getLast?, Text.isBlank c = false) :=
  ⟨fun hplain hdecode h => Links.readsAs_self_iff hplain hdecode h,
    fun _ hplain hdecode h => Links.readsAs_self_iff hplain hdecode h⟩

/-- Pets by their tags, which are texts. -/
def tagSchema : Schema 1 :=
  ⟨"Pet", some "zoo", "tag", [⟨"tag", .scalar .string⟩, ⟨"owner", .scalar .string⟩]⟩

theorem link_readsAs_self_iff_tag :
    (Links.detail? ⟨Links.defaultBase⟩ tagSchema (.string " or.eq.a*%25 #é") =
        some "/api/zoo/Pet/detail?query=tag.eq.%20or.eq.a%2A%2525%20%23%C3%A9" ∧
      Links.ReadsAs ⟨Links.defaultBase⟩ tagSchema "detail"
        "/api/zoo/Pet/detail?query=tag.eq.%20or.eq.a%2A%2525%20%23%C3%A9" "tag"
        " or.eq.a*%25 #é") ∧
    Links.list? ⟨Links.defaultBase⟩ tagSchema "owner" (.string "not.eq..") =
        some "/api/zoo/Pet/list?query=owner.eq.not.eq.." ∧
      Links.ReadsAs ⟨Links.defaultBase⟩ tagSchema "list"
        "/api/zoo/Pet/list?query=owner.eq.not.eq.." "owner" "not.eq.." := by
  have htag : PercentEncoding.decode? "tag" = some "tag" :=
    PercentEncoding.decode?_of_notMem (by decide)
  have howner : PercentEncoding.decode? "owner" = some "owner" :=
    PercentEncoding.decode?_of_notMem (by decide)
  have hdetail : Links.detail? ⟨Links.defaultBase⟩ tagSchema (.string " or.eq.a*%25 #é") =
      some "/api/zoo/Pet/detail?query=tag.eq.%20or.eq.a%2A%2525%20%23%C3%A9" := by decide
  have hlist : Links.list? ⟨Links.defaultBase⟩ tagSchema "owner" (.string "not.eq..") =
      some "/api/zoo/Pet/list?query=owner.eq.not.eq.." := by decide
  have hplain : PlainName "tag" := by decide
  have hplain' : PlainName "owner" := by decide
  have hend : ∀ c ∈ " or.eq.a*%25 #é".toList.getLast?, Text.isBlank c = false := by
    rintro _ ⟨⟩
    decide
  have hend' : ∀ c ∈ "not.eq..".toList.getLast?, Text.isBlank c = false := by
    rintro _ ⟨⟩
    decide
  exact ⟨⟨hdetail,
      ((link_readsAs_self_iff _ tagSchema _ _).1 hplain htag hdetail).2 hend⟩,
    hlist, ((link_readsAs_self_iff _ tagSchema _ _).2 "owner" hplain' howner hlist).2 hend'⟩

/-- A key that ends in a space has a link, whose query is read as another key. -/
theorem link_not_readsAs_blank :
    PlainName tagSchema.primaryKey ∧
      Links.detail? ⟨Links.defaultBase⟩ tagSchema (.string "rex ") =
        some "/api/zoo/Pet/detail?query=tag.eq.rex%20" ∧
      PercentEncoding.decode? "tag.eq.rex%20" = some "tag.eq.rex " ∧
      readFilter "tag.eq.rex " = .ok [.leaf ["tag"] "eq" (.scalar "rex")] ∧
      ¬Links.ReadsAs ⟨Links.defaultBase⟩ tagSchema "detail"
        "/api/zoo/Pet/detail?query=tag.eq.rex%20" "tag" "rex " := by
  have hplain : PlainName "tag" := by decide
  have hdecode : PercentEncoding.decode? "tag" = some "tag" :=
    PercentEncoding.decode?_of_notMem (by decide)
  have hlink : Links.detail? ⟨Links.defaultBase⟩ tagSchema (.string "rex ") =
      some "/api/zoo/Pet/detail?query=tag.eq.rex%20" := by decide
  refine ⟨hplain, hlink, PercentEncoding.decode?_eq_some_iff.2 (by decide), ?_, fun hself => ?_⟩
  · have hexpressible : Links.isExpressible "rex " := by decide
    exact readFilter_textQuery hplain hexpressible
  · have hend := (Links.readsAs_self_iff hplain hdecode hlink).1 hself ' ' (by decide)
    cases hend

end Retrieval
