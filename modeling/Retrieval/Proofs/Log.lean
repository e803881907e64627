/-
# Lines of logs

An event is written as one line, and the line is the compact text of an object whose members are the
name of the event, its severity and its fields in byte order.  So it is read as the texts that the
event holds, whatever characters they are made of, and the order in which the fields are given does
not show.
-/
import Retrieval.Log
import Retrieval.Proofs.Json.Layout
import Retrieval.Proofs.Render.Content
import Retrieval.Proofs.Text.Order

namespace Retrieval

namespace Json

/-- An object of texts. -/
def ofTexts (texts : List (String × String)) : Json :=
  .object (texts.map fun (name, s) => (name, .string s))

lemma numberFree_ofTexts (texts : List (String × String)) (depth : Nat) :
    NumberFree (depth + 1) (ofTexts texts) := by
  refine .object fun m hm => ?_
  obtain ⟨x, -, rfl⟩ := List.mem_map.1 hm
  exact .string x.2

lemma canonicalMembers_texts (texts : List (String × String)) :
    canonicalMembers (texts.map fun (name, s) => (name, .string s)) =
      texts.map fun (name, s) => (name, .string s) := by
  induction texts with
  | nil => rfl
  | cons x texts ih => rw [List.map_cons, canonicalMembers, ih, canonical]

lemma lookup_map_string (texts : List (String × String)) (name : String) :
    (texts.map fun (name, s) => (name, string s)).lookup name = (texts.lookup name).map string := by
  induction texts with
  | nil => rfl
  | cons x texts ih =>
    rw [List.map_cons, List.lookup_cons, List.lookup_cons, ih]
    cases name == x.1 <;> rfl

/-- What stands under a name in an object of texts of which no two have the same name. -/
lemma get?_canonical_ofTexts {texts : List (String × String)} (h : (texts.map Prod.fst).Nodup)
    (name : String) : (ofTexts texts).canonical.get? name = (texts.lookup name).map .string := by
  have hnames : ((texts.map fun (name, s) => (name, string s)).map Prod.fst).Nodup := by
    simpa [Function.comp_def] using h
  rw [ofTexts, canonical, canonicalMembers_texts, get?, sortMembers,
    Render.member?_foldl_setMember hnames, lookup_map_string, member?, Option.or_none]

lemma moreMemberChars_texts (texts : List (String × String)) :
    moreMemberChars (texts.map fun (name, s) => (name, string s)) =
      texts.flatMap fun (name, s) => Event.fieldChars name s := by
  induction texts with
  | nil => rfl
  | cons x texts ih =>
    rw [List.map_cons, moreMemberChars, ih, List.flatMap_cons, chars]
    simp [Event.fieldChars]

end Json

namespace Event

/-- The fields of an event, in the order in which they are given. -/
def given (e : Event) (elapsed : Nat) : List (String × String) :=
  e.fields ++ if e.timed then [("elapsed_us", toString elapsed)] else []

/-- All that the line of an event tells. -/
def told (e : Event) (elapsed : Nat) : List (String × String) :=
  ("event", e.name) :: ("severity", e.severity.label) :: e.given elapsed

variable {e : Event} {elapsed : Nat}

/-- An event as an object of texts: its name, its severity and its fields in byte order. -/
def toJson (e : Event) (elapsed : Nat) : Json :=
  .ofTexts <|
    ("event", e.name) :: ("severity", e.severity.label) :: Plan.sortByName (e.given elapsed)

/-- The line of an event, its end aside, is the text of an object. -/
lemma text_eq : e.text elapsed = (e.toJson elapsed).text := by
  rw [text, Json.text, chars, toJson, Json.ofTexts, Json.chars, List.map_cons, List.map_cons,
    Json.memberChars, Json.moreMemberChars, Json.moreMemberChars_texts, Json.chars, Json.chars,
    fieldChars]
  simp [allFields, given]

lemma line_eq : e.line elapsed = (e.toJson elapsed).text ++ "\n" := by rw [line, text_eq]

lemma newline_notMem_text : '\n' ∉ (e.text elapsed).toList := by
  have hfield (key value : String) : '\n' ∉ fieldChars key value := by
    simp [fieldChars, Json.newline_notMem_quoted]
  simp [text, chars, Json.newline_notMem_quoted, hfield]

lemma parse?_text : Json.parse? (e.text elapsed) = some (Json.ofTexts
    (("event", e.name) :: ("severity", e.severity.label) :: e.allFields elapsed)) := by
  rw [text_eq]
  exact Json.parse?_of_laidOut (Json.numberFree_ofTexts _ 126) (Json.laidOut_text _)

lemma allFields_perm : (e.allFields elapsed).Perm (e.given elapsed) := List.mergeSort_perm _ _

/-- **Every line of a log is read as what it tells.**  If no key is given twice, and none is one of the
two that every line has, then the line has its only line break at the end, and in front of it an
object of texts: the name of the event, its severity and the fields as they were given, written in
byte order of their keys.  Giving the fields in another order changes nothing. -/
theorem line_decodable (h : ((e.told elapsed).map Prod.fst).Nodup) :
    ∃ body : String, e.line elapsed = body ++ "\n" ∧ '\n' ∉ body.toList ∧
      (∃ fields : List (String × String), fields.Perm (e.given elapsed) ∧
        fields.Pairwise (fun a b => Text.bytes a.1 < Text.bytes b.1) ∧
        Json.parse? body = some (.object (("event", .string e.name) ::
          ("severity", .string e.severity.label) :: fields.map fun (key, s) => (key, .string s)))) ∧
      (∃ v, Json.ofText? body = some v ∧ v.isObject = true ∧
        ∀ key, v.get? key = ((e.told elapsed).lookup key).map .string) ∧
      ∀ fields, fields.Perm e.fields → ({ e with fields } : Event).line elapsed = e.line elapsed := by
  have hgiven : ((e.given elapsed).map Prod.fst).Nodup := h.of_cons.of_cons
  have hsorted := Text.pairwise_bytes_mergeSort hgiven
  refine ⟨e.text elapsed, rfl, newline_notMem_text,
    ⟨e.allFields elapsed, allFields_perm, hsorted, parse?_text⟩,
    ⟨_, by rw [Json.ofText?, parse?_text, Option.map_some], rfl, fun key => ?_⟩,
    fun fields hperm => ?_⟩
  · have hperm : (("event", e.name) :: ("severity", e.severity.label) :: e.allFields elapsed).Perm
        (e.told elapsed) := (allFields_perm.cons _).cons _
    have hwritten := (hperm.map Prod.fst).nodup_iff.2 h
    rw [Json.get?_canonical_ofTexts hwritten, lookup_eq_of_perm hperm h]
  · have hgiven' : (({ e with fields } : Event).given elapsed).Perm (e.given elapsed) :=
      hperm.append_right _
    have hsame : ({ e with fields } : Event).allFields elapsed = e.allFields elapsed :=
      Text.mergeSort_eq_of_perm (hgiven'.trans allFields_perm.symm) hsorted
    rw [line, line, text, text, chars, chars, hsame]

/-- A filter that broke off at a quote, refused after a while: its line break and its control character
are read again, and so is the key with a quote in it. -/
theorem line_decodable_refused :
    ∃ body : String,
      line ⟨.warn, "SNATCH_LIST_REJECTED", [("input", "and(a.eq.\"x\n\x01"), ("\"é", "\\")], true⟩
        1500 = body ++ "\n" ∧ '\n' ∉ body.toList ∧
      ∃ v, Json.ofText? body = some v ∧
        v.get? "input" = some (.string "and(a.eq.\"x\n\x01") ∧
        v.get? "\"é" = some (.string "\\") ∧ v.get? "elapsed_us" = some (.string "1500") ∧
        v.get? "severity" = some (.string "WARN") ∧ v.get? "code" = none := by
  have hkeys : ((told ⟨.warn, "SNATCH_LIST_REJECTED",
      [("input", "and(a.eq.\"x\n\x01"), ("\"é", "\\")], true⟩ 1500).map Prod.fst).Nodup := by decide
  obtain ⟨body, hline, hbreak, -, ⟨v, hv, -, hget⟩, -⟩ := line_decodable hkeys
  exact ⟨body, hline, hbreak, v, hv, hget _, hget _, hget _, hget _, hget _⟩

end Event

/-! ### Streams of lines -/

namespace LogLines

/-- Lines without line breaks in them are read as they were written. -/
lemma readBack_lines {texts : List String} (h : ∀ text ∈ texts, '\n' ∉ text.toList) :
    readBack (texts.map (· ++ "\n")) = texts := by
  have hwritten : (texts.map (· ++ "\n")).flatMap String.toList =
      ['\n'].intercalate (texts.map String.toList ++ [[]]) := by
    clear h
    induction texts with
    | nil => rfl
    | cons text texts ih =>
      rw [List.map_cons, List.flatMap_cons, ih]
      cases texts <;> simp [List.intercalate]
  have hsplit : (['\n'].intercalate (texts.map String.toList ++ [[]])).splitOn '\n' =
      texts.map String.toList ++ [[]] :=
    Text.splitOn_intercalate_append (by simpa using h) []
  rw [readBack, hwritten, hsplit]
  simp

/-- The lines of events are read one by one, whatever characters the events are told in. -/
lemma readBack_map_line (events : List Event) (elapsed : Nat) :
    readBack (events.map (·.line elapsed)) = events.map (·.text elapsed) := by
  have hlines : ∀ text ∈ events.map (·.text elapsed), '\n' ∉ text.toList := by
    simp [Event.newline_notMem_text]
  rw [← readBack_lines hlines, List.map_map]
  rfl

end LogLines

end Retrieval
