/-
# Directories of definitions

However definitions are distributed over the files of a directory, one to a file or in arrays, and in
whatever layout they are written, the directory is loaded to what is built of them in byte order of
the names of the files.  Other files do not matter.
-/
import Retrieval.Proofs.Schema.JsonForm
import Retrieval.Proofs.Text.Order
import Retrieval.Schema.Directory

namespace Retrieval

namespace Schema

/-- Whether a name has the extension `json`, which needs something in front of it. -/
def HasExtension (name : String) : Prop := ∃ stem, stem ≠ "" ∧ name = stem ++ ".json"

lemma isDefinitionFile_iff {name : String} : isDefinitionFile name = true ↔ HasExtension name := by
  have hends : name.endsWith ".json" = true ↔ ∃ stem, name = stem ++ ".json" := by
    rw [← String.endsWith_toSlice, String.Slice.endsWith_string_iff, String.copy_toSlice]
    constructor
    · rintro ⟨cs, hcs⟩
      refine ⟨String.ofList cs, ?_⟩
      rw [← String.toList_inj, String.toList_append, String.toList_ofList, hcs]
    · rintro ⟨stem, rfl⟩
      exact ⟨stem.toList, by simp⟩
  rw [isDefinitionFile, Bool.and_eq_true, hends, decide_eq_true_iff]
  constructor
  · rintro ⟨⟨stem, rfl⟩, hne⟩
    refine ⟨stem, ?_, rfl⟩
    rintro rfl
    exact hne rfl
  · rintro ⟨stem, hstem, rfl⟩
    refine ⟨⟨stem, rfl⟩, fun h => hstem ?_⟩
    simpa using h

/-- Whether a file holds definitions: a single one, or any number of them in an array. -/
def Holds (text : String) (ds : List Definition) : Prop :=
  (∃ d v, ds = [d] ∧ d.Form v ∧ v.LaidOut text) ∨
    ∃ forms, List.Forall₂ Definition.Form ds forms ∧ (Json.array forms).LaidOut text

/-- A definition is read from each of its texts. -/
lemma Definition.ofJson?_of_laidOut {d : Definition} {v : Json} {text : String} (h : d.Form v)
    (htext : v.LaidOut text) : (Json.parse? text).bind ofJson? = some d := by
  rw [Json.parse?_of_laidOut (numberFree_of_form h 124) htext, Option.bind_some, ofJson?_of_form h]

/-- A file is read to the definitions that it holds. -/
lemma Holds.allOfJson? {text : String} {ds : List Definition} (h : Holds text ds) :
    (Json.parse? text).bind Definition.allOfJson? = some ds := by
  rcases h with ⟨d, v, rfl, hform, htext⟩ | ⟨forms, hforms, htext⟩
  · have hread := Definition.ofJson?_of_laidOut hform htext
    rw [Json.parse?_of_laidOut (Definition.numberFree_of_form hform 124) htext,
      Option.bind_some] at hread ⊢
    rw [Definition.allOfJson?, hread]
  · have hplain : Json.NumberFree Json.maxNesting (.array forms) := by
      refine .array fun form hform => ?_
      obtain ⟨d, -, hd⟩ := (exists_of_forall₂ hforms).2 form hform
      exact Definition.numberFree_of_form hd 123
    rw [Json.parse?_of_laidOut hplain htext, Option.bind_some, Definition.allOfJson?,
      Definition.ofJson?_array_of_form hforms]
    exact Json.list?_of_forall₂ (hforms.imp fun _ _ => Definition.ofJson?_of_form)

lemma Holds.readDefinitions {disk : Disk} {path text : String} {ds : List Definition}
    (h : Holds text ds) (hread : disk.read path = .ok text) :
    Schema.readDefinitions disk path = .ok ds := by
  rw [Schema.readDefinitions, hread]
  simp only [h.allOfJson?]

/-- The files of definitions are listed in byte order, whatever order the directory has them in. -/
lemma definitionFiles_eq {disk : Disk} {dir : String} {listing names others : List String}
    (hlist : disk.list dir = .ok listing) (hlisting : listing.Perm (names ++ others))
    (hnames : ∀ name ∈ names, HasExtension name) (hothers : ∀ name ∈ others, ¬ HasExtension name)
    (horder : names.Pairwise fun a b => Text.bytes a < Text.bytes b) :
    definitionFiles disk dir = .ok names := by
  have hkept : names.filter isDefinitionFile = names :=
    List.filter_eq_self.2 fun name hname => isDefinitionFile_iff.2 (hnames name hname)
  have hdropped : others.filter isDefinitionFile = [] :=
    List.filter_eq_nil_iff.2 fun name hname => mt isDefinitionFile_iff.1 (hothers name hname)
  have hperm : (listing.filter isDefinitionFile).Perm names := by
    have hfilter := hlisting.filter isDefinitionFile
    rwa [List.filter_append, hkept, hdropped, List.append_nil] at hfilter
  have hsorted : (listing.filter isDefinitionFile).mergeSort (fun a b => decide (a ≤ b)) = names :=
    Text.mergeSort_eq_of_perm hperm horder
  rw [definitionFiles, hlist]
  exact congrArg Except.ok hsorted

end Schema

open Schema in
/-- **A directory is loaded to the graph of the definitions in it.**  The files with the extension
`json` are taken in byte order of their names, and each holds a definition or an array of definitions
in some layout.  What the graph of all of them comes to, or the fault that is found in them, is what
loading the directory comes to.  Each definition is read from its form as it was written, and no array
of definitions is read as a single one. -/
theorem Graph.load_eq_build (disk : Disk) (dir : String)
    {files : List (String × List Definition)} {listing others : List String}
    (hlist : disk.list dir = .ok listing)
    (hlisting : listing.Perm (files.map Prod.fst ++ others))
    (hnames : ∀ file ∈ files, HasExtension file.1)
    (hothers : ∀ name ∈ others, ¬ HasExtension name)
    (horder : files.Pairwise fun a b => Text.bytes a.1 < Text.bytes b.1)
    (hread : ∀ file ∈ files, ∃ text,
      disk.read (filePath dir file.1) = .ok text ∧ Holds text file.2) :
    (load disk dir).map Prod.fst = build (files.flatMap Prod.snd) ∧
    (∀ d : Definition, d.Form d.toJson) ∧
    (∀ (d : Definition) (v : Json), d.Form v → Definition.ofJson? v = some d ∧
      ∀ text, v.LaidOut text → (Json.parse? text).bind Definition.ofJson? = some d) ∧
    ∀ (ds : List Definition) (forms : List Json), List.Forall₂ Definition.Form ds forms →
      Definition.ofJson? (.array forms) = none := by
  refine ⟨?_, Definition.form_toJson, fun _ _ h => ⟨Definition.ofJson?_of_form h,
    fun _ => Definition.ofJson?_of_laidOut h⟩, fun _ _ => Definition.ofJson?_array_of_form⟩
  have hfiles : definitionFiles disk dir = .ok (files.map Prod.fst) :=
    definitionFiles_eq hlist hlisting (by simpa using hnames) hothers (List.pairwise_map.2 horder)
  have hdefinitions : (files.map Prod.fst).mapM
      (fun name => readDefinitions disk (filePath dir name)) = .ok (files.map Prod.snd) := by
    rw [mapM_eq_ok_iff, List.forall₂_map_left_iff, List.forall₂_map_right_iff, List.forall₂_same]
    intro file hfile
    obtain ⟨text, htext, hholds⟩ := hread file hfile
    exact hholds.readDefinitions htext
  have hload : load disk dir = (build (files.flatMap Prod.snd)).bind fun g => .ok (g,
      ⟨.info, "SCHEMA_GRAPH_LOADED", [("dir", dir), ("files", toString (files.map Prod.fst).length),
        ("schemas", toString g.size)], false⟩) := by
    simp only [load, hfiles, hdefinitions, bind, Except.bind]
    rfl
  rw [hload]
  cases build (files.flatMap Prod.snd) <;> rfl

/-- Two schemas that point at each other. -/
def kennelPerson : Schema.Definition :=
  ((Schema.Definition.ofName "Person").scalar "id" .int).toMany "pets" "Pet" "owner"

/-- The other one, with a key of its own. -/
def kennelPet : Schema.Definition :=
  { (((Schema.Definition.ofName "Pet").scalar "tag" .string).toOne "owner" "Person" true) with
    primaryKey := "tag", space := some "zoo" }

/-- The files in which they stand, one alone and the other in an array, next to an empty array. -/
def kennelFiles : List (String × List Schema.Definition) :=
  [("empty.json", []), ("person.json", [kennelPerson]), ("zoo.json", [kennelPet])]

/-- A directory with these files and others. -/
def kennelDisk : Disk where
  read path :=
    if path = "schemas/person.json" then .ok kennelPerson.toJson.text
    else if path = "schemas/zoo.json" then .ok (Json.array [kennelPet.toJson]).text
    else if path = "schemas/empty.json" then .ok "[ ]\n"
    else .error .notText
  list path :=
    if path = "schemas" then .ok ["zoo.json", "notes.txt", "empty.json", ".json", "person.json"]
    else .error .notFound

open Schema in
theorem Graph.load_eq_build_kennel :
    (load kennelDisk "schemas").map Prod.fst = build [kennelPerson, kennelPet] ∧
    Definition.ofJson? (.array [kennelPerson.toJson, kennelPet.toJson]) = none := by
  have hempty : (Json.array []).LaidOut "[ ]\n" := by
    refine ⟨['[', ' ', ']'], ['\n'], ?_, by decide, rfl⟩
    have hclose : Json.Laid [[']']] ([' '] ++ [']'] ++ []) := .cons (by decide) .nil
    exact .cons Json.blank_nil hclose
  have hlisting : ["zoo.json", "notes.txt", "empty.json", ".json", "person.json"].Perm
      (kennelFiles.map Prod.fst ++ ["notes.txt", ".json"]) := by decide
  have hnames : ∀ file ∈ kennelFiles, HasExtension file.1 := by
    simp only [kennelFiles, List.forall_mem_cons, ← isDefinitionFile_iff]
    decide +kernel
  have hothers : ∀ name ∈ ["notes.txt", ".json"], ¬ HasExtension name := by
    simp only [List.forall_mem_cons, ← isDefinitionFile_iff]
    decide +kernel
  have horder : kennelFiles.Pairwise fun a b => Text.bytes a.1 < Text.bytes b.1 := by
    simp only [kennelFiles, Text.bytes_lt_iff]
    decide
  have hread : ∀ file ∈ kennelFiles, ∃ text,
      kennelDisk.read (filePath "schemas" file.1) = .ok text ∧ Holds text file.2 := by
    have hpath (name : String) : filePath "schemas" name = "schemas/" ++ name := by
      have hends : "schemas".endsWith "/" = false := by decide +kernel
      rw [filePath, hends]
      rfl
    simp only [kennelFiles, List.forall_mem_cons, hpath]
    refine ⟨⟨"[ ]\n", rfl, .inr ⟨[], .nil, hempty⟩⟩,
      ⟨kennelPerson.toJson.text, rfl,
        .inl ⟨_, _, rfl, Definition.form_toJson _, Json.laidOut_text _⟩⟩,
      ⟨(Json.array [kennelPet.toJson]).text, rfl,
        .inr ⟨_, .cons (Definition.form_toJson _) .nil, Json.laidOut_text _⟩⟩, by simp⟩
  obtain ⟨hload, hform, -, harray⟩ :=
    load_eq_build kennelDisk "schemas" rfl hlisting hnames hothers horder hread
  exact ⟨hload, harray [kennelPerson, kennelPet] _ (.cons (hform _) (.cons (hform _) .nil))⟩

end Retrieval
