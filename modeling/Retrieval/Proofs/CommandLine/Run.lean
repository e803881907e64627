/-
# What running a command comes to

A command is not run if the schema graph cannot be loaded, or if the command reads records and these
are no JSON document or no records of the graph.  Nothing else that the command is given matters for
that.  A command that is run replies what the library answers, and whatever the library refuses is a
reply with the code and the text of the error.
-/
import Retrieval.Proofs.CommandLine.Data
import Retrieval.Proofs.CommandLine.Options
import Retrieval.Proofs.Json.Layout
import Retrieval.Proofs.Service.Pages

namespace Retrieval

/-! ### Documents -/

namespace CommandLine

/-- Whether the text that the records are read from is a JSON document with a value. -/
def Source.Holds (s : Source) (around : Surroundings) (v : Json) : Prop :=
  ∃ text, s.read around = .ok text ∧ Json.ofText? text = some v

lemma Source.document_eq_ok_iff {s : Source} {around : Surroundings} {v : Json} :
    s.document around = .ok v ↔ s.Holds around v := by
  rw [document, bind_eq_ok_iff]
  refine exists_congr fun text => and_congr_right fun _ => ?_
  split
  · next hblank => simp [Json.ofText?_of_isBlankText hblank]
  · cases Json.ofText? text <;> simp

/-- Where a command reads its records, if it reads any. -/
def Command.source? : Command → Option Source
  | render source _ | count source => some source
  | _ => none

/-- Why a command is not run: the schema graph is looked at first, then the document of the records
and then the records themselves. -/
inductive Invocation.Fails (i : Invocation) (around : Surroundings) : FatalError → Prop where
  | schemas {e : SchemaError} :
    Graph.load around.disk i.schemas = .error e → Fails i around (.schema e)
  | document {g : Graph} {loaded : Event} {s : Source} {e : FatalError} :
    Graph.load around.disk i.schemas = .ok (g, loaded) → i.command.source? = some s →
      s.document around = .error e → Fails i around e
  | fixture {g : Graph} {loaded : Event} {s : Source} {v : Json} {e : StoreError} :
    Graph.load around.disk i.schemas = .ok (g, loaded) → i.command.source? = some s →
      s.Holds around v → Store.ofFixture g v = .error e → Fails i around (.record e)

/-- What the library answers to a command that is run: the data that tells of its result, or the error
that it ends in. -/
inductive Invocation.Answers (i : Invocation) (around : Surroundings) (c : Configuration) :
    Except Error Json → Prop where
  | filter {g : Graph} {loaded : Event} {query : String} {x : Except Error Json} :
    Graph.load around.disk i.schemas = .ok (g, loaded) → i.command = .filter query →
      Tells ShowsFilter ((g.compileFilter i.entity query).mapError .query) x → Answers i around c x
  | order {g : Graph} {loaded : Event} {order : String} {x : Except Error Json} :
    Graph.load around.disk i.schemas = .ok (g, loaded) → i.command = .order order →
      Tells ShowsOrder ((g.compileOrder i.entity order).mapError .query) x → Answers i around c x
  | plan {g : Graph} {loaded : Event} {maxLevel : Option Int} {x : Except Error Json} :
    Graph.load around.disk i.schemas = .ok (g, loaded) → i.command = .plan maxLevel →
      Tells ShowsPlan
        ((g.planFor i.entity (maxLevel.getD c.defaultMaxLevel) c.maxLevelCeiling).mapError .plan) x →
      Answers i around c x
  | single {g : Graph} {loaded : Event} {s : Source} {page : PageRequest} {v : Json}
      {store : Store g} :
    Graph.load around.disk i.schemas = .ok (g, loaded) → i.command = .render s page →
      page.single = true → s.Holds around v → Store.ofFixture g v = .ok store →
      Answers i around c (page.asked c s.query >>= fun p =>
        ((Service.of store c).retrieve i.entity p).result)
  | page {g : Graph} {loaded : Event} {s : Source} {page : PageRequest} {v : Json}
      {store : Store g} {x : Except Error Json} :
    Graph.load around.disk i.schemas = .ok (g, loaded) → i.command = .render s page →
      page.single = false → s.Holds around v → Store.ofFixture g v = .ok store →
      Tells ShowsPage
        (page.asked c s.query >>= fun p => ((Service.of store c).list i.entity p).result) x →
      Answers i around c x
  | count {g : Graph} {loaded : Event} {s : Source} {v : Json} {store : Store g} :
    Graph.load around.disk i.schemas = .ok (g, loaded) → i.command = .count s →
      s.Holds around v → Store.ofFixture g v = .ok store →
      Answers i around c ((fun n : Nat => .int n) <$> ((Service.of store c).size i.entity
        { Parameters.defaults c with query := s.query.bind Parameters.nonBlank? }).result)

/-! ### Replies -/

namespace Answer

variable {α : Type} {wrap : α → Json}

lemma reply_ofWork (event : α → Event) (x : Except Error α) :
    (ofWork wrap event x).reply = .ofExcept id (wrap <$> x) := by
  cases x <;> rfl

lemma reply_ofOutcome {g : Graph} (o : Service.Outcome g α) :
    (ofOutcome wrap o).reply = .ofExcept id (wrap <$> o.result) := by
  rw [ofOutcome]
  cases o.result <;> rfl

lemma reply_ofRequest {c : Configuration} {entries : List (String × String)}
    {asked : Except Error Parameters} (h : Parameters.ofEntries c entries = asked)
    {ask : Parameters → Answer} {answer : Parameters → Except Error Json}
    (hask : ∀ p, (ask p).reply = .ofExcept id (answer p)) :
    (ofRequest c entries ask).reply = .ofExcept id (asked >>= answer) := by
  rw [ofRequest, h]
  cases asked with
  | error e => rfl
  | ok p => exact hask p

end Answer

/-- The level of the log does not show in what a service answers. -/
lemma result_loggingAt {g : Graph} (store : Store g) (c : Configuration) (level : Severity)
    (entity : String) (p : Parameters) :
    (((Service.of store c).loggingAt level).retrieve entity p).result =
        ((Service.of store c).retrieve entity p).result ∧
      (((Service.of store c).loggingAt level).list entity p).result =
        ((Service.of store c).list entity p).result ∧
      (((Service.of store c).loggingAt level).size entity p).result =
        ((Service.of store c).size entity p).result := by
  have hs := Service.sound_of store c
  have hlevel : ((Service.of store c).loggingAt level).cache.Sound g := hs
  refine ⟨?_, ?_, ?_⟩
  · rw [Service.result_retrieve hs, Service.result_retrieve hlevel]
    rfl
  · rw [Service.result_list hs, Service.result_list hlevel]
    rfl
  · rw [Service.result_size hs, Service.result_size hlevel]
    rfl

/-! ### Runs -/

lemma Source.store_of_holds {s : Source} {around : Surroundings} {v : Json}
    (h : s.Holds around v) (g : Graph) :
    s.store around g = (Store.ofFixture g v).mapError .record := by
  rw [store, document_eq_ok_iff.2 h]
  rfl

/-- What keeps the records of a command from being read keeps it from being run. -/
lemma Command.run_of_store {command : Command} {s : Source} {around : Surroundings} {g : Graph}
    {e : FatalError} (hs : command.source? = some s) (h : s.store around g = .error e)
    (c : Configuration) (entity : String) : command.run around c g entity = .error e := by
  cases command with
  | filter | order | plan => cases hs
  | render _ page | count =>
    obtain rfl := Option.some.inj hs
    rw [run, h]
    rfl

namespace Invocation

variable {i : Invocation} {around : Surroundings} {c : Configuration}

lemma result_execute {g : Graph} {loaded : Event}
    (h : Graph.load around.disk i.schemas = .ok (g, loaded)) :
    (i.execute around c).result = (i.command.run around c g i.entity).map Answer.reply := by
  rw [execute, h]
  dsimp only
  cases i.command.run around c g i.entity <;> rfl

lemma Fails.result_execute {e : FatalError} (h : i.Fails around e) (c : Configuration) :
    (i.execute around c).result = .error e := by
  cases h with
  | schemas h => rw [execute, h]
  | @document g _ s e hload hsource hdocument =>
    have hstore : s.store around g = .error e := by
      rw [Source.store, hdocument]
      rfl
    rw [Invocation.result_execute hload, Command.run_of_store hsource hstore]
    rfl
  | @fixture g _ s v e hload hsource hholds herror =>
    have hstore : s.store around g = .error (.record e) := by
      rw [Source.store_of_holds hholds, herror]
      rfl
    rw [Invocation.result_execute hload, Command.run_of_store hsource hstore]
    rfl

lemma Answers.result_execute (hrange : i.command.InRange) {x : Except Error Json}
    (h : i.Answers around c x) : (i.execute around c).result = .ok (.ofExcept id x) := by
  cases h with
  | filter hload hcommand htells =>
    rw [Invocation.result_execute hload, hcommand, Command.run, (tells_iff showsFilter_iff).1 htells]
    exact congrArg Except.ok (Answer.reply_ofWork _ _)
  | order hload hcommand htells =>
    rw [Invocation.result_execute hload, hcommand, Command.run, (tells_iff showsOrder_iff).1 htells]
    exact congrArg Except.ok (Answer.reply_ofWork _ _)
  | plan hload hcommand htells =>
    rw [Invocation.result_execute hload, hcommand, Command.run, (tells_iff showsPlan_iff).1 htells]
    exact congrArg Except.ok (Answer.reply_ofWork _ _)
  | @single g _ s page v store hload hcommand hsingle hholds hstore =>
    rw [hcommand] at hrange
    rw [Invocation.result_execute hload, hcommand, Command.run, Source.store_of_holds hholds, hstore]
    refine congrArg Except.ok (Answer.reply_ofRequest (ofEntries_page hrange c s) fun p => ?_)
    rw [if_pos hsingle, Answer.reply_ofOutcome, (result_loggingAt store c _ _ _).1, id_map]
  | @page g _ s page v store x hload hcommand hsingle hholds hstore htells =>
    rw [hcommand] at hrange
    rw [Invocation.result_execute hload, hcommand, Command.run, Source.store_of_holds hholds, hstore,
      (tells_iff showsPage_iff).1 htells, map_bind]
    refine congrArg Except.ok (Answer.reply_ofRequest (ofEntries_page hrange c s) fun p => ?_)
    rw [if_neg (by simp [hsingle]), Answer.reply_ofOutcome, (result_loggingAt store c _ _ _).2.1]
  | @count g _ s v store hload hcommand hholds hstore =>
    rw [Invocation.result_execute hload, hcommand, Command.run, Source.store_of_holds hholds, hstore]
    have hask : ∀ p, (Answer.ofOutcome (fun n : Nat => .int n)
        (((Service.of store c).loggingAt c.logLevel).size i.entity p)).reply =
          .ofExcept id
            ((fun n : Nat => .int n) <$> ((Service.of store c).size i.entity p).result) := by
      intro p
      rw [Answer.reply_ofOutcome, (result_loggingAt store c _ _ _).2.2]
    exact congrArg Except.ok (Answer.reply_ofRequest (ofEntries_count c s) hask)

/-- Records that are read are those of a store, or else the command is not run. -/
lemma fails_or_store {g : Graph} {loaded : Event} {s : Source}
    (hload : Graph.load around.disk i.schemas = .ok (g, loaded))
    (hs : i.command.source? = some s) :
    (∃ e, i.Fails around e) ∨ ∃ v store, s.Holds around v ∧ Store.ofFixture g v = .ok store := by
  cases hdocument : s.document around with
  | error e => exact .inl ⟨e, .document hload hs hdocument⟩
  | ok v =>
    have hholds := Source.document_eq_ok_iff.1 hdocument
    cases hstore : Store.ofFixture g v with
    | error e => exact .inl ⟨.record e, .fixture hload hs hholds hstore⟩
    | ok store => exact .inr ⟨v, store, hholds, hstore⟩

/-- A command is run or not. -/
lemma fails_or_answers (i : Invocation) (around : Surroundings) (c : Configuration) :
    (∃ e, i.Fails around e) ∨ ∃ x, i.Answers around c x := by
  cases hload : Graph.load around.disk i.schemas with
  | error e => exact .inl ⟨.schema e, .schemas hload⟩
  | ok loaded =>
    obtain ⟨g, loaded⟩ := loaded
    cases hcommand : i.command with
    | filter query => exact .inr ⟨_, .filter hload hcommand ((tells_iff showsFilter_iff).2 rfl)⟩
    | order order => exact .inr ⟨_, .order hload hcommand ((tells_iff showsOrder_iff).2 rfl)⟩
    | plan maxLevel => exact .inr ⟨_, .plan hload hcommand ((tells_iff showsPlan_iff).2 rfl)⟩
    | render s page =>
      obtain hfails | ⟨v, store, hholds, hstore⟩ := fails_or_store hload (by rw [hcommand]; rfl)
      · exact .inl hfails
      · cases hsingle : page.single with
        | true => exact .inr ⟨_, .single hload hcommand hsingle hholds hstore⟩
        | false =>
          exact .inr ⟨_, .page hload hcommand hsingle hholds hstore ((tells_iff showsPage_iff).2 rfl)⟩
    | count s =>
      obtain hfails | ⟨v, store, hholds, hstore⟩ := fails_or_store hload (by rw [hcommand]; rfl)
      · exact .inl hfails
      · exact .inr ⟨_, .count hload hcommand hholds hstore⟩

/-- A command is not run if the graph is not loaded, or if it reads records and there is no document
of them, or none that the graph admits. -/
lemma exists_fails_iff :
    (∃ e, i.Fails around e) ↔
      (∃ e, Graph.load around.disk i.schemas = .error e) ∨
        ∃ s, i.command.source? = some s ∧
          ((∀ v, ¬ s.Holds around v) ∨
            ∃ g loaded v e, Graph.load around.disk i.schemas = .ok (g, loaded) ∧
              s.Holds around v ∧ Store.ofFixture g v = .error e) := by
  constructor
  · rintro ⟨e, h⟩
    cases h with
    | schemas h => exact .inl ⟨_, h⟩
    | document hload hs hdocument =>
      refine .inr ⟨_, hs, .inl fun v hholds => ?_⟩
      rw [Source.document_eq_ok_iff.2 hholds] at hdocument
      cases hdocument
    | fixture hload hs hholds hstore =>
      exact .inr ⟨_, hs, .inr ⟨_, _, _, _, hload, hholds, hstore⟩⟩
  · rintro (⟨e, h⟩ | ⟨s, hs, hrecords⟩)
    · exact ⟨_, .schemas h⟩
    · cases hload : Graph.load around.disk i.schemas with
      | error e => exact ⟨_, .schemas hload⟩
      | ok loaded =>
        obtain hnone | ⟨g, loaded, v, e, hload, hholds, hstore⟩ := hrecords
        · obtain hfails | ⟨v, -, hholds, -⟩ := fails_or_store hload hs
          · exact hfails
          · exact absurd hholds (hnone v)
        · exact ⟨_, .fixture hload hs hholds hstore⟩

/-- **The command line is a faithful front end.**  Whatever the configuration, a command is not run
exactly if the schema graph is not loaded, or if it reads records and these are no JSON document or
are refused by the graph, checked in this order and before anything else that the command is given.
Otherwise it replies with the data that the library answers for the options as they are given, and
whatever the library refuses is a reply with the code and the text of that error. -/
theorem execute_faithful (i : Invocation) (around : Surroundings) (c : Configuration)
    (hrange : i.command.InRange) :
    (∀ e, (i.execute around c).result = .error e ↔ i.Fails around e) ∧
      ((∃ e, (i.execute around c).result = .error e) ↔
        (∃ e, Graph.load around.disk i.schemas = .error e) ∨
          ∃ s, i.command.source? = some s ∧
            ((∀ v, ¬ s.Holds around v) ∨
              ∃ g loaded v e, Graph.load around.disk i.schemas = .ok (g, loaded) ∧
                s.Holds around v ∧ Store.ofFixture g v = .error e)) ∧
      (∀ v, (i.execute around c).result = .ok (.data v) ↔ i.Answers around c (.ok v)) ∧
      ∀ code message, (i.execute around c).result = .ok (.error code message) ↔
        ∃ e, i.Answers around c (.error e) ∧ code = e.code ∧ message = e.message := by
  have hfails : ∀ e, (i.execute around c).result = .error e ↔ i.Fails around e := by
    refine fun e => ⟨fun h => ?_, fun h => h.result_execute c⟩
    obtain ⟨e', he'⟩ | ⟨x, hx⟩ := i.fails_or_answers around c
    · have heq := he'.result_execute c
      rw [h] at heq
      cases heq
      exact he'
    · rw [hx.result_execute hrange] at h
      cases h
  have hanswers : ∀ reply, (i.execute around c).result = .ok reply ↔
      ∃ x, i.Answers around c x ∧ Reply.ofExcept id x = reply := by
    refine fun reply => ⟨fun h => ?_, ?_⟩
    · obtain ⟨e, he⟩ | ⟨x, hx⟩ := i.fails_or_answers around c
      · rw [he.result_execute c] at h
        cases h
      · rw [hx.result_execute hrange] at h
        exact ⟨x, hx, Except.ok.inj h⟩
    · rintro ⟨x, hx, rfl⟩
      exact hx.result_execute hrange
  refine ⟨hfails, ?_, fun v => (hanswers _).trans ⟨?_, fun h => ⟨_, h, rfl⟩⟩,
    fun code message => (hanswers _).trans ⟨?_, ?_⟩⟩
  · rw [exists_congr hfails, exists_fails_iff]
  · rintro ⟨x | x, hx, hreply⟩
    · cases hreply
    · cases hreply
      exact hx
  · rintro ⟨x | x, hx, hreply⟩
    · cases hreply
      exact ⟨x, hx, rfl, rfl⟩
    · cases hreply
  · rintro ⟨e, he, rfl, rfl⟩
    exact ⟨_, he, rfl⟩

/-- A directory with one schema next to a file with two records, and a blank standard input. -/
def shelf : Surroundings where
  disk :=
    { read := fun path =>
        if path = "schemas/book.json" then
          .ok "\x7b\"name\":\"Book\",\"attributes\":[\x7b\"name\":\"id\",\"type\":\"int\"\x7d]\x7d"
        else if path = "books.json" then
          .ok "\x7b\"Book\":[\x7b\"id\":1\x7d,\x7b\"id\":2\x7d]\x7d"
        else .error .notFound
      list := fun path => if path = "schemas" then .ok ["book.json"] else .error .notFound }
  input := .ok " \n"

/-- The graph of the directory. -/
def bookGraph : Graph := ⟨1, #v[⟨"Book", none, "id", [⟨"id", .scalar .int⟩]⟩]⟩

/-- The records of the file. -/
def bookRecords : Json :=
  .object [("Book", .array [.object [("id", .int 1)], .object [("id", .int 2)]])]

/-- The store of the records. -/
def bookStore : Store bookGraph := ⟨#v[[[("id", .int 1)], [("id", .int 2)]]]⟩

/-- A command on the books of the directory. -/
def ofBooks (command : Command) : Invocation where
  configuration := none
  schemas := "schemas"
  entity := "Book"
  command := command

/-- Render a page of books, the first one passed over. -/
def renderBooks (file : Option String) (limit : Nat) : Command :=
  .render ⟨file, none⟩ ⟨none, some limit, 1, false, none, false⟩

/-- A filter and a page of records are replied as they are shown, and a limit out of range is refused
in a reply.  No limit is looked at if there are no records. -/
theorem execute_faithful_books :
    (∀ query, (ofBooks (.filter query)).command.InRange) ∧
    (∀ file limit, (ofBooks (renderBooks file limit)).command.InRange) ∧
    ((ofBooks (.filter "id.eq.2")).execute shelf .default).result =
      .ok (.data (.object [("display", .string "id exact 2"),
        ("predicate", .object [("compare", .object [("op", .string "exact"),
          ("path", .array [.string "id"]), ("value", .int 2)])])])) ∧
    ((ofBooks (renderBooks (some "books.json") 1)).execute shelf .default).result =
      .ok (.data (.object [("count", .int 2), ("limit", .int 1), ("offset", .int 1),
        ("results", .array [.object [("id", .int 2)]])])) ∧
    ((ofBooks (renderBooks (some "books.json") 1001)).execute shelf .default).result =
      .ok (.error "SNATCH_INVALID_PARAM" "Invalid value '1001' for parameter 'limit'") ∧
    ((ofBooks (renderBooks none 1001)).execute shelf .default).result = .error .emptyInput := by
  have hfilters : ∀ query, (ofBooks (.filter query)).command.InRange := fun _ => trivial
  have hpages : ∀ file limit, (ofBooks (renderBooks file limit)).command.InRange :=
    fun _ _ => ⟨show 1 < 0x10000000000000000 by decide, by simp⟩
  have hload : Graph.load shelf.disk "schemas" = .ok (bookGraph, ⟨.info, "SCHEMA_GRAPH_LOADED",
      [("dir", "schemas"), ("files", "1"), ("schemas", "1")], false⟩) := by decide +kernel
  have hholds : Source.Holds ⟨some "books.json", none⟩ shelf bookRecords :=
    ⟨"\x7b\"Book\":[\x7b\"id\":1\x7d,\x7b\"id\":2\x7d]\x7d", by decide +kernel, by decide +kernel⟩
  have hstore : Store.ofFixture bookGraph bookRecords = .ok bookStore := by decide +kernel
  refine ⟨hfilters, hpages, ?_, ?_, ?_, ?_⟩
  · obtain ⟨-, -, hdata, -⟩ := execute_faithful _ shelf .default (hfilters "id.eq.2")
    have hfilter : bookGraph.compileFilter "Book" "id.eq.2" =
        .ok (.compare ⟨["id"], .equal, .int 2, false⟩) := by decide +kernel
    refine (hdata _).2 (.filter hload rfl ?_)
    change Tells ShowsFilter ((bookGraph.compileFilter "Book" "id.eq.2").mapError .query) _
    rw [hfilter]
    exact .data ⟨_, _, .compare _, rfl⟩
  · obtain ⟨-, -, hdata, -⟩ :=
      execute_faithful _ shelf .default (hpages (some "books.json") 1)
    have hasked : PageRequest.asked ⟨none, some 1, 1, false, none, false⟩ .default none =
        .ok { Parameters.defaults .default with limit := 1, offset := 1 } := by decide +kernel
    have hpage : ((Service.of bookStore .default).list "Book"
        { Parameters.defaults .default with limit := 1, offset := 1 }).result =
          .ok ⟨2, 1, 1, [.object [("id", .int 2)]]⟩ := by
      have hroot : bookGraph.find? "Book" = some ⟨0, by decide⟩ := by decide +kernel
      rw [Service.result_list (Service.sound_of _ _), Service.listed_of_compiled hroot
        (Graph.plan_eq_ok_iff.2 ⟨by decide, rfl⟩) rfl rfl]
      simp only [Service.pageOf, Store.ordered_nil]
      decide +kernel
    refine (hdata _).2 (.page hload rfl rfl hholds hstore ?_)
    rw [hasked]
    change Tells ShowsPage ((Service.of bookStore .default).list "Book" _).result _
    rw [hpage]
    exact .data rfl
  · obtain ⟨-, -, -, hrefused⟩ :=
      execute_faithful _ shelf .default (hpages (some "books.json") 1001)
    have hasked : PageRequest.asked ⟨none, some 1001, 1, false, none, false⟩ .default none =
        .error (.invalidParameter "limit" "1001") := by decide +kernel
    have hanswers : (ofBooks (renderBooks (some "books.json") 1001)).Answers shelf .default
        (.error (.invalidParameter "limit" "1001")) := by
      refine .page hload rfl rfl hholds hstore ?_
      rw [hasked]
      exact .error _
    exact (hrefused _ _).2 ⟨_, hanswers, rfl, by decide +kernel⟩
  · obtain ⟨hfails, -⟩ := execute_faithful _ shelf .default (hpages none 1001)
    exact (hfails _).2 (.document hload rfl (by decide +kernel))

end Invocation

end CommandLine

end Retrieval
