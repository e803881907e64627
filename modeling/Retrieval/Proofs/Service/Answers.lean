/-
# What services answer

A request plans, compiles and reads the store.  What it comes to depends on the graph, the store and
the configuration only: the cache of the service, and with it every earlier request, shows in the
events that are logged and never in the result.
-/
import Retrieval.Proofs.Filter.Cache
import Retrieval.Service

namespace Retrieval

variable {g : Graph}

/-! ### Scopes -/

namespace Observation

variable (o : Observation) (session : Session)

lemma run_drop :
    o.drop.run session = ((), if o.finished then session else session.log o.scope.breaksOff) := by
  rw [drop]
  cases o.finished <;> rfl

/-- A scope that is finished logs nothing more when it is dropped. -/
lemma run_finish (last : Event) : (o.finish last).run session = ((), session.log last) :=
  run_drop { o with finished := true } (session.log last)

lemma run_finish_return {α : Type} (last : Event) (a : α) :
    (do o.finish last; return a : StateM Session α).run session = (a, session.log last) := by
  rw [StateT.run_bind, run_finish]
  rfl

end Observation

/-! ### Steps of requests -/

namespace Request

variable {α β : Type}

/-- What a step comes to in every session whose cache is sound, which it leaves sound. -/
def Gives (g : Graph) (r : Request α) (x : Except Error α) : Prop :=
  ∀ s : Session, s.cache.Sound g → ∃ s', (r.run s).run = (x, s') ∧ s'.cache.Sound g

lemma Gives.pure (a : α) : Gives g (pure a) (.ok a) :=
  fun s hs => ⟨s, rfl, hs⟩

lemma Gives.bind {r : Request α} {x : Except Error α} (h : r.Gives g x) {f : α → Request β}
    {y : α → Except Error β} (hf : ∀ a, (f a).Gives g (y a)) : (r >>= f).Gives g (x >>= y) := by
  intro s hs
  obtain ⟨s', hrun, hs'⟩ := h s hs
  have hbind : ((r >>= f).run s).run = ExceptT.bindCont f (r.run s).run.1 (r.run s).run.2 := rfl
  rw [hbind, hrun]
  cases x with
  | ok a => exact hf a s' hs'
  | error e => exact ⟨s', rfl, hs'⟩

lemma Gives.log (e : Event) : Gives g (log e) (.ok ()) :=
  fun s hs => ⟨s.log e, rfl, by rwa [Session.cache_log]⟩

lemma Gives.lift {ε : Type} (wrap : ε → Error) (x : Except ε α) :
    Gives g (lift wrap x) (x.mapError wrap) := by
  cases x with
  | ok a => exact Gives.pure a
  | error e => exact fun s hs => ⟨s, rfl, hs⟩

lemma Gives.map {r : Request α} {x : Except Error α} (h : r.Gives g x) (f : α → β) :
    (f <$> r).Gives g (f <$> x) := by
  rw [map_eq_pure_bind, map_eq_pure_bind]
  exact h.bind fun a => Gives.pure (f a)

/-- A step that logs does not change what those behind it come to. -/
lemma Gives.log_bind (e : Event) {f : Unit → Request β} {y : Except Error β}
    (hf : (f ()).Gives g y) : (Request.log e >>= f).Gives g y :=
  (Gives.log e).bind fun _ => hf

/-- What is taken from a sound cache is what is compiled. -/
lemma Gives.cached {ask : Cache → CacheAnswer α} {x : Except QueryError α}
    (h : ∀ c, c.Sound g → Cache.Answers g (ask c) x) (event : α → Event) :
    Gives g (cached ask event) (x.mapError .query) := by
  intro s hs
  obtain ⟨hresult, hsound⟩ := h s.cache hs
  -- once the cache is asked, only its answer counts
  let rest : Request α := do
    let a ← Request.lift .query (ask s.cache).result
    if (ask s.cache).fresh && Severity.trace.enabledAt s.level then Request.log (event a)
    Pure.pure a
  have hrest : rest.Gives g (x.mapError Error.query) := by
    rw [← bind_pure (x.mapError Error.query), ← hresult]
    refine (Gives.lift _ _).bind fun a => ?_
    cases (ask s.cache).fresh && Severity.trace.enabledAt s.level with
    | false => exact Gives.pure a
    | true => exact Gives.log_bind _ (Gives.pure a)
  exact hrest { s with cache := (ask s.cache).cache } hsound

end Request

/-! ### Requests without a cache -/

namespace Service

/-- What the filter of a request is compiled to. -/
def predicateFor (g : Graph) (entity : String) (p : Parameters) :
    Except Error (Option Predicate) :=
  match p.query with
  | none => .ok none
  | some filter => some <$> (g.compileFilter entity filter).mapError .query

/-- What the order of a request is compiled to. -/
def orderFor (g : Graph) (entity : String) (p : Parameters) : Except Error (List OrderKey) :=
  match p.order with
  | none => .ok []
  | some order => (g.compileOrder entity order).mapError .query

/-- What a request is compiled to. -/
def prepared (s : Service g) (entity : String) (p : Parameters) : Except Error (Prepared g) := do
  let plan ← (g.planFor entity p.maxLevel s.configuration.maxLevelCeiling).mapError .plan
  let predicate ← predicateFor g entity p
  let order ← orderFor g entity p
  .ok ⟨plan, predicate, order⟩

/-- The page that a request asks for. -/
def listed (s : Service g) (entity : String) (p : Parameters) : Except Error Page := do
  let prepared ← s.prepared entity p
  let q := prepared.selection p.offset (some p.limit)
  let count ← (s.store.count entity q).mapError .store
  let rows ← (s.store.fetch entity q).mapError .store
  .ok ⟨count, p.offset, p.limit, rows.map (prepared.render s.links)⟩

/-- The only record that a request selects. -/
def retrieved (s : Service g) (entity : String) (p : Parameters) : Except Error Json := do
  let prepared ← s.prepared entity p
  (Store.requireFilter entity prepared.predicate).mapError .store
  let found ← (s.store.fetch entity (prepared.selection 0 none)).mapError .store
  let row ← (Store.only entity found).mapError .store
  .ok (prepared.render s.links row)

/-- The number of records that a request selects. -/
def counted (s : Service g) (entity : String) (p : Parameters) : Except Error Nat := do
  let prepared ← s.prepared entity p
  (s.store.count entity (prepared.selection 0 none)).mapError .store

variable (s : Service g) (entity : String) (p : Parameters)

lemma gives_prepare : (s.prepare entity p).Gives g (s.prepared entity p) := by
  have hfilter : ∀ filter, Request.Gives g
      (Request.cached (·.filter g entity filter) (.compiledFilter entity filter))
      ((g.compileFilter entity filter).mapError .query) :=
    fun filter => .cached (fun c hc => hc.filter entity filter) _
  have horder : ∀ order, Request.Gives g
      (Request.cached (·.order g entity order) (.compiledOrder entity order))
      ((g.compileOrder entity order).mapError .query) :=
    fun order => .cached (fun c hc => hc.order entity order) _
  rw [prepared, predicateFor, orderFor]
  refine (Request.Gives.lift _ _).bind fun plan => Request.Gives.log_bind _ ?_
  cases p.query with
  | none =>
    refine (Request.Gives.pure _).bind fun predicate => ?_
    cases p.order with
    | none => exact (Request.Gives.pure _).bind fun _ => .pure _
    | some order => exact (horder order).bind fun _ => .pure _
  | some filter =>
    refine ((hfilter filter).map some).bind fun predicate => ?_
    cases p.order with
    | none => exact (Request.Gives.pure _).bind fun _ => .pure _
    | some order => exact (horder order).bind fun _ => .pure _

lemma gives_runList : (s.runList entity p).Gives g (s.listed entity p) := by
  refine (s.gives_prepare entity p).bind fun prepared => ?_
  refine (Request.Gives.lift _ _).bind fun count => (Request.Gives.lift _ _).bind fun rows => ?_
  exact Request.Gives.log_bind _ (.pure _)

lemma gives_runRetrieve : (s.runRetrieve entity p).Gives g (s.retrieved entity p) := by
  refine (s.gives_prepare entity p).bind fun prepared => (Request.Gives.lift _ _).bind fun _ => ?_
  refine (Request.Gives.lift _ _).bind fun found => Request.Gives.log_bind _ ?_
  exact (Request.Gives.lift _ _).bind fun row => .pure _

lemma gives_runSize : (s.runSize entity p).Gives g (s.counted entity p) :=
  (s.gives_prepare entity p).bind fun _ => .lift _ _

/-! ### Requests in scopes -/

/-- The event with which a request with a result leaves its scope. -/
def lastEvent {α : Type} (scope : Scope) (found : α → List (String × String)) :
    Except Error α → Event
  | .ok a => scope.completes (found a)
  | .error e => scope.rejects e.code e.message

/-- Between its first and its last event a request runs as it does without a scope: the scope is
finished when it is dropped. -/
lemma run_observed {α : Type} (scope : Scope) (request : Request α)
    (found : α → List (String × String)) (session : Session) :
    (observed scope request found).run session =
      let (x, session) := (request.run (session.log scope.begins)).run
      (x, session.log (lastEvent scope found x)) := by
  have hrun : (observed scope request found).run session =
      let (x, opened) := (request.run (session.log scope.begins)).run
      (match x with
        | .ok a => do Observation.complete ⟨scope, false⟩ (found a); return x
        | .error e => do Observation.reject ⟨scope, false⟩ e.code e.message; return x :
        StateM Session (Except Error α)).run opened := rfl
  rw [hrun]
  obtain ⟨x, opened⟩ := (request.run (session.log scope.begins)).run
  cases x with
  | ok a => exact Observation.run_finish_return ..
  | error e => exact Observation.run_finish_return ..

/-! ### Answers -/

variable {s}

/-- What a request comes to if the cache is sound, which it stays; nothing else changes. -/
lemma run_eq {α : Type} (hs : s.cache.Sound g) {request : Request α} {x : Except Error α}
    (h : request.Gives g x) (name : String) (found : α → List (String × String)) :
    (s.run name entity request found).result = x ∧
      ∃ c, c.Sound g ∧ (s.run name entity request found).service = { s with cache := c } := by
  have hopened : (Session.log ⟨s.cache, s.level, []⟩
      (Scope.begins ⟨name, [("entity", entity)]⟩)).cache.Sound g := by
    rwa [Session.cache_log]
  obtain ⟨session, hrun, hsound⟩ := h _ hopened
  rw [run, run_observed, hrun]
  exact ⟨rfl, _, hsound, by dsimp only; rw [Session.cache_log]⟩

/-- A request is answered as without a cache. -/
lemma result_list (hs : s.cache.Sound g) (entity : String) (p : Parameters) :
    (s.list entity p).result = s.listed entity p :=
  (run_eq entity hs (s.gives_runList entity p) _ _).1

lemma result_retrieve (hs : s.cache.Sound g) (entity : String) (p : Parameters) :
    (s.retrieve entity p).result = s.retrieved entity p :=
  (run_eq entity hs (s.gives_runRetrieve entity p) _ _).1

lemma result_size (hs : s.cache.Sound g) (entity : String) (p : Parameters) :
    (s.size entity p).result = s.counted entity p :=
  (run_eq entity hs (s.gives_runSize entity p) _ _).1

/-- A request to a service. -/
inductive Call where
  | list (entity : String) (p : Parameters)
  | retrieve (entity : String) (p : Parameters)
  | size (entity : String) (p : Parameters)

/-- What a request comes to. -/
inductive Answer where
  | page (result : Except Error Page)
  | record (result : Except Error Json)
  | number (result : Except Error Nat)

/-- The answer to a request, and the service after it. -/
def answer (s : Service g) : Call → Answer × Service g
  | .list entity p =>
    let o := s.list entity p
    (.page o.result, o.service)
  | .retrieve entity p =>
    let o := s.retrieve entity p
    (.record o.result, o.service)
  | .size entity p =>
    let o := s.size entity p
    (.number o.result, o.service)

/-- The answers to requests one after the other. -/
def answers (s : Service g) : List Call → List Answer
  | [] => []
  | call :: rest => (s.answer call).1 :: (s.answer call).2.answers rest

/-- The service after requests one after the other. -/
def after (s : Service g) : List Call → Service g
  | [] => s
  | call :: rest => (s.answer call).2.after rest

/-- The answer to a request without a cache. -/
def answered (s : Service g) : Call → Answer
  | .list entity p => .page (s.listed entity p)
  | .retrieve entity p => .record (s.retrieved entity p)
  | .size entity p => .number (s.counted entity p)

lemma answer_eq (hs : s.cache.Sound g) (call : Call) :
    (s.answer call).1 = s.answered call ∧
      ∃ c, c.Sound g ∧ (s.answer call).2 = { s with cache := c } := by
  cases call with
  | list entity p =>
    obtain ⟨hresult, hservice⟩ := run_eq entity hs (s.gives_runList entity p) _ _
    exact ⟨congrArg Answer.page hresult, hservice⟩
  | retrieve entity p =>
    obtain ⟨hresult, hservice⟩ := run_eq entity hs (s.gives_runRetrieve entity p) _ _
    exact ⟨congrArg Answer.record hresult, hservice⟩
  | size entity p =>
    obtain ⟨hresult, hservice⟩ := run_eq entity hs (s.gives_runSize entity p) _ _
    exact ⟨congrArg Answer.number hresult, hservice⟩

/-- Requests change nothing of a service but its cache, which stays sound. -/
lemma after_eq (hs : s.cache.Sound g) (calls : List Call) :
    ∃ c, c.Sound g ∧ s.after calls = { s with cache := c } := by
  induction calls generalizing s with
  | nil => exact ⟨s.cache, hs, rfl⟩
  | cons call rest ih =>
    obtain ⟨-, c, hc, hservice⟩ := answer_eq hs call
    obtain ⟨c', hc', hrest⟩ := ih (s := { s with cache := c }) hc
    exact ⟨c', hc', by rw [after, hservice, hrest]⟩

/-- The cache of a service does not show in its answers. -/
lemma answered_cache (c : Cache) : ({ s with cache := c } : Service g).answered = s.answered := by
  funext call
  cases call <;> rfl

/-- Requests one after the other are answered as if each came alone and nothing was kept. -/
lemma answers_eq (hs : s.cache.Sound g) (calls : List Call) :
    s.answers calls = calls.map s.answered := by
  induction calls generalizing s with
  | nil => rfl
  | cons call rest ih =>
    obtain ⟨hanswer, c, hc, hservice⟩ := answer_eq hs call
    rw [answers, List.map_cons, ← hanswer, hservice, ih hc, answered_cache]

lemma sound_of (store : Store g) (c : Configuration) : (of store c).cache.Sound g :=
  Cache.sound_empty g c.cacheCapacity

end Service

/-- **The cache does not show.**  Whatever requests a new service is asked, one after the other,
each comes to what a new service over the same store comes to that is switched to keep nothing.
And whatever a cache of any size is called for, it replies what compilation gives, or refuses. -/
theorem answers_eq_uncached (g : Graph) :
    (∀ (store : Store g) (c : Configuration) (calls : List Service.Call),
      (Service.of store c).answers calls =
        calls.map fun call =>
          ((Service.of store { c with cacheCapacity := 0 }).answer call).1) ∧
    ∀ (capacity : Nat) (calls : List Cache.Call),
      (Cache.empty capacity).replies g calls = calls.map (Cache.Call.compiled g) := by
  constructor
  · intro store c calls
    have hplain : ∀ call, ((Service.of store { c with cacheCapacity := 0 }).answer call).1 =
        (Service.of store c).answered call := by
      intro call
      rw [(Service.answer_eq (Service.sound_of store _) call).1]
      cases call <;> rfl
    rw [Service.answers_eq (Service.sound_of store c)]
    simp only [hplain]
  · intro capacity calls
    exact (Cache.sound_empty g capacity).replies calls

end Retrieval
