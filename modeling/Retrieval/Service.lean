/-
# The service

A service answers requests over one store: a page of records, the only record that a filter selects,
or the number of selected records.  The relations are planned first, then the filter and the order
are compiled through the cache, then the store is read and the records rendered.  A request logs its
beginning, what is done on the way and its end, as far as the level of the log admits it.
-/
import Retrieval.Filter.Cache
import Retrieval.Parameters
import Retrieval.Render

namespace Retrieval

/-- A service over the records of a graph. -/
structure Service (g : Graph) where
  store : Store g
  configuration : Configuration
  links : Links
  cache : Cache
  /-- The level of the log.  Events below it are dropped as they happen. -/
  level : Severity

/-- One page of rendered records. -/
structure Page where
  /-- How many records are selected on all pages. -/
  count : Nat
  offset : Nat
  limit : Nat
  results : List Json
deriving DecidableEq

/-- The JSON form of a page. -/
def Page.toJson (p : Page) : Json :=
  .ofMembers
    [("count", .int p.count), ("offset", .int p.offset), ("limit", .int p.limit),
      ("results", .array p.results)]

/-- What a request changes and leaves behind: the cache and the events of its log. -/
structure Session where
  cache : Cache
  /-- The level of the log. -/
  level : Severity
  /-- The events that are logged so far, the last first. -/
  events : List Event

/-- Log an event, unless it is below the level of the log. -/
def Session.log (s : Session) (e : Event) : Session :=
  if e.severity.enabledAt s.level then { s with events := e :: s.events } else s

@[simp] theorem Session.cache_log (s : Session) (e : Event) : (s.log e).cache = s.cache := by
  rw [log]
  split <;> rfl

@[simp] theorem Session.level_log (s : Session) (e : Event) : (s.log e).level = s.level := by
  rw [log]
  split <;> rfl

/-- A scope that was opened. -/
structure Observation where
  scope : Scope
  /-- Whether the end of the request is logged. -/
  finished : Bool

namespace Observation

/-- Open a scope. -/
def start (scope : Scope) : StateM Session Observation := do
  modify (·.log scope.begins)
  return ⟨scope, false⟩

/-- Drop a scope, which logs that the request broke off if the scope is not finished. -/
def drop (o : Observation) : StateM Session Unit :=
  if o.finished then pure () else modify (·.log o.scope.breaksOff)

/-- Finish a scope with an event.  The scope is dropped behind it. -/
def finish (o : Observation) (last : Event) : StateM Session Unit := do
  let o := { o with finished := true }
  modify (·.log last)
  o.drop

/-- The request is answered, with fields that tell of the answer. -/
def complete (o : Observation) (extra : List (String × String)) : StateM Session Unit :=
  o.finish (o.scope.completes extra)

/-- The request is refused, with the code and the text of the error. -/
def reject (o : Observation) (code message : String) : StateM Session Unit :=
  o.finish (o.scope.rejects code message)

end Observation

/-- A step of a request, which may refuse it. -/
abbrev Request (α : Type) := ExceptT Error (StateM Session) α

namespace Request

/-- Log an event. -/
def log (e : Event) : Request Unit := modify (·.log e)

/-- A step that changes and logs nothing. -/
def lift {ε α : Type} (wrap : ε → Error) : Except ε α → Request α
  | .ok a => pure a
  | .error e => throw (wrap e)

/-- Take from the cache, logging what had to be compiled.  The event is not even put together if
details are below the level of the log. -/
def cached {α : Type} (ask : Cache → CacheAnswer α) (event : α → Event) : Request α := do
  let session ← get
  let answer := ask session.cache
  set { session with cache := answer.cache }
  let a ← lift .query answer.result
  if answer.fresh && Severity.trace.enabledAt session.level then log (event a)
  pure a

end Request

namespace Event

/-- A relation plan was made. -/
def planned {g : Graph} (entity : String) (p : Plan g) : Event :=
  ⟨.trace, "RELATION_PLAN_BUILT",
    [("schema", entity), ("max_depth", toString p.maxDepth), ("nodes", toString p.nodeCount)],
    false⟩

/-- A filter was compiled. -/
def compiledFilter (entity filter : String) (p : Predicate) : Event :=
  ⟨.trace, "QUERY_COMPILED",
    [("schema", entity), ("query", filter), ("predicate", p.display)], false⟩

/-- An order was compiled. -/
def compiledOrder (entity order : String) (keys : List OrderKey) : Event :=
  ⟨.trace, "ORDER_COMPILED",
    [("schema", entity), ("order", order), ("keys", Text.joined "," (keys.map OrderKey.display))],
    false⟩

/-- Records were read. -/
def fetched (entity : String) (rows : Nat) : Event :=
  ⟨.trace, "STORE_FETCH", [("schema", entity), ("rows", toString rows)], false⟩

end Event

/-- The compiled form of a request. -/
structure Prepared (g : Graph) where
  plan : Plan g
  predicate : Option Predicate
  order : List OrderKey

namespace Prepared

variable {g : Graph}

/-- What the request asks of the store, on a page. -/
def selection (p : Prepared g) (offset : Nat) (limit : Option Nat) : Selection g :=
  ⟨p.predicate, p.order, offset, limit, some p.plan⟩

/-- Render a record of the root of the plan, as deep as it was planned. -/
def render (p : Prepared g) (links : Links) (row : Record) : Json :=
  p.plan.render links p.plan.root p.plan.maxDepth (.object row)

end Prepared

namespace Service

variable {g : Graph}

/-- A service over a store, which logs every event. -/
def of (store : Store g) (c : Configuration) : Service g :=
  ⟨store, c, Links.startingWith c.linkBase, Cache.empty c.cacheCapacity, .trace⟩

/-- The service with its log at another level. -/
def loggingAt (s : Service g) (level : Severity) : Service g := { s with level }

/-- Plan a request and compile its filter and order. -/
def prepare (s : Service g) (entity : String) (p : Parameters) : Request (Prepared g) := do
  let plan ←
    Request.lift .plan (g.planFor entity p.maxLevel s.configuration.maxLevelCeiling)
  Request.log (.planned entity plan)
  let predicate ←
    match p.query with
    | none => pure none
    | some filter =>
      some <$> Request.cached (·.filter g entity filter) (.compiledFilter entity filter)
  let order ←
    match p.order with
    | none => pure []
    | some order => Request.cached (·.order g entity order) (.compiledOrder entity order)
  pure ⟨plan, predicate, order⟩

/-- The steps of a request for a page. -/
def runList (s : Service g) (entity : String) (p : Parameters) : Request Page := do
  let prepared ← s.prepare entity p
  let q := prepared.selection p.offset (some p.limit)
  let count ← Request.lift .store (s.store.count entity q)
  let rows ← Request.lift .store (s.store.fetch entity q)
  Request.log (.fetched entity rows.length)
  pure ⟨count, p.offset, p.limit, rows.map (prepared.render s.links)⟩

/-- The steps of a request for the only selected record. -/
def runRetrieve (s : Service g) (entity : String) (p : Parameters) : Request Json := do
  let prepared ← s.prepare entity p
  Request.lift .store (Store.requireFilter entity prepared.predicate)
  let found ← Request.lift .store (s.store.fetch entity (prepared.selection 0 none))
  Request.log (.fetched entity found.length)
  let row ← Request.lift .store (Store.only entity found)
  pure (prepared.render s.links row)

/-- The steps of a request for the number of selected records. -/
def runSize (s : Service g) (entity : String) (p : Parameters) : Request Nat := do
  let prepared ← s.prepare entity p
  Request.lift .store (s.store.count entity (prepared.selection 0 none))

/-- What a service answers, the service after that and the events that are logged in order. -/
structure Outcome (g : Graph) (α : Type) where
  result : Except Error α
  service : Service g
  events : List Event

/-- Run a request in a scope, given the fields that tell what an answered one found. -/
def observed {α : Type} (scope : Scope) (request : Request α)
    (found : α → List (String × String)) : StateM Session (Except Error α) := do
  let observation ← Observation.start scope
  let result ← request.run
  match result with
  | .ok a => observation.complete (found a)
  | .error e => observation.reject e.code e.message
  return result

/-- Run a request named `name`, with the fields that tell what it found. -/
def run {α : Type} (s : Service g) (name entity : String) (request : Request α)
    (found : α → List (String × String)) : Outcome g α :=
  let (result, session) :=
    (observed ⟨name, [("entity", entity)]⟩ request found).run ⟨s.cache, s.level, []⟩
  ⟨result, { s with cache := session.cache }, session.events.reverse⟩

/-- Answer a request for a page of records. -/
def list (s : Service g) (entity : String) (p : Parameters) : Outcome g Page :=
  s.run "SNATCH_LIST" entity (s.runList entity p) fun page =>
    [("rows", toString page.results.length), ("count", toString page.count)]

/-- Answer a request for the only selected record. -/
def retrieve (s : Service g) (entity : String) (p : Parameters) : Outcome g Json :=
  s.run "SNATCH_RETRIEVE" entity (s.runRetrieve entity p) fun _ => []

/-- Answer a request for the number of selected records. -/
def size (s : Service g) (entity : String) (p : Parameters) : Outcome g Nat :=
  s.run "SNATCH_SIZE" entity (s.runSize entity p) fun n => [("count", toString n)]

end Service

end Retrieval
