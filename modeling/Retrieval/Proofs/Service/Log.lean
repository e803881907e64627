/-
# What requests log

A request tells of its beginning, of what is done on the way and of its end.  The level of the log
decides which of that is kept and nothing else: neither the answers nor the cache depend on it.
-/
import Retrieval.Proofs.Log
import Retrieval.Proofs.Service.Answers

namespace Retrieval

variable {g : Graph}

/-! ### Events that a level admits -/

/-- The severities from a level on. -/
def Severity.upward : Severity → List Severity
  | trace => [trace, info, warn, error]
  | info => [info, warn, error]
  | warn => [warn, error]
  | error => [error]

/-- The events that a log of a level keeps. -/
def Severity.admits (level : Severity) (events : List Event) : List Event :=
  events.filter (·.severity ∈ level.upward)

namespace Severity

variable (level : Severity)

lemma enabledAt_eq (s : Severity) : s.enabledAt level = decide (s ∈ level.upward) := by
  cases s <;> cases level <;> rfl

lemma admits_append (events events' : List Event) :
    level.admits (events ++ events') = level.admits events ++ level.admits events' :=
  List.filter_append ..

lemma admits_flatMap {α : Type} (f : α → List Event) (as : List α) :
    level.admits (as.flatMap f) = as.flatMap fun a => level.admits (f a) :=
  List.filter_flatMap ..

lemma admits_admits (events : List Event) :
    level.admits (level.admits events) = level.admits events := by
  rw [admits, admits, List.filter_filter]
  simp

lemma trace_admits (events : List Event) : trace.admits events = events := by
  refine List.filter_eq_self.mpr fun e _ => decide_eq_true ?_
  cases e.severity <;> simp [upward]

end Severity

lemma Session.log_eq (c : Cache) (level : Severity) (before : List Event) (e : Event) :
    Session.log ⟨c, level, before⟩ e = ⟨c, level, (level.admits [e]).reverse ++ before⟩ := by
  rw [Session.log, Severity.admits, List.filter_cons, Severity.enabledAt_eq]
  cases decide (e.severity ∈ level.upward) <;> rfl

namespace LogLines

variable (level : Severity) (elapsed : Nat) (events : List Event)

/-- A log writes what it keeps, warnings and errors apart from the rest. -/
lemma of_eq :
    of level elapsed events =
      { toOutput := ((level.admits events).filter (·.severity ∈ [.trace, .info])).map fun e =>
          (e.toJson elapsed).text ++ "\n"
        toAlarms := ((level.admits events).filter (·.severity ∈ [.warn, .error])).map fun e =>
          (e.toJson elapsed).text ++ "\n" } := by
  have hplain : (fun e : Event => !e.severity.isAlarm) =
      fun e => decide (e.severity ∈ [.trace, .info]) := by
    funext e
    cases e.severity <;> rfl
  have halarm : (fun e : Event => e.severity.isAlarm) =
      fun e => decide (e.severity ∈ [.warn, .error]) := by
    funext e
    cases e.severity <;> rfl
  simp only [of, Severity.enabledAt_eq, Event.line_eq]
  rw [hplain, halarm, Severity.admits]

end LogLines

namespace Event

/-- Whether the name of an event ends in `ending`. -/
def endsIn (e : Event) (ending : String) : Bool := ending.toList.isSuffixOf e.name.toList

/-- Whether an event is a beginning or an end of a request. -/
def isBoundary (e : Event) : Bool :=
  ["_BEGIN", "_COMPLETE", "_REJECTED", "_INCOMPLETE"].any e.endsIn

/-- The events of what is done for a request are no boundaries of it. -/
lemma isBoundary_of_name {e : Event}
    (h : e.name ∈ ["RELATION_PLAN_BUILT", "QUERY_COMPILED", "ORDER_COMPILED", "STORE_FETCH"]) :
    e.isBoundary = false := by
  have hnames : ∀ name ∈ ["RELATION_PLAN_BUILT", "QUERY_COMPILED", "ORDER_COMPILED", "STORE_FETCH"],
      (["_BEGIN", "_COMPLETE", "_REJECTED", "_INCOMPLETE"].any fun ending =>
        ending.toList.isSuffixOf name.toList) = false := by
    decide +kernel
  exact hnames _ h

lemma isBoundary_planned (entity : String) (p : Plan g) : (planned entity p).isBoundary = false :=
  isBoundary_of_name (by simp [planned])

lemma isBoundary_compiledFilter (entity filter : String) (p : Predicate) :
    (compiledFilter entity filter p).isBoundary = false :=
  isBoundary_of_name (by simp [compiledFilter])

lemma isBoundary_compiledOrder (entity order : String) (keys : List OrderKey) :
    (compiledOrder entity order keys).isBoundary = false :=
  isBoundary_of_name (by simp [compiledOrder])

lemma isBoundary_fetched (entity : String) (rows : Nat) :
    (fetched entity rows).isBoundary = false :=
  isBoundary_of_name (by simp [fetched])

end Event

/-! ### Steps of requests -/

namespace Request

variable {α β : Type}

/-- What a step does whatever the level of the log: with one cache it comes to a result and leaves
another cache, and of some events it logs those that the level admits. -/
def Does (r : Request α) (c : Cache) (x : Except Error α) (c' : Cache) (events : List Event) :
    Prop :=
  ∀ level before,
    (r.run ⟨c, level, before⟩).run = (x, ⟨c', level, (level.admits events).reverse ++ before⟩)

/-- Whether the level of the log has no influence on a step, which neither begins nor ends a
request. -/
def Discreet (r : Request α) : Prop :=
  ∀ c, ∃ x c' events, r.Does c x c' events ∧ ∀ e ∈ events, e.isBoundary = false

lemma Discreet.pure (a : α) : Discreet (pure a) :=
  fun c => ⟨.ok a, c, [], fun _ _ => rfl, by simp⟩

lemma Discreet.lift {ε : Type} (wrap : ε → Error) (x : Except ε α) : Discreet (lift wrap x) := by
  cases x with
  | ok a => exact .pure a
  | error e => exact fun c => ⟨.error (wrap e), c, [], fun _ _ => rfl, by simp⟩

lemma Discreet.log {e : Event} (he : e.isBoundary = false) : Discreet (log e) := by
  refine fun c => ⟨.ok (), c, [e], fun level before => ?_, by simpa using he⟩
  rw [← Session.log_eq]
  rfl

lemma Discreet.bind {r : Request α} (h : r.Discreet) {f : α → Request β}
    (hf : ∀ a, (f a).Discreet) : (r >>= f).Discreet := by
  intro c
  obtain ⟨x, c', events, hr, hevents⟩ := h c
  have hbind : ∀ s, ((r >>= f).run s).run = ExceptT.bindCont f (r.run s).run.1 (r.run s).run.2 :=
    fun _ => rfl
  cases x with
  | error e => exact ⟨.error e, c', events, fun level before => by rw [hbind, hr]; rfl, hevents⟩
  | ok a =>
    obtain ⟨y, c'', events', hfa, hevents'⟩ := hf a c'
    refine ⟨y, c'', events ++ events', fun level before => ?_, ?_⟩
    · rw [hbind, hr, Severity.admits_append, List.reverse_append, List.append_assoc]
      exact hfa level _
    · exact List.forall_mem_append.mpr ⟨hevents, hevents'⟩

lemma Discreet.map {r : Request α} (h : r.Discreet) (f : α → β) : (f <$> r).Discreet := by
  rw [map_eq_pure_bind]
  exact h.bind fun a => .pure (f a)

/-- The level that keeps the event from being put together would keep it from being logged. -/
lemma Discreet.cached (ask : Cache → CacheAnswer α) {event : α → Event}
    (hsev : ∀ a, (event a).severity = .trace) (hevent : ∀ a, (event a).isBoundary = false) :
    Discreet (cached ask event) := by
  intro c
  -- once the cache is asked, only its answer counts
  let rest (level : Severity) : Request α := do
    let a ← Request.lift .query (ask c).result
    if (ask c).fresh && Severity.trace.enabledAt level then Request.log (event a)
    Pure.pure a
  have hrun : ∀ level before, ((Request.cached ask event).run ⟨c, level, before⟩).run =
      ((rest level).run ⟨(ask c).cache, level, before⟩).run := fun _ _ => rfl
  cases hresult : (ask c).result with
  | error e =>
    refine ⟨.error (.query e), (ask c).cache, [], fun level before => ?_, by simp⟩
    simp only [hrun, rest, hresult]
    rfl
  | ok a =>
    cases hfresh : (ask c).fresh with
    | false =>
      refine ⟨.ok a, (ask c).cache, [], fun level before => ?_, by simp⟩
      simp only [hrun, rest, hresult, hfresh]
      rfl
    | true =>
      refine ⟨.ok a, (ask c).cache, [event a], fun level before => ?_, by simpa using hevent a⟩
      rw [← Session.log_eq, hrun]
      simp only [rest, hresult, hfresh, Bool.true_and]
      cases hlevel : Severity.trace.enabledAt level with
      | false =>
        rw [Session.log, hsev, if_neg (by simp [hlevel])]
        rfl
      | true => rfl

end Request

/-! ### Requests at two levels -/

namespace Service

section

variable (s : Service g) (entity : String) (p : Parameters)

lemma discreet_prepare : (s.prepare entity p).Discreet := by
  have hfilter : ∀ filter, Request.Discreet
      (Request.cached (·.filter g entity filter) (.compiledFilter entity filter)) :=
    fun filter => .cached _ (fun _ => rfl) (Event.isBoundary_compiledFilter entity filter)
  have horder : ∀ order, Request.Discreet
      (Request.cached (·.order g entity order) (.compiledOrder entity order)) :=
    fun order => .cached _ (fun _ => rfl) (Event.isBoundary_compiledOrder entity order)
  refine (Request.Discreet.lift _ _).bind fun plan => ?_
  refine (Request.Discreet.log (Event.isBoundary_planned entity plan)).bind fun _ => ?_
  cases p.query with
  | none =>
    refine (Request.Discreet.pure _).bind fun predicate => ?_
    cases p.order with
    | none => exact (Request.Discreet.pure _).bind fun _ => .pure _
    | some order => exact (horder order).bind fun _ => .pure _
  | some filter =>
    refine ((hfilter filter).map some).bind fun predicate => ?_
    cases p.order with
    | none => exact (Request.Discreet.pure _).bind fun _ => .pure _
    | some order => exact (horder order).bind fun _ => .pure _

lemma discreet_runList : (s.runList entity p).Discreet := by
  refine (s.discreet_prepare entity p).bind fun prepared => ?_
  refine (Request.Discreet.lift _ _).bind fun count => ?_
  refine (Request.Discreet.lift _ _).bind fun rows => ?_
  exact (Request.Discreet.log (Event.isBoundary_fetched entity _)).bind fun _ => .pure _

lemma discreet_runRetrieve : (s.runRetrieve entity p).Discreet := by
  refine (s.discreet_prepare entity p).bind fun prepared => ?_
  refine (Request.Discreet.lift _ _).bind fun _ => (Request.Discreet.lift _ _).bind fun found => ?_
  refine (Request.Discreet.log (Event.isBoundary_fetched entity _)).bind fun _ => ?_
  exact (Request.Discreet.lift _ _).bind fun row => .pure _

lemma discreet_runSize : (s.runSize entity p).Discreet :=
  (s.discreet_prepare entity p).bind fun _ => .lift _ _

/-- What a request that does `steps` comes to at any level of the log, and what it logs. -/
lemma run_loggingAt {α : Type} {request : Request α} {x : Except Error α} {c : Cache}
    {steps : List Event} (h : request.Does s.cache x c steps) (name : String)
    (found : α → List (String × String)) (level : Severity) :
    (s.loggingAt level).run name entity request found =
      ⟨x, ({ s with cache := c } : Service g).loggingAt level,
        level.admits (Scope.begins ⟨name, [("entity", entity)]⟩ ::
          (steps ++ [lastEvent ⟨name, [("entity", entity)]⟩ found x]))⟩ := by
  have hopened := h level (level.admits [Scope.begins ⟨name, [("entity", entity)]⟩]).reverse
  have hevents : ∀ first last : Event,
      level.admits (first :: (steps ++ [last])) =
        ((level.admits [last]).reverse ++
          ((level.admits steps).reverse ++ (level.admits [first]).reverse)).reverse := by
    intro first last
    rw [← List.singleton_append, Severity.admits_append, Severity.admits_append]
    simp only [List.reverse_append, List.reverse_reverse, List.append_assoc]
  rw [run, run_observed, hevents]
  simp only [loggingAt, Session.log_eq, List.append_nil, hopened]

end

/-! ### Requests in the log -/

/-- The name under which a request is logged. -/
def Call.name : Call → String
  | .list .. => "SNATCH_LIST"
  | .retrieve .. => "SNATCH_RETRIEVE"
  | .size .. => "SNATCH_SIZE"

/-- The entity that a request is about. -/
def Call.entity : Call → String
  | .list entity _ | .retrieve entity _ | .size entity _ => entity

/-- Why a request is refused, if it is. -/
def Answer.error? : Answer → Option Error
  | .page (.error e) | .record (.error e) | .number (.error e) => some e
  | _ => none

/-- What the log tells of an answer. -/
def Answer.findings : Answer → List (String × String)
  | .page (.ok shown) =>
    [("rows", toString shown.results.length), ("count", toString shown.count)]
  | .number (.ok n) => [("count", toString n)]
  | _ => []

/-- The event that begins a request. -/
def Call.beginning (call : Call) : Event where
  severity := .trace
  name := call.name ++ "_BEGIN"
  fields := [("entity", call.entity)]
  timed := false

/-- The event that ends a request with an answer. -/
def Call.ending (call : Call) (a : Answer) : Event :=
  match a.error? with
  | some e =>
    { severity := .warn
      name := call.name ++ "_REJECTED"
      fields := [("entity", call.entity), ("code", e.code), ("message", e.message)]
      timed := false }
  | none =>
    { severity := .trace
      name := call.name ++ "_COMPLETE"
      fields := ("entity", call.entity) :: a.findings
      timed := true }

/-- What a request logs. -/
def logs (s : Service g) : Call → List Event
  | .list entity p => (s.list entity p).events
  | .retrieve entity p => (s.retrieve entity p).events
  | .size entity p => (s.size entity p).events

/-- A request with its answer and its log. -/
structure Exchange where
  call : Call
  answer : Answer
  events : List Event

namespace Exchange

/-- Whether the log tells of the request from its beginning to the end that the answer is, and of no
other beginning or end. -/
def IsWhole (x : Exchange) : Prop :=
  ∃ steps, x.events = x.call.beginning :: (steps ++ [x.call.ending x.answer]) ∧
    (∀ e ∈ steps, e.isBoundary = false) ∧ ∀ e ∈ x.events, e.endsIn "_INCOMPLETE" = false

/-- The request with what a log of a level keeps of it. -/
def keptAt (x : Exchange) (level : Severity) : Exchange :=
  { x with events := level.admits x.events }

end Exchange

/-- Requests one after the other with their answers and their logs. -/
def exchanges (s : Service g) : List Call → List Exchange
  | [] => []
  | call :: rest => ⟨call, (s.answer call).1, s.logs call⟩ :: (s.answer call).2.exchanges rest

/-- All that requests log one after the other. -/
def logged (s : Service g) (calls : List Call) : List Event :=
  (s.exchanges calls).flatMap Exchange.events

variable (s : Service g)

lemma map_answer_exchanges (calls : List Call) :
    (s.exchanges calls).map Exchange.answer = s.answers calls := by
  induction calls generalizing s with
  | nil => rfl
  | cons call rest ih => rw [exchanges, List.map_cons, ih, answers]

lemma map_call_exchanges (calls : List Call) : (s.exchanges calls).map Exchange.call = calls := by
  induction calls generalizing s with
  | nil => rfl
  | cons call rest ih => rw [exchanges, List.map_cons, ih]

/-- What a request comes to that is run in a scope and has its result told in an answer. -/
lemma answer_of_run {α : Type} {call : Call} {request : Request α} (h : request.Discreet)
    (found : α → List (String × String)) (tell : Except Error α → Answer)
    (hanswer : ∀ level,
      let o := (s.loggingAt level).run call.name call.entity request found
      (s.loggingAt level).answer call = (tell o.result, o.service) ∧
        (s.loggingAt level).logs call = o.events)
    (hending : ∀ x, lastEvent ⟨call.name, [("entity", call.entity)]⟩ found x =
      call.ending (tell x)) :
    ∃ a c steps, (∀ e ∈ steps, e.isBoundary = false) ∧ ∀ level,
      (s.loggingAt level).answer call =
          (a, ({ s with cache := c } : Service g).loggingAt level) ∧
        (s.loggingAt level).logs call =
          level.admits (call.beginning :: (steps ++ [call.ending a])) := by
  obtain ⟨x, c, steps, hdoes, hsteps⟩ := h s.cache
  refine ⟨tell x, c, steps, hsteps, fun level => ?_⟩
  have hlevel := hanswer level
  rwa [s.run_loggingAt call.entity hdoes call.name found, hending] at hlevel

/-- What one request comes to at any level of the log, and what it logs. -/
lemma answer_loggingAt (call : Call) :
    ∃ a c steps, (∀ e ∈ steps, e.isBoundary = false) ∧ ∀ level,
      (s.loggingAt level).answer call =
          (a, ({ s with cache := c } : Service g).loggingAt level) ∧
        (s.loggingAt level).logs call =
          level.admits (call.beginning :: (steps ++ [call.ending a])) := by
  cases call with
  | list entity p =>
    exact s.answer_of_run (s.discreet_runList entity p) _ .page (fun _ => ⟨rfl, rfl⟩)
      (by rintro (_ | _) <;> rfl)
  | retrieve entity p =>
    exact s.answer_of_run (s.discreet_runRetrieve entity p) _ .record (fun _ => ⟨rfl, rfl⟩)
      (by rintro (_ | _) <;> rfl)
  | size entity p =>
    exact s.answer_of_run (s.discreet_runSize entity p) _ .number (fun _ => ⟨rfl, rfl⟩)
      (by rintro (_ | _) <;> rfl)

/-- The names of the first and the last event of a request say that it came to its end. -/
lemma Call.endsIn_boundary (call : Call) (a : Answer) :
    call.beginning.endsIn "_INCOMPLETE" = false ∧
      (call.ending a).endsIn "_INCOMPLETE" = false := by
  have hnames : ∀ name ∈ ["SNATCH_LIST", "SNATCH_RETRIEVE", "SNATCH_SIZE"],
      ∀ ending ∈ ["_BEGIN", "_COMPLETE", "_REJECTED"],
        "_INCOMPLETE".toList.isSuffixOf (name ++ ending).toList = false := by
    decide +kernel
  have hname : call.name ∈ ["SNATCH_LIST", "SNATCH_RETRIEVE", "SNATCH_SIZE"] := by
    cases call <;> simp [name]
  refine ⟨hnames _ hname "_BEGIN" (by simp), ?_⟩
  rw [ending]
  cases a.error? with
  | none => exact hnames _ hname "_COMPLETE" (by simp)
  | some e => exact hnames _ hname "_REJECTED" (by simp)

lemma Exchange.isWhole {call : Call} {a : Answer} {steps : List Event}
    (h : ∀ e ∈ steps, e.isBoundary = false) :
    Exchange.IsWhole ⟨call, a, call.beginning :: (steps ++ [call.ending a])⟩ := by
  obtain ⟨hbeginning, hending⟩ := call.endsIn_boundary a
  refine ⟨steps, rfl, h, List.forall_mem_cons.mpr ⟨hbeginning, List.forall_mem_append.mpr ⟨?_, ?_⟩⟩⟩
  · intro e he
    have hnot := h e he
    rw [Event.isBoundary, List.any_eq_false] at hnot
    exact Bool.eq_false_iff.mpr (hnot "_INCOMPLETE" (by simp))
  · exact List.forall_mem_singleton.mpr hending

lemma Exchange.keptAt_trace (x : Exchange) : x.keptAt .trace = x :=
  congrArg (Exchange.mk x.call x.answer) (Severity.trace_admits x.events)

/-- What requests one after the other come to at any level of the log, and what they log. -/
lemma exchanges_loggingAt (calls : List Call) :
    ∃ (xs : List Exchange) (c : Cache), (∀ x ∈ xs, x.IsWhole) ∧ ∀ level,
      (s.loggingAt level).exchanges calls = xs.map (·.keptAt level) ∧
        (s.loggingAt level).after calls = ({ s with cache := c } : Service g).loggingAt level := by
  induction calls generalizing s with
  | nil => exact ⟨[], s.cache, by simp, fun level => ⟨rfl, rfl⟩⟩
  | cons call rest ih =>
    obtain ⟨a, c, steps, hsteps, hone⟩ := s.answer_loggingAt call
    obtain ⟨xs, c', hxs, hrest⟩ := ih { s with cache := c }
    refine ⟨⟨call, a, call.beginning :: (steps ++ [call.ending a])⟩ :: xs, c',
      List.forall_mem_cons.mpr ⟨Exchange.isWhole hsteps, hxs⟩, fun level => ?_⟩
    obtain ⟨hanswer, hlogs⟩ := hone level
    rw [exchanges, after, hanswer, hlogs, (hrest level).1, (hrest level).2]
    exact ⟨rfl, rfl⟩

/-- **Logs are faithful and have no influence.**  With every event kept, the log of each request
begins with its begin and ends with its only end: that of an answered request, or else that of a
refused one with the code and the text of the error.  Whatever the level of the log, requests one
after the other have the same answers and leave the same cache, and what is logged is what a log with
every event kept has, less the events below the level.  Each of these is written as one line, the text
of an object, to the standard error if it is a warning or an error, else to the standard output. -/
theorem log_faithful (calls : List Call) :
    ((s.loggingAt .trace).exchanges calls).map Exchange.call = calls ∧
      (∀ x ∈ (s.loggingAt .trace).exchanges calls, x.IsWhole) ∧
      ∀ level,
        (s.loggingAt level).answers calls = (s.loggingAt .trace).answers calls ∧
        ((s.loggingAt level).after calls).cache = ((s.loggingAt .trace).after calls).cache ∧
        (s.loggingAt level).exchanges calls =
          ((s.loggingAt .trace).exchanges calls).map (·.keptAt level) ∧
        (s.loggingAt level).logged calls = level.admits ((s.loggingAt .trace).logged calls) ∧
        ∀ elapsed,
          let kept := level.admits ((s.loggingAt .trace).logged calls)
          LogLines.of level elapsed ((s.loggingAt level).logged calls) =
            { toOutput := (kept.filter (·.severity ∈ [.trace, .info])).map fun e =>
                (e.toJson elapsed).text ++ "\n"
              toAlarms := (kept.filter (·.severity ∈ [.warn, .error])).map fun e =>
                (e.toJson elapsed).text ++ "\n" } := by
  obtain ⟨xs, c, hwhole, hrun⟩ := s.exchanges_loggingAt calls
  have htrace : (s.loggingAt .trace).exchanges calls = xs := by
    rw [(hrun .trace).1]
    exact List.map_id'' Exchange.keptAt_trace xs
  refine ⟨map_call_exchanges _ calls, by rwa [htrace], fun level => ?_⟩
  have hexchanges := (hrun level).1
  have hlogged : (s.loggingAt level).logged calls =
      level.admits ((s.loggingAt .trace).logged calls) := by
    rw [logged, logged, hexchanges, htrace, Severity.admits_flatMap, List.flatMap_map]
    rfl
  refine ⟨?_, ?_, by rw [hexchanges, htrace], hlogged, fun elapsed => ?_⟩
  · rw [← map_answer_exchanges, ← map_answer_exchanges, hexchanges, htrace, List.map_map]
    rfl
  · rw [(hrun level).2, (hrun .trace).2]
    rfl
  · rw [hlogged, LogLines.of_eq, Severity.admits_admits]

end Service

end Retrieval
