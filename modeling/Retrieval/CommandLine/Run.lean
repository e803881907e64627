/-
# Running invocations

An invocation loads the configuration, then the schema graph, then runs its command and replies.
What refuses the command is a reply like any other; what keeps it from being run, an unusable file
or input, ends the program with a failure.
-/
import Retrieval.CommandLine.Invocation
import Retrieval.Reply
import Retrieval.Schema.Directory
import Retrieval.Service

namespace Retrieval.CommandLine

/-- Why a command is not run. -/
inductive FatalError where
  | configuration (e : ConfigurationError)
  | schema (e : SchemaError)
  | record (e : StoreError)
  /-- The file of the records cannot be read. -/
  | unreadableData (path : String) (fault : AccessFault)
  /-- The standard input cannot be read. -/
  | unreadableInput (fault : AccessFault)
  /-- There is nothing but blank space where records are expected. -/
  | emptyInput
  /-- What is read is not JSON. -/
  | malformedInput
deriving DecidableEq

namespace FatalError

/-- The code under which the error is reported. -/
def code : FatalError → String
  | configuration _ => "SNATCH_CLI_CONFIG_ERROR"
  | schema _ => "SNATCH_CLI_SCHEMA_ERROR"
  | record _ | unreadableData .. => "SNATCH_CLI_DATA_ERROR"
  | unreadableInput _ | emptyInput | malformedInput => "SNATCH_CLI_IO_ERROR"

/-- The text of the error; that of an inner error has the code of it behind. -/
def message : FatalError → String
  | configuration e => s!"{e.message} ({e.code})"
  | schema e => s!"{e.message} ({e.code})"
  | record e => s!"{e.message} ({e.code})"
  | unreadableData path fault => s!"Failed to read '{path}': {fault.message}"
  | unreadableInput fault => fault.message
  | emptyInput => "Empty input"
  | malformedInput => "JSON error: " ++ Json.refusal

end FatalError

/-- What a program can read. -/
structure Surroundings where
  disk : Disk
  /-- The text of the standard input. -/
  input : Except AccessFault String

/-- How a program ends. -/
structure Conclusion where
  /-- Whether the command was run. -/
  isRun : Bool
  /-- The level of the log. -/
  level : Severity
  /-- What happened, in order. -/
  events : List Event
  reply : Reply

namespace Conclusion

/-- The end of a program whose command is not run. -/
def fatal (level : Severity) (events : List Event) (e : FatalError) : Conclusion :=
  ⟨false, level, events, .error e.code e.message⟩

/-- The exit code of the program. -/
def exitCode (c : Conclusion) : Nat := if c.isRun then 0 else 1

/-- What the program writes: the lines of its log, then its reply. -/
def lines (c : Conclusion) (elapsed : Nat) : LogLines :=
  let written := LogLines.of c.level elapsed c.events
  { written with toOutput := written.toOutput ++ [c.reply.toJson.text ++ "\n"] }

end Conclusion

/-! ### Reading -/

/-- The configuration of an invocation. -/
def Invocation.loadConfiguration (i : Invocation) (disk : Disk) :
    Except ConfigurationError Configuration :=
  match i.configuration with
  | some path => Configuration.load disk path
  | none => .ok .default

/-- The text of the records. -/
def Source.read (s : Source) (around : Surroundings) : Except FatalError String :=
  match s.file with
  | some path => (around.disk.read path).mapError (.unreadableData path)
  | none => around.input.mapError .unreadableInput

/-- The value of the records. -/
def Source.document (s : Source) (around : Surroundings) : Except FatalError Json := do
  let text ← s.read around
  if Text.isBlankText text then .error .emptyInput
  else
    match Json.ofText? text with
    | none => .error .malformedInput
    | some v => .ok v

/-- The store of the records. -/
def Source.store (s : Source) (around : Surroundings) (g : Graph) : Except FatalError (Store g) := do
  let v ← s.document around
  (Store.ofFixture g v).mapError .record

/-! ### Running -/

/-- The parameters for the records that a command reads. -/
def Source.entries (s : Source) : List (String × String) :=
  (s.query.map (("query", ·))).toList

/-- The parameters for the page that is rendered. -/
def PageRequest.entries (p : PageRequest) : List (String × String) :=
  (p.order.map (("order", ·))).toList ++
    (p.limit.map fun n => ("limit", toString n)).toList ++
    (p.maxLevel.map fun n => ("max_level", toString n)).toList ++
    [("offset", toString p.offset), ("distinct", if p.distinct then "true" else "false")]

/-- The reply to a command and the events on the way. -/
structure Answer where
  reply : Reply
  events : List Event

namespace Answer

/-- The answer that ends a piece of work, whose success is worth an event. -/
def ofWork {α : Type} (wrap : α → Json) (event : α → Event) : Except Error α → Answer
  | .ok a => ⟨.data (wrap a), [event a]⟩
  | .error e => ⟨.refusal e, []⟩

/-- The answer of a service. -/
def ofOutcome {α : Type} {g : Graph} (wrap : α → Json) (o : Service.Outcome g α) : Answer :=
  ⟨.ofExcept wrap o.result, o.events⟩

/-- The answer to a request with parameters, which may be unusable. -/
def ofRequest (c : Configuration) (entries : List (String × String))
    (ask : Parameters → Answer) : Answer :=
  match Parameters.ofEntries c entries with
  | .ok p => ask p
  | .error e => ⟨.refusal e, []⟩

end Answer

/-- The JSON form of a compiled filter. -/
def describeFilter (p : Predicate) : Json :=
  .ofMembers [("predicate", p.toJson), ("display", .string p.display)]

/-- The JSON form of a compiled order. -/
def describeOrder (keys : List OrderKey) : Json :=
  .ofMembers
    [("keys", .array (keys.map OrderKey.toJson)),
      ("display", .array (keys.map fun k => .string k.display))]

/-- Run a command on the entity of a graph. -/
def Command.run (command : Command) (around : Surroundings) (c : Configuration) (g : Graph)
    (entity : String) : Except FatalError Answer :=
  match command with
  | filter query =>
    .ok (.ofWork describeFilter (.compiledFilter entity query)
      ((g.compileFilter entity query).mapError .query))
  | order text =>
    .ok (.ofWork describeOrder (.compiledOrder entity text)
      ((g.compileOrder entity text).mapError .query))
  | plan maxLevel =>
    let depth := maxLevel.getD c.defaultMaxLevel
    .ok (.ofWork Plan.toJson (.planned entity)
      ((g.planFor entity depth c.maxLevelCeiling).mapError .plan))
  | render source page => do
    let service := (Service.of (← source.store around g) c).loggingAt c.logLevel
    .ok (.ofRequest c (source.entries ++ page.entries) fun p =>
      if page.single then .ofOutcome id (service.retrieve entity p)
      else .ofOutcome Page.toJson (service.list entity p))
  | count source => do
    let service := (Service.of (← source.store around g) c).loggingAt c.logLevel
    .ok (.ofRequest c source.entries fun p =>
      .ofOutcome (fun n : Nat => .int n) (service.size entity p))

/-- What running a command with a configuration comes to, and the events on the way. -/
structure Execution where
  result : Except FatalError Reply
  events : List Event

/-- Load the schema graph of an invocation and run its command. -/
def Invocation.execute (i : Invocation) (around : Surroundings) (c : Configuration) : Execution :=
  match Graph.load around.disk i.schemas with
  | .error e => ⟨.error (.schema e), []⟩
  | .ok (g, loaded) =>
    match i.command.run around c g i.entity with
    | .error e => ⟨.error e, [loaded]⟩
    | .ok answer => ⟨.ok answer.reply, loaded :: answer.events⟩

/-- Run an invocation. -/
def Invocation.run (i : Invocation) (around : Surroundings) : Conclusion :=
  match i.loadConfiguration around.disk with
  | .error e => .fatal Configuration.default.logLevel [] (.configuration e)
  | .ok c =>
    let x := i.execute around c
    match x.result with
    | .error e => .fatal c.logLevel x.events e
    | .ok reply => ⟨true, c.logLevel, x.events, reply⟩

end Retrieval.CommandLine
