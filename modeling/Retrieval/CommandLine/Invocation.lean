/-
# Invocations

A command line names a command, the directory of schema definitions and the entity that is asked
for.  The option for the configuration may stand in front of the command or behind it; the one behind
it wins.
-/
import Retrieval.CommandLine.Usage

namespace Retrieval.CommandLine

/-- Which command is given. -/
inductive CommandName where
  | filter
  | order
  | plan
  | render
  | count
deriving DecidableEq

namespace CommandName

/-- The word for a command. -/
def name : CommandName → String
  | filter => "filter"
  | order => "order"
  | plan => "plan"
  | render => "render"
  | count => "count"

/-- All commands. -/
def all : List CommandName := [filter, order, plan, render, count]

/-- The command of a word. -/
def ofName? (s : String) : Option CommandName := all.find? (·.name = s)

theorem ofName?_name (c : CommandName) : ofName? c.name = some c := by cases c <;> decide

end CommandName

/-- The records that a command reads: those of a file, or else those of the standard input. -/
structure Source where
  file : Option String
  query : Option String
deriving DecidableEq

/-- The page that is rendered. -/
structure PageRequest where
  order : Option String
  limit : Option Nat
  offset : Nat
  distinct : Bool
  maxLevel : Option Int
  /-- Whether the only selected record is rendered in place of a page. -/
  single : Bool
deriving DecidableEq

/-- A command with what it is given. -/
inductive Command where
  /-- Compile a filter. -/
  | filter (query : String)
  /-- Compile an order. -/
  | order (order : String)
  /-- Plan the relations. -/
  | plan (maxLevel : Option Int)
  /-- Render records. -/
  | render (source : Source) (page : PageRequest)
  /-- Count records. -/
  | count (source : Source)
deriving DecidableEq

/-- Whether the command reads the standard input. -/
def Command.readsInput : Command → Bool
  | render source _ | count source => source.file.isNone
  | _ => false

/-- What a command line asks for. -/
structure Invocation where
  /-- The file of the configuration. -/
  configuration : Option String
  /-- The directory of schema definitions. -/
  schemas : String
  entity : String
  command : Command
deriving DecidableEq

/-! ### Options -/

/-- The option for the file of the configuration. -/
def configurationOption : OptionSpec := ⟨"config", .path⟩

/-- The options of every command. -/
def commonOptions : List OptionSpec :=
  [configurationOption, ⟨"schemas", .path⟩, ⟨"entity", .text⟩]

/-- The options for the records that a command reads. -/
def sourceOptions : List OptionSpec := [⟨"data", .path⟩, ⟨"query", .text⟩]

/-- The word that asks for help on a command. -/
def helpWord : String := "help"

/-- What the words in front of a command may be. -/
def CommandSpec.program : CommandSpec :=
  ⟨[configurationOption], true, false, CommandName.all.map CommandName.name ++ [helpWord]⟩

/-- What the words behind a command may be. -/
def CommandName.spec : CommandName → CommandSpec
  | filter | order => ⟨commonOptions, false, true, []⟩
  | plan => ⟨commonOptions ++ [⟨"max-level", .integer⟩], false, false, []⟩
  | render =>
    ⟨commonOptions ++ sourceOptions ++
      [⟨"order", .text⟩, ⟨"limit", .natural⟩, ⟨"offset", .natural⟩, ⟨"distinct", .flag⟩,
        ⟨"max-level", .integer⟩, ⟨"single", .flag⟩], false, false, []⟩
  | count => ⟨commonOptions ++ sourceOptions, false, false, []⟩

/-! ### From words to invocations -/

namespace Reading

/-- The value of an option. -/
def value? (r : Reading) (name : String) : Option String := r.given.lookup name

/-- The value of an option for a natural number. -/
def natural? (r : Reading) (name : String) : Option Nat :=
  (r.value? name).bind CommandLine.natural?

/-- The value of an option for an integer. -/
def integer? (r : Reading) (name : String) : Option Int :=
  (r.value? name).bind ValueType.readInt64?

/-- Whether a flag is given. -/
def isGiven (r : Reading) (name : String) : Bool := (r.value? name).isSome

/-- The records to be read. -/
def source (r : Reading) : Source := ⟨r.value? "data", r.value? "query"⟩

/-- The page to be rendered. -/
def page (r : Reading) : PageRequest :=
  { order := r.value? "order"
    limit := r.natural? "limit"
    offset := (r.natural? "offset").getD 0
    distinct := r.isGiven "distinct"
    maxLevel := r.integer? "max-level"
    single := r.isGiven "single" }

/-- The command of what has been read, if nothing is missing. -/
def command? (r : Reading) : CommandName → Option Command
  | .filter => r.positional.map .filter
  | .order => r.positional.map .order
  | .plan => some (.plan (r.integer? "max-level"))
  | .render => some (.render r.source r.page)
  | .count => some (.count r.source)

/-- The invocation of what has been read, if nothing is missing. -/
def invocation? (r : Reading) (name : CommandName) : Option Invocation := do
  let entity ← r.value? "entity"
  let command ← r.command? name
  some ⟨r.value? "config", (r.value? "schemas").getD "./schemas", entity, command⟩

end Reading

/-- Read all words behind a command. -/
def CommandSpec.readAll (spec : CommandSpec) (words : List String) :
    Except UsageFault Reading := do
  let (r, _) ← spec.read .empty words
  r.settle

/-- What asking for help on some words ends in.  Help is for the program or for one command. -/
def helpFault : List String → UsageFault
  | [] => .displayHelp
  | [s] => if CommandSpec.program.subcommands.contains s then .displayHelp else .invalidSubcommand
  | _ => .invalidSubcommand

/-- The invocation of the words of a command line. -/
def Invocation.ofWords (words : List String) : Except UsageFault Invocation := do
  let (before, next) ← CommandSpec.program.read .empty words
  match next with
  | none => do
    let before ← before.settle
    .error (if before.given.isEmpty then .noArguments else .missingSubcommand)
  | some (word, behind) =>
    match CommandName.ofName? word with
    | none => .error (helpFault behind)
    | some name => do
      let r ← name.spec.readAll behind
      match r.invocation? name with
      | none => .error .missingRequiredArgument
      | some i => do
        let before ← before.settle
        .ok { i with configuration := i.configuration.or (before.value? "config") }

end Retrieval.CommandLine
