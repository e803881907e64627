/-
# Reading command lines

The words of a command line are options, values and commands.  An option is `--name value` or
`--name=value`, a flag is `--name`; after `--` every word is a value.  Words are read from left to
right.  The value of an option is checked when the next option, or the end, shows that the option is
complete, so that of two mistakes the one reported is not always the first.
-/
import Retrieval.Filter.Coercion
import Retrieval.Parameters

namespace Retrieval.CommandLine

/-- Why a command line is not run. -/
inductive UsageFault where
  /-- Help is asked for. -/
  | displayHelp
  /-- The version is asked for. -/
  | displayVersion
  /-- There are no words, so help is shown. -/
  | noArguments
  | missingSubcommand
  | invalidSubcommand
  | missingRequiredArgument
  | unknownArgument
  /-- A value cannot be read. -/
  | valueValidation
  /-- An option has no value. -/
  | invalidValue
  /-- A flag has a value. -/
  | tooManyValues
  /-- An option is given twice. -/
  | argumentConflict
deriving DecidableEq

namespace UsageFault

/-- The name of the fault. -/
def name : UsageFault → String
  | displayHelp => "DisplayHelp"
  | displayVersion => "DisplayVersion"
  | noArguments => "DisplayHelpOnMissingArgumentOrSubcommand"
  | missingSubcommand => "MissingSubcommand"
  | invalidSubcommand => "InvalidSubcommand"
  | missingRequiredArgument => "MissingRequiredArgument"
  | unknownArgument => "UnknownArgument"
  | valueValidation => "ValueValidation"
  | invalidValue => "InvalidValue"
  | tooManyValues => "TooManyValues"
  | argumentConflict => "ArgumentConflict"

/-- The exit code of the program. -/
def exitCode : UsageFault → Nat
  | displayHelp | displayVersion => 0
  | _ => 2

end UsageFault

/-- What an option takes. -/
inductive ValueKind where
  | flag
  | text
  /-- A text that is not empty. -/
  | path
  /-- A natural number of 64 bits. -/
  | natural
  /-- An integer of the 64-bit signed range; a minus sign does not make it an option. -/
  | integer
deriving DecidableEq

/-- A natural number of 64 bits. -/
def natural? (s : String) : Option Nat := (readNatural? s.toList).filter (· < 0x10000000000000000)

/-- What is wrong with a value. -/
def ValueKind.fault? (k : ValueKind) (value : String) : Option UsageFault :=
  match k with
  | flag | text => none
  | path => if value.isEmpty then some .invalidValue else none
  | natural => if (natural? value).isSome then none else some .valueValidation
  | integer => if (ValueType.readInt64? value).isSome then none else some .valueValidation

/-- An option of a command. -/
structure OptionSpec where
  name : String
  kind : ValueKind
deriving DecidableEq

/-- What the words of a command may be. -/
structure CommandSpec where
  options : List OptionSpec
  /-- Whether the version can be asked for. -/
  hasVersion : Bool
  /-- Whether one value may stand without an option. -/
  hasPositional : Bool
  /-- The commands that may follow. -/
  subcommands : List String

/-- What has been read. -/
structure Reading where
  /-- The options that are complete, with their values. -/
  given : List (String × String)
  /-- The option that is not complete yet, with its value if that is read. -/
  pending : Option (OptionSpec × Option String)
  positional : Option String
  /-- Whether `--` was read. -/
  valuesOnly : Bool

namespace Reading

/-- Nothing has been read. -/
def empty : Reading := ⟨[], none, none, false⟩

/-- Whether an option lacks its value. -/
def isWaiting (r : Reading) : Bool := r.pending.any (·.2.isNone)

/-- Whether a number may be the value of the option that lacks one. -/
def expectsInteger (r : Reading) : Bool :=
  r.pending.any fun (o, value) => value.isNone && o.kind = .integer

/-- Take an option with its value. -/
def give (r : Reading) (o : OptionSpec) (value : String) : Except UsageFault Reading :=
  if (r.given.lookup o.name).isSome then .error .argumentConflict
  else
    match o.kind.fault? value with
    | some fault => .error fault
    | none => .ok { r with given := r.given ++ [(o.name, value)], pending := none }

/-- Complete the option that is not complete yet. -/
def settle (r : Reading) : Except UsageFault Reading :=
  match r.pending with
  | none => .ok r
  | some (_, none) => .error .invalidValue
  | some (o, some value) => r.give o value

end Reading

/-! ### Words -/

/-- Whether the characters behind a minus sign make it a number: digits, with a point that is not
the first of them and an exponent that is neither the first nor the last. -/
def looksNumeric (cs : List Char) : Bool :=
  let (whole, rest) := spanDigits cs
  let afterPoint :=
    match rest with
    | '.' :: more => (spanDigits more).2
    | more => more
  match afterPoint with
  | [] => !whole.isEmpty
  | e :: exponent =>
    (e = 'e' || e = 'E') && !whole.isEmpty && !exponent.isEmpty && exponent.all isDigit

/-- What a word looks like. -/
inductive Word where
  /-- The end of options. -/
  | escape
  /-- The name of an option, and a value behind an equals sign. -/
  | long (name : String) (value : Option String)
  /-- The letters behind a single hyphen. -/
  | short (letters : List Char)
  | plain
deriving DecidableEq

/-- What a word looks like. -/
def Word.of (s : String) : Word :=
  match s.toList with
  | ['-', '-'] => escape
  | '-' :: '-' :: cs =>
    let name := String.ofList (cs.takeWhile (· ≠ '='))
    match cs.dropWhile (· ≠ '=') with
    | [] => long name none
    | _ :: value => long name (some (String.ofList value))
  | '-' :: c :: cs => short (c :: cs)
  | _ => plain

/-- Read an option. -/
def CommandSpec.readLong (spec : CommandSpec) (r : Reading) (name : String)
    (value : Option String) : Except UsageFault Reading :=
  if name = "help" ∨ (name = "version" ∧ spec.hasVersion) then
    if value.isSome then .error .tooManyValues
    else do
      let _ ← r.settle
      .error (if name = "help" then .displayHelp else .displayVersion)
  else
    match spec.options.find? (·.name = name), value with
    | none, _ => .error .unknownArgument
    | some o, none => do
      let r ← r.settle
      if o.kind = .flag then r.give o "true" else .ok { r with pending := some (o, none) }
    | some o, some v =>
      if o.kind = .flag then .error .tooManyValues
      else do
        let r ← r.settle
        r.give o v

/-- Read the letters behind a single hyphen, of which only those for help and the version are
known. -/
def CommandSpec.readShort (spec : CommandSpec) (r : Reading) (letters : List Char) :
    Except UsageFault Reading :=
  match letters with
  | 'h' :: _ => do
    let _ ← r.settle
    .error .displayHelp
  | 'V' :: _ =>
    if spec.hasVersion then do
      let _ ← r.settle
      .error .displayVersion
    else .error .unknownArgument
  | _ => .error .unknownArgument

/-- Read a value without an option. -/
def CommandSpec.readPositional (spec : CommandSpec) (r : Reading) (s : String) :
    Except UsageFault Reading :=
  if spec.hasPositional ∧ r.positional = none then do
    let r ← r.settle
    .ok { r with positional := some s }
  else if spec.subcommands.isEmpty ∨ (r.valuesOnly ∧ s ∈ spec.subcommands) then
    .error .unknownArgument
  else .error .invalidSubcommand

/-- Read the words of a command up to a further command, which is returned with the words behind
it. -/
def CommandSpec.read (spec : CommandSpec) (r : Reading) :
    List String → Except UsageFault (Reading × Option (String × List String))
  | [] => .ok (r, none)
  | s :: rest =>
    if r.valuesOnly then do
      let r ← spec.readPositional r s
      spec.read r rest
    else if !r.isWaiting && spec.subcommands.contains s then .ok (r, some (s, rest))
    else
      let asValue : Except UsageFault Reading :=
        match r.pending with
        | some (o, none) => .ok { r with pending := some (o, some s) }
        | _ => spec.readPositional r s
      match Word.of s with
      | .escape => spec.read { r with valuesOnly := true } rest
      | .long name value => do
        let r ← spec.readLong r name value
        spec.read r rest
      | .short letters => do
        let r ←
          if r.expectsInteger && looksNumeric letters then asValue else spec.readShort r letters
        spec.read r rest
      | .plain => do
        let r ← asValue
        spec.read r rest

end Retrieval.CommandLine
