/-
# Configuration

A configuration is an object of JSON in which every field is optional and other members are not
looked at.
-/
import Retrieval.Disk
import Retrieval.Json.Reader
import Retrieval.Json.Record
import Retrieval.Link
import Retrieval.Log

namespace Retrieval

/-- What is wrong with a value of a configuration. -/
inductive SettingFault where
  | pageSizeZero
  | levelAboveCeiling (level ceiling : Nat)
  | linkBaseRelative (base : String)
deriving DecidableEq

namespace SettingFault

/-- The field with the value. -/
def field : SettingFault → String
  | pageSizeZero => "page_size"
  | levelAboveCeiling .. => "default_max_level"
  | linkBaseRelative .. => "link_prefix"

/-- What is wrong with it. -/
def reason : SettingFault → String
  | pageSizeZero => "must be > 0"
  | levelAboveCeiling level ceiling => s!"{level} exceeds max_level_ceiling {ceiling}"
  | linkBaseRelative base => s!"'{base}' must start with '/'"

end SettingFault

/-- Why a configuration is refused. -/
inductive ConfigurationError where
  | unreadable (path : String) (fault : AccessFault)
  /-- The text is not the JSON of a configuration. -/
  | malformed
  | invalidValue (fault : SettingFault)
deriving DecidableEq

namespace ConfigurationError

/-- The code under which the error is reported. -/
def code : ConfigurationError → String
  | unreadable .. => "SNATCH_CONFIG_UNREADABLE"
  | malformed => "SNATCH_CONFIG_MALFORMED"
  | invalidValue .. => "SNATCH_CONFIG_INVALID_VALUE"

/-- The text of the error. -/
def message : ConfigurationError → String
  | unreadable path fault => s!"Failed to read config '{path}': {fault.message}"
  | malformed => "Invalid config JSON: " ++ Json.refusal
  | invalidValue fault => s!"Invalid config value for '{fault.field}': {fault.reason}"

end ConfigurationError

/-- The settings of a service. -/
structure Configuration where
  /-- How many records a page has if a request does not say. -/
  pageSize : Nat
  /-- The depth of relations if a request does not say. -/
  defaultMaxLevel : Nat
  /-- The greatest depth that a request may ask for. -/
  maxLevelCeiling : Nat
  /-- How many compiled filters and orders are kept. -/
  cacheCapacity : Nat
  /-- The start of every link. -/
  linkBase : String
  logLevel : Severity
deriving DecidableEq

namespace Configuration

/-- The settings that are not given. -/
def default : Configuration := ⟨20, 1, 3, 256, Links.defaultBase, .info⟩

/-- The fields of the JSON form, in order. -/
def fieldNames : List String :=
  ["page_size", "default_max_level", "max_level_ceiling", "query_cache_capacity", "link_prefix",
    "log_level"]

/-- A natural number below a bound. -/
def natural? (bound : Nat) : Json → Option Nat
  | .number (.integer n) => if 0 ≤ n ∧ n < bound then some n.toNat else none
  | _ => none

/-- Read the JSON form of a configuration. -/
def ofJson? (v : Json) : Option Configuration := do
  let field ← v.fields? fieldNames 0
  let word := natural? 0x10000000000000000
  let level := natural? 0x100000000
  let pageSize ← Json.withDefault? word default.pageSize (field "page_size")
  let defaultMaxLevel ← Json.withDefault? level default.defaultMaxLevel (field "default_max_level")
  let ceiling ← Json.withDefault? level default.maxLevelCeiling (field "max_level_ceiling")
  let capacity ← Json.withDefault? word default.cacheCapacity (field "query_cache_capacity")
  let linkBase ← Json.withDefault? Json.string? default.linkBase (field "link_prefix")
  let logLevel ←
    Json.withDefault? (fun s => s.enumerator?.bind Severity.ofName?) default.logLevel
      (field "log_level")
  some ⟨pageSize, defaultMaxLevel, ceiling, capacity, linkBase, logLevel⟩

/-- The JSON form of a configuration. -/
def toJson (c : Configuration) : Json :=
  .ofMembers
    [("page_size", .int c.pageSize), ("default_max_level", .int c.defaultMaxLevel),
      ("max_level_ceiling", .int c.maxLevelCeiling),
      ("query_cache_capacity", .int c.cacheCapacity), ("link_prefix", .string c.linkBase),
      ("log_level", .string c.logLevel.name)]

/-- The first thing that is wrong with a configuration. -/
def fault? (c : Configuration) : Option SettingFault :=
  if c.pageSize = 0 then some .pageSizeZero
  else if c.maxLevelCeiling < c.defaultMaxLevel then
    some (.levelAboveCeiling c.defaultMaxLevel c.maxLevelCeiling)
  else if !c.linkBase.isEmpty && c.linkBase.toList.head? != some '/' then
    some (.linkBaseRelative c.linkBase)
  else none

/-- The configuration of a value in JSON. -/
def ofJson (v : Option Json) : Except ConfigurationError Configuration :=
  match v.bind ofJson? with
  | none => .error .malformed
  | some c =>
    match c.fault? with
    | some fault => .error (.invalidValue fault)
    | none => .ok c

/-- The configuration of a text in JSON. -/
def ofText (s : String) : Except ConfigurationError Configuration :=
  ofJson (Json.parseFields? fieldNames s)

/-- The configuration of a file. -/
def load (disk : Disk) (path : String) : Except ConfigurationError Configuration :=
  match disk.read path with
  | .ok s => ofText s
  | .error fault => .error (.unreadable path fault)

end Configuration

end Retrieval
