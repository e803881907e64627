/-
# Directories of schema definitions

The files of a directory whose names end in `.json` hold the definitions of a graph: each a
definition or an array of definitions.  They are read in increasing order of their names.
-/
import Retrieval.Log
import Retrieval.Schema.Graph

namespace Retrieval

namespace Schema

/-- Whether a name is that of a file of definitions: it has the extension `json`. -/
def isDefinitionFile (name : String) : Bool := name.endsWith ".json" && name ≠ ".json"

/-- The path of a file in a directory. -/
def filePath (dir name : String) : String := if dir.endsWith "/" then dir ++ name else dir ++ "/" ++ name

/-- The definitions of a file. -/
def readDefinitions (disk : Disk) (path : String) : Except SchemaError (List Definition) :=
  match disk.read path with
  | .error fault => .error (.malformed path (.file fault))
  | .ok s =>
    match (Json.parse? s).bind Definition.allOfJson? with
    | some ds => .ok ds
    | none => .error (.malformed path .notDefinitions)

/-- The names of the files of definitions in a directory, in increasing order. -/
def definitionFiles (disk : Disk) (dir : String) : Except SchemaError (List String) :=
  match disk.list dir with
  | .error fault => .error (.malformed dir (.directory fault))
  | .ok names =>
    .ok ((names.filter isDefinitionFile).mergeSort fun a b => decide (a ≤ b))

end Schema

namespace Graph

/-- The graph of a directory of definitions, and the event of its loading. -/
def load (disk : Disk) (dir : String) : Except SchemaError (Graph × Event) := do
  let names ← Schema.definitionFiles disk dir
  let definitions ← names.mapM fun name => Schema.readDefinitions disk (Schema.filePath dir name)
  let g ← build definitions.flatten
  .ok (g, ⟨.info, "SCHEMA_GRAPH_LOADED",
    [("dir", dir), ("files", toString names.length), ("schemas", toString g.size)], false⟩)

end Graph

end Retrieval
