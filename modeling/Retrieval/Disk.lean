/-
# Files as data

What a program can see of files: the text of a file and the names in a directory, each of which may
be refused.  A tree of files with a working directory in it is one such view; paths are followed in it
name by name, under the limits that a file system sets to names and paths.
-/

namespace Retrieval

/-- Why a file or a directory cannot be read. -/
inductive AccessFault where
  | notFound
  | isDirectory
  | notDirectory
  /-- A name or a path is too long. -/
  | tooLong
  /-- A path holds the character that ends paths. -/
  | nullCharacter
  | notText
  /-- Any other refusal, in the words of the system. -/
  | other (text : String)
deriving DecidableEq

/-- The text of a refusal. -/
def AccessFault.message : AccessFault → String
  | notFound => "No such file or directory (os error 2)"
  | isDirectory => "Is a directory (os error 21)"
  | notDirectory => "Not a directory (os error 20)"
  | tooLong => "File name too long (os error 36)"
  | nullCharacter => "file name contained an unexpected NUL byte"
  | notText => "stream did not contain valid UTF-8"
  | other text => text

/-- A view of files and directories by path. -/
structure Disk where
  /-- The text of a file. -/
  read : String → Except AccessFault String
  /-- The names in a directory. -/
  list : String → Except AccessFault (List String)

/-- How many bytes a path may have. -/
def pathLimit : Nat := 4095

/-- What is wrong with a path before it is followed. -/
def pathFault? (path : String) : Option AccessFault :=
  if path.toList.contains '\x00' then some .nullCharacter
  else if path.isEmpty then some .notFound
  else if pathLimit < path.utf8ByteSize then some .tooLong
  else none

/-- The text of bytes in UTF-8. -/
def decodeText (bytes : ByteArray) : Except AccessFault String :=
  match String.fromUTF8? bytes with
  | some s => .ok s
  | none => .error .notText

/-- What a path leads to: a file with its bytes, or a directory. -/
inductive DiskEntry where
  | file (bytes : ByteArray)
  | directory

/-- Files and directories of a system. -/
structure DiskTree where
  /-- Files and directories with the names that lead to them from the root. -/
  entries : List (List String × DiskEntry)
  /-- The names that lead to the working directory. -/
  workingDirectory : List String

namespace DiskTree

/-- How many bytes a name may have. -/
def nameLimit : Nat := 255

/-- The names that a path gives a new file: those between slashes that lead anywhere. -/
def components (path : String) : List String :=
  (path.splitOn "/").filter fun name => name ≠ "" && name ≠ "."

/-- A system whose working directory holds the files and directories of given paths.  Besides them it
has the null device, which is an empty file. -/
def ofFiles (files : List (String × DiskEntry)) : DiskTree :=
  let here := ["tmp", "work"]
  ⟨(["dev", "null"], .file .empty) :: (here, .directory) ::
    files.map fun (path, e) => (here ++ components path, e), here⟩

/-- What a list of names leads to.  Whatever is in front of a file is a directory. -/
def entry? (t : DiskTree) (names : List String) : Option DiskEntry :=
  if names.isEmpty then some .directory
  else
    match t.entries.lookup names with
    | some e => some e
    | none =>
      if t.entries.any fun (other, _) => names.isPrefixOf other then some .directory else none

/-- Follow names from where other names lead, which has to be a directory for any further name.  An
empty name or a dot stays there, and two dots lead back, at the root nowhere else. -/
def walk (t : DiskTree) (here : List String) : List String → Except AccessFault (List String)
  | [] => .ok here
  | name :: rest =>
    match t.entry? here with
    | none => .error .notFound
    | some (.file _) => .error .notDirectory
    | some .directory =>
      if nameLimit < name.utf8ByteSize then .error .tooLong
      else if name = "" ∨ name = "." then t.walk here rest
      else if name = ".." then t.walk here.dropLast rest
      else t.walk (here ++ [name]) rest

/-- What a path leads to, and under which names.  A path leads from the root if it starts with a
slash, and else from the working directory. -/
def resolve (t : DiskTree) (path : String) : Except AccessFault (List String × DiskEntry) :=
  match pathFault? path with
  | some fault => .error fault
  | none => do
    let start := if path.startsWith "/" then [] else t.workingDirectory
    let names ← t.walk start (path.splitOn "/")
    match t.entry? names with
    | some e => .ok (names, e)
    | none => .error .notFound

/-- The text of a file. -/
def read (t : DiskTree) (path : String) : Except AccessFault String := do
  match ← t.resolve path with
  | (_, .file bytes) => decodeText bytes
  | (_, .directory) => .error .isDirectory

/-- The names in a directory. -/
def list (t : DiskTree) (path : String) : Except AccessFault (List String) := do
  match ← t.resolve path with
  | (_, .file _) => .error .notDirectory
  | (names, .directory) =>
    .ok ((t.entries.filterMap fun (other, _) =>
      if names.isPrefixOf other then (other.drop names.length).head? else none).eraseDups)

/-- The view of a tree. -/
def disk (t : DiskTree) : Disk := ⟨t.read, t.list⟩

end DiskTree

end Retrieval
