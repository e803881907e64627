/-
# The program

The program reads the words of its command line, looks up the files that they name, runs the
invocation on what it found and writes what the run ends in.
-/
import Retrieval.CommandLine.Run

namespace Retrieval.CommandLine

/-- The number of an error, which the system gives with either sign. -/
def errorNumber (code : UInt32) : UInt32 := if code < 0x80000000 then code else 0 - code

/-- The refusal that an error of the system means. -/
def refusalOf (e : IO.Error) : AccessFault :=
  match e with
  | .noFileOrDirectory .. => .notFound
  | .inappropriateType _ code _ | .invalidArgument _ code _ =>
    match errorNumber code with
    | 20 => .notDirectory
    | 21 => .isDirectory
    | 36 => .tooLong
    | _ => .other (toString e)
  | .permissionDenied _ code details => .other s!"{details} (os error {errorNumber code})"
  | _ => .other (toString e)

/-- What an action finds, or the refusal of it. -/
def attempt {α : Type} (action : IO α) : IO (Except AccessFault α) := do
  try
    return .ok (← action)
  catch e =>
    return .error (refusalOf e)

/-- What an action finds that follows a path, or the refusal of it. -/
def attemptAt {α : Type} (path : String) (action : IO α) : IO (Except AccessFault α) :=
  match pathFault? path with
  | some fault => return .error fault
  | none => attempt action

/-- The text of a file. -/
def readText (path : String) : IO (Except AccessFault String) := do
  return (← attemptAt path (IO.FS.readBinFile path)).bind decodeText

/-- The names in a directory. -/
def readNames (path : String) : IO (Except AccessFault (List String)) :=
  attemptAt path do
    let entries ← (System.mkFilePath [path]).readDir
    return (entries.map (·.fileName)).toList

/-- The bytes of a stream from where it is to its end, behind those already read. -/
partial def readRest (stream : IO.FS.Stream) (bytes : ByteArray) : IO ByteArray := do
  let more ← stream.read 65536
  if more.isEmpty then return bytes else readRest stream (bytes ++ more)

/-- The paths of the files that an invocation may read. -/
def Invocation.files (i : Invocation) (names : List String) : List String :=
  let data :=
    match i.command with
    | .render source _ | .count source => source.file.toList
    | _ => []
  i.configuration.toList ++ data ++ (names.filter Schema.isDefinitionFile).map (Schema.filePath i.schemas)

/-- What an invocation can read. -/
def Invocation.lookAround (i : Invocation) : IO Surroundings := do
  let names ← readNames i.schemas
  let texts ← (i.files (names.toOption.getD [])).mapM fun path => do
    return (path, ← readText path)
  let input ←
    if i.command.readsInput then do
      let bytes ← attempt (do readRest (← IO.getStdin) .empty)
      pure (bytes.bind decodeText)
    else pure (.ok "")
  return {
    disk := {
      read := fun path => (texts.lookup path).getD (.error .notFound)
      list := fun path => if path = i.schemas then names else .error .notFound }
    input }

/-- Write lines to a stream. -/
def writeLines (stream : IO.FS.Stream) (lines : List String) : IO Unit := do
  for line in lines do
    stream.putStr line
  stream.flush

end Retrieval.CommandLine

open Retrieval.CommandLine in
/-- Run the program with the words of its command line. -/
def main (words : List String) : IO UInt32 := do
  match Invocation.ofWords words with
  | .error fault =>
    (← IO.getStderr).putStrLn fault.name
    return UInt32.ofNat fault.exitCode
  | .ok i =>
    let around ← i.lookAround
    let start ← IO.monoNanosNow
    let conclusion ← IO.lazyPure fun _ => i.run around
    let stop ← IO.monoNanosNow
    let lines := conclusion.lines ((stop - start) / 1000)
    writeLines (← IO.getStderr) lines.toAlarms
    writeLines (← IO.getStdout) lines.toOutput
    return UInt32.ofNat conclusion.exitCode
