import MiniLua.CommandLine.Run

/-!
# The program

The files that the arguments may name are read in two rounds: first the arguments themselves and the
manifest, then the files that a manifest lists. All else is `CommandLine.execute`. Repositories are
not read from a disk.

## Delivered

- `main`: read files, write the report, end with its status.
-/

set_option autoImplicit false

namespace MiniLua.CommandLine

/-- What became of reading the paths that were asked for. -/
abbrev KnownFiles := List (String × Except FileError Bytes)

/-- The world in which only some files are known. -/
def knownWorld (directory : String) (known : KnownFiles) : World where
  directory := directory
  file := fun path => (known.lookup path).getD (.error .missing)
  repository := fun _ => none

/-- What arguments may name: each of them, and what stands behind an equals sign. -/
def namesIn (args : List String) : List String :=
  manifestName :: args ++ args.map fun arg =>
    String.ofList ((arg.toList.dropWhile (· ≠ '=')).drop 1)

/-- The paths to read first. -/
def firstPaths (w : World) (args : List String) : List String :=
  let names := (namesIn args).filter (· ≠ "")
  names ++ names.map w.absolute

/-- The paths of the files that manifests among the names list. -/
def listedPaths (w : World) (args : List String) : List String :=
  (namesIn args).flatMap fun name =>
    match Manifest.load w name with
    | .ok m => m.sources.filterMap fun
      | .file s => some s.path
      | .repository _ => none
    | .error _ => []

/-- Read a file. A path that leads through a file fails when it is opened, and a directory only when
it is read; the first of these errors names its path. -/
def readPath (path : String) : IO (String × Except FileError Bytes) := do
  try
    let content ← IO.FS.readBinFile path
    return (path, .ok content.toList)
  catch e =>
    match e with
    | .inappropriateType (some _) _ _ => return (path, .error .notDirectory)
    | .inappropriateType none _ _ => return (path, .error .isDirectory)
    | .invalidArgument _ _ _ => return (path, .error .invalidName)
    | _ => return (path, .error .missing)

/-- The standard output shows colours. -/
def showsColors : IO Bool := do
  let off := (← IO.getEnv "NO_COLOR").any (· ≠ "") || (← IO.getEnv "TERM") = some "dumb"
  return !off && (← (← IO.getStdout).isTty)

end MiniLua.CommandLine

open MiniLua MiniLua.CommandLine in
/-- Read the files that may be needed, and do what the arguments say. -/
def main (args : List String) : IO UInt32 := do
  let directory := (← IO.currentDir).toString
  let first ← (firstPaths (knownWorld directory []) args).mapM readPath
  let listed ← (listedPaths (knownWorld directory first) args).mapM readPath
  let r := execute (knownWorld directory (first ++ listed)) (← showsColors) args
  IO.print r.out
  IO.eprint r.err
  match r.status? with
  | some code => return code.toUInt32
  | none =>
    match r.ending with
    | .crashed fault => IO.eprintln ("panic: " ++ fault.failure.text)
    | _ => pure ()
    return 2
