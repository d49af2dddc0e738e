import MiniLua.Failure
import MiniLua.Path

/-!
# Trees of files

A tree of files lists files and directories by their segments from the root; the directories on the
way to them exist too. A path is walked segment by segment: to go on from a file is an error, also
with `..` or a slash at its end. A segment has at most 255 bytes and a path less than 4096, and
neither holds the character zero.

## Delivered

- `FileError`: why a path cannot be read.
- `FileTree`, `FileTree.write`, `FileTree.walk`: trees, changes and paths in them.
- `FileTree.read`: the content of a file.
-/

set_option autoImplicit false

namespace MiniLua

/-- Why a path cannot be read. -/
inductive FileError where
  | missing
  | notDirectory
  | isDirectory
  | nameTooLong
  | invalidName
deriving DecidableEq

/-- The failure to read a path. A directory can be opened, but not read. -/
def FileError.failure (path : String) : FileError → Failure
  | .missing => .plain ("open " ++ path ++ ": no such file or directory")
  | .notDirectory => .plain ("open " ++ path ++ ": not a directory")
  | .isDirectory => .plain ("read " ++ path ++ ": is a directory")
  | .nameTooLong => .plain ("open " ++ path ++ ": file name too long")
  | .invalidName => .plain ("open " ++ path ++ ": invalid argument")

/-- The segments from the root to a place. -/
abbrev Segments := List (List Char)

/-- What is at a place. -/
inductive FileEntry where
  | file (content : Bytes)
  | directory

/-- Files and directories by place, the last change first, and the place where relative paths
start. -/
structure FileTree where
  start : Segments
  entries : List (Segments × FileEntry) := []

namespace FileTree

/-- What is at a place. The start of relative paths and whatever leads to an entry are
directories. -/
def entry? (t : FileTree) (place : Segments) : Option FileEntry :=
  match t.entries.lookup place with
  | some e => some e
  | none =>
    if place.isPrefixOf t.start || t.entries.any fun e => place.isPrefixOf e.1 then some .directory
    else none

/-- One segment further from a place. -/
def enter (t : FileTree) (place : Segments) (segment : List Char) : Except FileError Segments :=
  match t.entry? place with
  | some .directory =>
    if segment = [] ∨ segment = ['.'] then .ok place
    else if segment = ['.', '.'] then .ok place.dropLast
    else if 255 < (Text.encode (String.ofList segment)).length then .error .nameTooLong
    else
      match t.entry? (place ++ [segment]) with
      | some _ => .ok (place ++ [segment])
      | none => .error .missing
  | some (.file _) => .error .notDirectory
  | none => .error .missing

/-- The place that a path leads to. -/
def walk (t : FileTree) (path : String) : Except FileError Segments :=
  if '\x00' ∈ path.toList then .error .invalidName
  else if path = "" then .error .missing
  else if 4096 ≤ (Text.encode path).length then .error .nameTooLong
  else
    (Text.splitOn '/' path.toList).foldlM t.enter (if Path.isAbsolute path then [] else t.start)

/-- The content of the file at a path. -/
def read (t : FileTree) (path : String) : Except FileError Bytes :=
  match t.walk path with
  | .error e => .error e
  | .ok place =>
    match t.entry? place with
    | some (.file content) => .ok content
    | some .directory => .error .isDirectory
    | none => .error .missing

/-- The place that a path names by its text alone. -/
def placeOf (t : FileTree) (path : String) : Segments :=
  if Path.isAbsolute path then Path.cleanSegments path
  else
    let below := (Text.splitOn '/' path.toList).foldl (Path.descend true) t.start.reverse
    below.reverse

/-- The tree with a new file, or with a directory for a path that ends with a slash. -/
def write (t : FileTree) (path : String) (content : Bytes) : FileTree :=
  let entry := if path.toList.getLast? = some '/' then FileEntry.directory else .file content
  { t with entries := (t.placeOf path, entry) :: t.entries }

end FileTree
end MiniLua
