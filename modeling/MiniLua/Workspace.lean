import MiniLua.Loader

/-!
# Workspaces

A workspace is a tree of files together with the repositories in it. The history of a repository lies
in a directory `.git` beside its files. An address leads to that directory: by itself, with the name
of the directory added, or with the ending that such names have.

## Delivered

- `Workspace`, `Workspace.world`: files and repositories as a world to load from.
- `addressPath`, `Workspace.repositoryAt?`: from an address to a repository.
- `Workspace.addRepository`: a repository with its working files.
-/

set_option autoImplicit false

namespace MiniLua

/-- Files, and repositories by the places of their histories. -/
structure Workspace where
  tree : FileTree
  repositories : List (Segments × Repository) := []

/-- The path that an address names. Behind the scheme of files it follows the name of a machine, and
may be written with percent signs. -/
def addressPath (url : String) : String :=
  let scheme := "file://".toList
  if url.toList.take scheme.length |>.map Char.toLower |> (· = scheme) then
    let rest := (url.toList.drop scheme.length).dropWhile fun c => c ≠ '/' && c ≠ '?' && c ≠ '#'
    let front := rest.takeWhile (· ≠ '#')
    let path := front.takeWhile (· ≠ '?')
    let query := front.drop path.length
    let fragment := rest.drop front.length
    String.ofList (Text.percentDecoded path ++ (if query.length = 1 then [] else query) ++
      (if fragment.length = 1 then [] else Text.percentDecoded fragment))
  else url

namespace Workspace

/-- The name of the directory in which a repository keeps its history. -/
def historyName : List Char :=
  ".git".toList

/-- The paths at which a repository may be found, in the order of trial. Slashes at the end of the
given path do not count. -/
def repositoryPaths (path : String) : List String :=
  let cs := path.toList.reverse
  let bare := if cs.all (· = '/') then cs.take 1 else cs.dropWhile (· = '/')
  ["/.git", "", ".git/.git", ".git"].map fun ending => String.ofList bare.reverse ++ ending

/-- The repository at a path. The first of the paths that leads to a file or to a history decides. -/
def repositoryAt? (ws : Workspace) (path : String) : Option Repository :=
  let found := (repositoryPaths path).findSome? fun p =>
    match ws.tree.walk p with
    | .error _ => none
    | .ok place =>
      match ws.repositories.lookup place, ws.tree.entry? place with
      | some r, _ => some (some r)
      | none, some (.file _) => some none
      | none, _ => none
  found.join

/-- What can be read in a workspace. -/
def world (ws : Workspace) : World where
  directory := String.ofList ('/' :: ['/'].intercalate ws.tree.start)
  file := ws.tree.read
  repository := fun url => ws.repositoryAt? (addressPath url)

/-- The workspace with a new file or directory. -/
def write (ws : Workspace) (path : String) (content : Bytes) : Workspace :=
  { ws with tree := ws.tree.write path content }

/-- The workspace with a repository at a path. The files of its current commit lie there too. -/
def addRepository (ws : Workspace) (path : String) (r : Repository) : Workspace :=
  let place := ws.tree.placeOf path
  let history := place ++ [historyName]
  let files := r.workingFiles.map fun (below, content) => (place ++ below, FileEntry.file content)
  { tree := { ws.tree with entries := files ++ (history, .directory) :: ws.tree.entries }
    repositories := (history, r) :: ws.repositories }

end Workspace
end MiniLua
