import MiniLua.Source
import MiniLua.Text.Fold

/-!
# Manifests

A manifest lists programs to run in order. A program is a file beside the manifest, or a file in a
repository.

## Delivered

- `ProgramEntry`, `Manifest`: the parts of a manifest.
- `sanitize`: the form in which names are kept.
- `Manifest.find?`: a program by its name, whatever its case.
- `Manifest.sources`: where the programs come from.
-/

set_option autoImplicit false

namespace MiniLua

/-- One program of a manifest. An empty text stands for a part that is not given. -/
structure ProgramEntry where
  name : String := ""
  path : String := ""
  git : String := ""
  rev : String := ""
  tag : String := ""
  branch : String := ""
deriving DecidableEq

/-- The program comes from a repository. -/
def ProgramEntry.isGit (e : ProgramEntry) : Bool :=
  e.git ≠ ""

/-- Programs to run in order; an entry may be left out. -/
structure Manifest where
  path : String := ""
  name : String := ""
  sharedStore : Bool := false
  programs : List (Option ProgramEntry) := []

/-- A name without blanks at its ends, and with underscores for hyphens and inner spaces. -/
def sanitize (name : String) : String :=
  (Text.trim name).map fun c => if c = '-' ∨ c = ' ' then '_' else c

/-- The text contains a given piece. -/
def containsPiece (piece : List Char) : List Char → Bool
  | [] => piece.isEmpty
  | c :: cs => piece.isPrefixOf (c :: cs) || containsPiece piece cs

/-- The address of a repository is a path, not a place on a network. -/
def isLocalAddress (url : String) : Bool :=
  !containsPiece "://".toList url.toList && !containsPiece ['@'] url.toList

/-- A path as seen from a directory. -/
def resolveFrom (directory path : String) : String :=
  if Path.isAbsolute path then path else Path.join directory path

/-- The source of a program in a manifest of the given directory. -/
def ProgramEntry.source (directory : String) (e : ProgramEntry) : Source :=
  if e.isGit then
    .repository
      { label := e.name, rev := e.rev, tag := e.tag, branch := e.branch, path := e.path
        url := if isLocalAddress e.git then resolveFrom directory e.git else e.git }
  else .file { label := e.name, path := resolveFrom directory e.path }

namespace Manifest

/-- The directory that paths in the manifest start from. -/
def directory (m : Manifest) : String :=
  if m.path = "" then "." else Path.directory m.path

/-- The first program whose name is the sanitized query, whatever its case. -/
def find? (m : Manifest) (query : String) : Option ProgramEntry :=
  m.programs.findSome? fun entry =>
    entry.filter fun e => Text.sameFolded e.name (sanitize query)

/-- The sources of the programs, in order. -/
def sources (m : Manifest) : List Source :=
  m.programs.filterMap fun entry => entry.map (·.source m.directory)

end Manifest
end MiniLua
