import MiniLua.Failure
import MiniLua.Path

/-!
# Sources of programs

A program text comes from a file, or from a file in a repository as it was at some revision. A
source has a name: its label, or what its path suggests.

## Delivered

- `FileSource`, `RepositorySource`, `Source`: where a text comes from.
- `Reference`, `RepositorySource.reference?`: the revision that a repository source asks for.
- `Source.name`, `Source.display`: the names of a source for people.
-/

set_option autoImplicit false

namespace MiniLua

/-- A file. -/
structure FileSource where
  label : String := ""
  path : String

/-- A file in a repository. A commit is asked for by a revision, a tag or a branch. -/
structure RepositorySource where
  label : String := ""
  url : String
  rev : String := ""
  tag : String := ""
  branch : String := ""
  path : String

/-- Where a program text comes from. -/
inductive Source where
  | file (file : FileSource)
  | repository (repository : RepositorySource)

/-- How a commit is asked for. -/
inductive Reference where
  | revision (text : String)
  | tag (name : String)
  | branch (name : String)
deriving DecidableEq

namespace Reference

/-- The text of a reference for people. -/
def text : Reference → String
  | .revision text => text
  | .tag name => name
  | .branch name => name

/-- The full name of a reference in a fresh copy of a repository. Branches are those of the place
that it was copied from. -/
def fullName : Reference → String
  | .revision text => text
  | .tag name => "refs/tags/" ++ name
  | .branch name => "refs/remotes/origin/" ++ name

end Reference

/-- The label when there is one, else the stem of the path. -/
def nameOf (label path : String) : String :=
  if label ≠ "" then label else Path.stem path

namespace RepositorySource

/-- The first of revision, tag and branch that is not blank. -/
def reference? (s : RepositorySource) : Option Reference :=
  let rev := Text.trim s.rev
  let tag := Text.trim s.tag
  let branch := Text.trim s.branch
  if rev ≠ "" then some (.revision rev)
  else if tag ≠ "" then some (.tag tag)
  else if branch ≠ "" then some (.branch branch)
  else none

/-- The repository, the commit and the file in one text. -/
def display (s : RepositorySource) : String :=
  let commit := match s.reference? with
    | some r => r.text
    | none => "?"
  s.url ++ "@" ++ commit ++ ":" ++ s.path

/-- The failure of a source that asks for no commit. -/
def noReference : Failure :=
  .plain "git sources require rev, tag, or branch"

end RepositorySource

namespace Source

/-- The name of a source. -/
def name : Source → String
  | .file s => nameOf s.label s.path
  | .repository s => nameOf s.label s.path

/-- The path of a source in reports. -/
def display : Source → String
  | .file s => s.path
  | .repository s => s.display

end Source
end MiniLua
