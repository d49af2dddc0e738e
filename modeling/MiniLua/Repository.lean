import MiniLua.FileTree
import MiniLua.Revision

/-!
# Repositories

A repository is a list of commits. A commit has an identifier, the commit it follows, and all files
as they were then. Branches and tags name commits; one branch is the current one.

A copy of a repository knows the branches of the place it was copied from as remote branches, and
only the current branch as its own.

## Delivered

- `Commit`, `Repository`: history.
- `Repository.resolve?`: the commit that a revision names.
- `Commit.read`: a file as it was at a commit.
- `Repository.commit`: one more commit.
-/

set_option autoImplicit false

namespace MiniLua

/-- A commit. -/
structure Commit where
  id : String
  parent : Option Nat
  files : List (Segments × Bytes)

/-- Commits in the order in which they were made; branches and tags by name, the last change first;
and the current branch. -/
structure Repository where
  commits : List Commit := []
  branches : List (String × Nat) := []
  tags : List (String × Nat) := []
  current : String := "master"

namespace Repository

/-- The commit that the current branch names. -/
def head? (r : Repository) : Option Nat :=
  r.branches.lookup r.current

/-- The full names of references in a copy of the repository. -/
def references (r : Repository) : List (String × Nat) :=
  let head := r.head?.toList.flatMap fun n => [("HEAD", n), ("refs/heads/" ++ r.current, n)]
  head ++ r.tags.map (fun (name, n) => ("refs/tags/" ++ name, n)) ++
    r.branches.map (fun (name, n) => ("refs/remotes/origin/" ++ name, n))

/-- What may stand before a name to make it a full one, in the order of trial. -/
def spellings (name : String) : List String :=
  [name, "refs/" ++ name, "refs/tags/" ++ name, "refs/heads/" ++ name, "refs/remotes/" ++ name,
    "refs/remotes/" ++ name ++ "/HEAD"]

/-- The number of the commit with an identifier. -/
def byId? (r : Repository) (id : String) : Option Nat :=
  r.commits.findIdx? fun c => c.id = id

/-- The commit that a name or an identifier stands for. -/
def named? (r : Repository) (name : String) : Option Nat :=
  match r.byId? name with
  | some n => some n
  | none => (spellings name).findSome? fun full => r.references.lookup full

/-- The commit `n` steps before another one. -/
def ancestor? (r : Repository) : Nat → Nat → Option Nat
  | 0, commit => some commit
  | n + 1, commit => ((r.commits[commit]?).bind Commit.parent).bind (r.ancestor? n)

/-- The commit to which a move leads. A commit has one parent at most. -/
def move? (r : Repository) (commit : Nat) : Move → Option Nat
  | .back steps => r.ancestor? steps commit
  | .parent 0 => some commit
  | .parent 1 => r.ancestor? 1 commit
  | .parent _ => none

/-- Why a revision names no commit. -/
inductive ResolveError where
  | notRevision (cause : RevisionError)
  | unknownReference
  | noAncestor

/-- The wording of a failed resolution. -/
def ResolveError.text : ResolveError → String
  | .notRevision cause => cause.text
  | .unknownReference => "reference not found"
  | .noAncestor => "EOF"

/-- The number of the commit that a revision asks for. -/
def resolveIndex? (r : Repository) (revision : String) : Except ResolveError Nat :=
  match Revision.ofText? revision with
  | .error cause => .error (.notRevision cause)
  | .ok asked =>
    match asked.name.bind r.named? with
    | none => .error .unknownReference
    | some n =>
      match asked.moves.foldlM r.move? n with
      | some n => .ok n
      | none => .error .noAncestor

/-- The commit that a revision names. -/
def resolve? (r : Repository) (revision : String) : Except ResolveError Commit :=
  match r.resolveIndex? revision with
  | .error e => .error e
  | .ok n =>
    match r.commits[n]? with
    | some c => .ok c
    | none => .error .unknownReference

/-- The files of the current commit. -/
def workingFiles (r : Repository) : List (Segments × Bytes) :=
  match r.head?.bind (r.commits[·]?) with
  | some c => c.files
  | none => []

/-- The repository with another current branch. A new branch starts at the current commit; no name
means no change. -/
def checkout (r : Repository) (branch : String) : Repository :=
  if branch = "" || branch = r.current then r
  else
    match r.branches.lookup branch, r.head? with
    | none, some n => { r with branches := (branch, n) :: r.branches, current := branch }
    | _, _ => { r with current := branch }

/-- One more commit on the current branch, with some files changed and a tag when one is given. -/
def commit (r : Repository) (id tag : String) (files : List (Segments × Bytes)) : Repository :=
  let n := r.commits.length
  let kept := r.workingFiles.filter fun old => !files.any fun new => new.1 = old.1
  let c : Commit := { id := id, parent := r.head?, files := kept ++ files }
  { r with
    commits := r.commits ++ [c]
    branches := (r.current, n) :: r.branches.filter fun b => b.1 ≠ r.current
    tags := if tag = "" then r.tags else (tag, n) :: r.tags }

end Repository

namespace Commit

/-- The first seven characters of the identifier. -/
def shortId (c : Commit) : String :=
  String.ofList (c.id.toList.take 7)

/-- A file as it was at a commit. Paths start at the root of the repository and do not lead out of
it. -/
def read (c : Commit) (path : String) : Except String Bytes :=
  if "../".toList.isPrefixOf path.toList then .error "chroot boundary crossed"
  else
    let place := Path.cleanSegments ("/" ++ path)
    match c.files.lookup place with
    | some content => .ok content
    | none =>
      if c.files.any fun f => place.isPrefixOf f.1 then
        .error ("cannot open directory: /" ++ String.ofList (['/'].intercalate place))
      else .error "file does not exist"

end Commit
end MiniLua
