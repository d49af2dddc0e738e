import MiniLua.Manifest.Basic
import MiniLua.Text.Decimal
import MiniLua.Text.Quoted

/-!
# Valid manifests

A manifest that is read from a text is first put in order: its names are sanitized, and a program
without a name gets the stem of its path. Then it is checked. Every broken rule is one issue, and the
issues come in the order of the programs.

## Delivered

- `Draft`, `Draft.manifest`: what a text says, and the manifest that it makes.
- `ProgramEntry.issues`, `Manifest.issues`: the rules.
- `Draft.validate`: the manifest when it breaks no rule.
-/

set_option autoImplicit false

namespace MiniLua

/-- What the text of a manifest says. An entry may be left out. -/
structure Draft where
  name : String := ""
  sharedStore : Bool := false
  programs : List (Option ProgramEntry) := []

/-- The entry with its own sanitized name, or with the name that its path suggests. -/
def ProgramEntry.named (e : ProgramEntry) : ProgramEntry :=
  { e with name := sanitize (if e.name = "" then Path.stem e.path else e.name) }

/-- The manifest that a text makes. -/
def Draft.manifest (d : Draft) : Manifest :=
  { name := sanitize d.name, sharedStore := d.sharedStore
    programs := d.programs.map fun e => e.map ProgramEntry.named }

/-- The number of references that an entry gives. -/
def ProgramEntry.referenceCount (e : ProgramEntry) : Nat :=
  ([e.rev, e.tag, e.branch].filter (· ≠ "")).length

/-- The rules for the parts of one entry. -/
def ProgramEntry.issues (e : ProgramEntry) : List String :=
  let references :=
    if !e.isGit && 0 < e.referenceCount then ["rev, tag and branch apply only to git programs"]
    else if e.isGit && e.referenceCount = 0 then ["git programs require rev, tag, or branch"]
    else if 1 < e.referenceCount then ["specify only one of rev, tag, or branch"]
    else []
  let path :=
    if e.isGit && Path.isAbsolute e.path then
      ["git program paths must be relative to the repository root"]
    else []
  references ++ path

/-- The place of an entry in messages. -/
def programPlace (i : Nat) : String :=
  "programs[" ++ Text.decimalText i ++ "]"

/-- The issues of the entry at place `i`, where the given names were first used at the given
places. -/
def ProgramEntry.issuesAt (e : ProgramEntry) (i : Nat) (used : List (String × Nat)) : List String :=
  let path := if e.path = "" then [programPlace i ++ " requires a path"] else []
  let name :=
    if e.name = "" then [programPlace i ++ " requires a name"]
    else
      match used.lookup e.name with
      | some first =>
        [programPlace first ++ " and " ++ programPlace i ++ " share the name " ++
          Text.quoteText e.name]
      | none => []
  path ++ name ++ e.issues.map fun issue => "programs." ++ e.name ++ ": " ++ issue

/-- The names that are used after an entry. A name keeps its first place. -/
def ProgramEntry.use (e : ProgramEntry) (i : Nat) (used : List (String × Nat)) :
    List (String × Nat) :=
  if e.name = "" || (used.lookup e.name).isSome then used else (e.name, i) :: used

/-- The issues of the entries from place `i` on. -/
def issuesFrom : Nat → List (String × Nat) → List (Option ProgramEntry) → List String
  | _, _, [] => []
  | i, used, none :: rest =>
    (programPlace i ++ " must not be empty") :: issuesFrom (i + 1) used rest
  | i, used, some e :: rest => e.issuesAt i used ++ issuesFrom (i + 1) (e.use i used) rest

/-- All issues of a manifest. -/
def Manifest.issues (m : Manifest) : List String :=
  (if m.programs.isEmpty then ["programs must list at least one program"] else []) ++
    issuesFrom 0 [] m.programs

/-- The manifest that a text makes, when it breaks no rule. -/
def Draft.validate (d : Draft) : Except Failure Manifest :=
  match d.manifest.issues with
  | [] => .ok d.manifest
  | issues => .error (.invalid issues)

end MiniLua
