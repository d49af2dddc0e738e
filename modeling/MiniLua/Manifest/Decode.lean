import MiniLua.Manifest.Validate
import MiniLua.Yaml.Record

/-!
# The text of a manifest

A manifest is written as a YAML mapping with the keys `name`, `shared_store` and `programs`, and no
others. A program is a path, or a mapping with the keys of `ProgramEntry`; other keys of such a
mapping are passed over. All texts of programs are trimmed.

A sequence of programs under the tag of null is read in a plain way: every entry is a mapping with
no other keys, or left out, and nothing is trimmed.

## Delivered

- `ProgramEntry.ofNode?`, `Draft.ofDocument?`: entries and drafts from documents.
- `Manifest.ofBytes?`: the valid manifest that a text holds.
-/

set_option autoImplicit false

namespace MiniLua

open Yaml (Document Shape Decoding Tag)

/-! ## Entries -/

/-- The entry with a new text in one field. -/
def ProgramEntry.put (e : ProgramEntry) (field text : String) : ProgramEntry :=
  match field with
  | "name" => { e with name := text }
  | "path" => { e with path := text }
  | "git" => { e with git := text }
  | "rev" => { e with rev := text }
  | "tag" => { e with tag := text }
  | "branch" => { e with branch := text }
  | _ => e

/-- The names of the fields of an entry. -/
def ProgramEntry.fieldNames : List String :=
  ["name", "path", "git", "rev", "tag", "branch"]

/-- The fields of an entry, which may have others. -/
def ProgramEntry.shape : Shape ProgramEntry :=
  { typeName := "struct \x7b Name string \"yaml:\\\"name\\\"\"; Path string \"yaml:\\\"path\\\"\"; " ++
      "Git string \"yaml:\\\"git\\\"\"; Rev string \"yaml:\\\"rev\\\"\"; " ++
      "Tag string \"yaml:\\\"tag\\\"\"; Branch string \"yaml:\\\"branch\\\"\" \x7d"
    fields := ProgramEntry.fieldNames
    strict := false
    read := fun d name value e => do
      match ← d.readText value with
      | some text => return e.put name (Text.trim text)
      | none => return e }

/-- The fields of an entry without any others. -/
def ProgramEntry.plainShape : Shape ProgramEntry :=
  { typeName := "driver.ProgramSpec"
    fields := ProgramEntry.fieldNames
    strict := true
    read := fun d name value e => do
      match ← d.readText value with
      | some text => return e.put name text
      | none => return e }

/-- An entry: a path, a mapping, or nothing. -/
def ProgramEntry.ofNode? (d : Document) (n : Yaml.Node) : Except Failure ProgramEntry :=
  match d.follow n with
  | .scalar _ tag text =>
    if tag = .null then .ok {} else .ok { path := Text.trim text }
  | .mapping _ _ pairs =>
    Decoding.result do
      Decoding.count
      d.readRecord shape pairs {}
  | .sequence _ tag _ => .error (.plain ("expected string or mapping, found " ++ tag.text))
  | .alias _ _ _ _ => .ok {}

/-- The entries of a sequence from place `i` on, with those before them, last first. -/
def entriesFrom (d : Document) : Nat → List (Option ProgramEntry) → List Yaml.Node →
    Except Failure (List (Option ProgramEntry))
  | _, before, [] => .ok before.reverse
  | i, before, n :: rest =>
    match ProgramEntry.ofNode? d n with
    | .ok e => entriesFrom d (i + 1) (some e :: before) rest
    | .error cause => .error (.wrap ("manifest: " ++ programPlace i) cause)

/-- An entry of a sequence under the tag of null. -/
def readPlainEntry (d : Document) (n : Yaml.Node) : Decoding (Option ProgramEntry) :=
  d.arrive n fun n => do
    match n with
    | .scalar _ tag text =>
      match ← Yaml.resolve tag text with
      | .nothing => return none
      | _ => Document.refuse n ProgramEntry.plainShape.typeName
    | .mapping _ tag pairs =>
      if tag = .null then Document.refuse n ("*" ++ ProgramEntry.plainShape.typeName)
      else return some (← d.readRecord ProgramEntry.plainShape pairs {})
    | .sequence _ tag _ =>
      let star := if tag = .null then "*" else ""
      Document.refuse n (star ++ ProgramEntry.plainShape.typeName)
    | .alias _ _ _ _ => return none

/-- The programs of a manifest: a sequence, or nothing. -/
def readPrograms (d : Document) (n : Yaml.Node) : Decoding (Option (List (Option ProgramEntry))) :=
  d.arrive n fun n => do
    let refused : Failure := .plain "manifest: programs must be a sequence"
    match n with
    | .scalar _ tag text =>
      if tag = .null then
        let _ ← Yaml.resolve tag text
        return some []
      else throw refused
    | .sequence _ tag items =>
      if tag = .null then return some (← items.mapM (readPlainEntry d))
      else return some (← entriesFrom d 0 [] items)
    | .mapping _ tag _ =>
      if tag = .null then Document.refuse n "driver.programList" else throw refused
    | .alias _ _ _ _ => return none

/-! ## Drafts -/

/-- Read one field of a draft. -/
def Draft.readField (d : Document) (name : String) (value : Yaml.Node) (m : Draft) :
    Decoding Draft := do
  match name with
  | "name" => return { m with name := (← d.readText value).getD m.name }
  | "shared_store" => return { m with sharedStore := (← d.readTruth value).getD m.sharedStore }
  | _ => return { m with programs := (← readPrograms d value).getD m.programs }

/-- The fields of a manifest. -/
def Draft.shape : Shape Draft :=
  { typeName := "driver.manifestFile"
    fields := ["name", "shared_store", "programs"]
    strict := true
    read := Draft.readField }

/-- Read the draft in a document. A document that is null says nothing. -/
def Draft.readDocument (d : Document) : Decoding Draft := do
  Decoding.count
  d.arrive d.root fun n => do
    match n with
    | .mapping _ _ pairs => d.readRecord shape pairs {}
    | .scalar _ tag text =>
      match ← Yaml.resolve tag text with
      | .nothing => return {}
      | _ => return (← Document.refuse n shape.typeName).getD {}
    | _ => return (← Document.refuse n shape.typeName).getD {}

/-- The draft in a document. -/
def Draft.ofDocument? (d : Document) : Except Failure Draft :=
  Decoding.result (Draft.readDocument d)

/-! ## Manifests -/

/-- The valid manifest that a text holds in its first document. -/
def Manifest.ofBytes? (bytes : Bytes) : Except Failure Manifest :=
  match Document.ofBytes? bytes with
  | .error defect => .error (.malformed defect.text)
  | .ok none => .error .endOfInput
  | .ok (some d) =>
    match Draft.ofDocument? d with
    | .error cause => .error cause
    | .ok draft => draft.validate

end MiniLua
