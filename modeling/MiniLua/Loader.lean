import MiniLua.Batch
import MiniLua.Cache
import MiniLua.Manifest.Decode
import MiniLua.Repository
import MiniLua.Syntax.Parse

/-!
# Loading

Programs and manifests are loaded from the world: files by path and repositories by address. A unit
is made of every source, whatever goes wrong with it. With a cache, a text that was parsed before is
not parsed again; only texts that parse are kept.

## Delivered

- `World`: what can be read.
- `Source.read`: the text of a source.
- `Source.load`, `loadAll`: units from sources.
- `Manifest.load`: the manifest at a path.
-/

set_option autoImplicit false

namespace MiniLua

/-- What can be read: files by path, repositories by address, and the directory in which relative
paths start. -/
structure World where
  directory : String
  file : String → Except FileError Bytes
  repository : String → Option Repository

namespace RepositorySource

/-- A file of a repository at the commit that is asked for. -/
def readFrom (s : RepositorySource) (reference : Reference) (r : Repository) :
    Except Failure Bytes :=
  let revision := reference.fullName
  match r.resolve? revision with
  | .error e => .error (.wrap ("resolve revision " ++ revision) (.plain e.text))
  | .ok commit =>
    let path := Path.clean (Text.trim s.path)
    match commit.read path with
    | .ok content => .ok content
    | .error e => .error (.wrap ("read " ++ path ++ " at " ++ commit.shortId) (.plain e))

/-- The text of a repository source. -/
def read (w : World) (cancelled : Bool) (s : RepositorySource) : Except Failure Bytes :=
  match s.reference? with
  | none => .error noReference
  | some reference =>
    let refused (reason : String) : Except Failure Bytes :=
      .error (.wrap ("git clone " ++ s.url) (.plain reason))
    if s.url = "" then refused "URL field is required"
    else if cancelled then refused "context canceled"
    else
      match w.repository s.url with
      | none => refused "repository not found"
      | some r =>
        if r.commits.isEmpty then refused "remote repository is empty"
        else s.readFrom reference r

end RepositorySource

namespace Source

/-- The text of a source. Nothing is read once the work is cancelled. -/
def read (w : World) (cancelled : Bool) : Source → Except Failure Bytes
  | .file s =>
    if cancelled then .error (.plain "context canceled")
    else
      match w.file s.path with
      | .ok content => .ok content
      | .error e => .error (.wrap ("read " ++ s.path) (e.failure s.path))
  | .repository s => s.read w cancelled

/-- The unit of a source whose text is known. -/
def unitOf (s : Source) (text : Bytes) (cache : Option ProgramCache) :
    LoadedUnit × Option ProgramCache :=
  let unit : LoadedUnit := { name := s.name, path := s.display, text := text }
  match cache.bind (·.find? text) with
  | some (program, cache) => ({ unit with program := some program, cached := true }, some cache)
  | none =>
    match Program.ofBytes? text with
    | .ok program => ({ unit with program := some program }, cache.map (·.add text program))
    | .error e => ({ unit with failure := some e.failure }, cache)

/-- The unit of a source, and the cache after it. -/
def load (w : World) (cancelled : Bool) (cache : Option ProgramCache) (s : Source) :
    LoadedUnit × Option ProgramCache :=
  match s.read w cancelled with
  | .error cause =>
    ({ name := s.name, path := s.display, failure := some (.load s.display cause) }, cache)
  | .ok text => s.unitOf text cache

end Source

/-- The failure to load a source that is not there. -/
def noSource : Failure :=
  .plain "loader: nil source"

/-- One unit for each source, in order, and the cache after them. -/
def loadAll (w : World) (cancelled : Bool) :
    Option ProgramCache → List (Option Source) → List LoadedUnit × Option ProgramCache
  | cache, [] => ([], cache)
  | cache, none :: rest =>
    let (units, cache) := loadAll w cancelled cache rest
    ({ failure := some noSource } :: units, cache)
  | cache, some s :: rest =>
    let (unit, cache) := s.load w cancelled cache
    let (units, cache) := loadAll w cancelled cache rest
    (unit :: units, cache)

/-! ## Manifests -/

/-- A path from the root. -/
def World.absolute (w : World) (path : String) : String :=
  if Path.isAbsolute path then Path.clean path else Path.join w.directory path

/-- The manifest at a path. -/
def Manifest.load (w : World) (path : String) : Except Failure Manifest :=
  if path = "" then .error (.plain "manifest: empty path")
  else
    let place := w.absolute path
    let parse (cause : Failure) : Failure := .wrap ("manifest: parse " ++ place) cause
    match w.file place with
    | .error .isDirectory =>
      .error (parse (.malformed ("input error: " ++ (FileError.failure place .isDirectory).text)))
    | .error e => .error (.wrap ("manifest: open " ++ place) (e.failure place))
    | .ok content =>
      match Manifest.ofBytes? content with
      | .ok m => .ok { m with path := place }
      | .error .endOfInput => .error (.plain ("manifest: " ++ place ++ " is empty"))
      | .error (.invalid issues) => .error (.invalid issues)
      | .error cause => .error (parse cause)

end MiniLua
