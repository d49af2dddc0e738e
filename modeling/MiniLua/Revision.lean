import MiniLua.Text.Blank
import MiniLua.Text.Decimal

/-!
# Revisions

A revision asks for a commit: it names one and goes back from there. A tilde and a number go back so
many commits, and one without a number. A caret and a number go to one of the parents, the first
without a number; zero stays. A lone at sign names the current commit. What stands behind a colon is
the path of a file, which is the same commit still.

## Delivered

- `RevisionError`, `RevisionError.text`: why a text is no revision.
- `Move`, `Revision`: a name and the moves from there.
- `Revision.ofText?`: the revision that a text asks for.
-/

set_option autoImplicit false

namespace MiniLua

/-- Why a text is no revision. -/
inductive RevisionError where
  | contains (piece : String)
  | starts (piece : String)
  | ends (piece : String)
  | repeatedSlash
  | lockName
  | parentNumber (digits : String)
  | lateName
  | noName
deriving DecidableEq

/-- The wording of a refused revision. -/
def RevisionError.text (e : RevisionError) : String :=
  "Revision invalid : " ++ match e with
  | .contains piece => "must not contains \"" ++ piece ++ "\""
  | .starts piece => "must not start with \"" ++ piece ++ "\""
  | .ends piece => "must not end with \"" ++ piece ++ "\""
  | .repeatedSlash => "must not contains consecutively \"/\""
  | .lockName => "cannot end with .lock"
  | .parentNumber digits => "\"" ++ digits ++ "\" found must be 0, 1 or 2 after \"^\""
  | .lateName => "reference must be defined once at the beginning"
  | .noName => "\"~\" or \"^\" statement must have a reference defined at the beginning"

/-- A step from one commit to another. -/
inductive Move where
  | back (steps : Nat)
  | parent (number : Nat)
deriving DecidableEq

/-- The name of a commit, if there is one, and the moves from there. -/
structure Revision where
  name : Option String := none
  moves : List Move := []
deriving DecidableEq

namespace Revision

/-! ## Names -/

/-- Characters that end a name. -/
def endsName (c : Char) : Bool :=
  c = '@' || c = ':' || c = '~' || c = '^'

/-- Characters that no name holds: blanks, control characters and the marks of patterns. -/
def isForbidden (c : Char) : Bool :=
  Text.isBlank c || c.toNat < 0x20 || (0x7f ≤ c.toNat && c.toNat ≤ 0x9f) ||
    c = '\\' || c = '?' || c = '*' || c = '['

/-- The ending of names that stand for locks. -/
def endsLock (reversed : List Char) : Bool :=
  reversed.take 5 = "kcol.".toList

/-- What is wrong with the next character of a name; `none` stands for its end. The characters before
it come last first. -/
def nameError? (reversed : List Char) (next : Option Char) : Option RevisionError :=
  if next.any isForbidden then some (.contains (String.ofList next.toList))
  else
    match reversed, next with
    | [], some '.' => some (.starts ".")
    | [], some '/' => some (.starts "/")
    | '/' :: _, none => some (.ends "/")
    | '.' :: _, none => some (.ends ".")
    | '/' :: _, some '.' => some (.contains "/.")
    | '.' :: _, some '.' => some (.contains "..")
    | '/' :: _, some '/' => some .repeatedSlash
    | _, none => if endsLock reversed then some .lockName else none
    | _, some '/' => if endsLock reversed then some .lockName else none
    | _, _ => none

/-- A name whose characters so far come last first. -/
def checkedName (reversed : List Char) : List Char → Except RevisionError String
  | [] =>
    match nameError? reversed none with
    | some e => .error e
    | none => .ok (String.ofList reversed.reverse)
  | c :: rest =>
    match nameError? reversed (some c) with
    | some e => .error e
    | none => checkedName (c :: reversed) rest

/-! ## Parts -/

/-- A part of a revision. -/
inductive Part where
  | name (text : String)
  | move (move : Move)
  | file

/-- The number behind a mark; one when none is written. -/
def numberOr1 (digits : List Char) : Nat :=
  (Text.natural? digits).getD 1

/-- The parts of a text. Each of them takes a character at least. -/
def parts : Nat → List Char → Except RevisionError (List Part)
  | 0, _ => .ok []
  | _ + 1, [] => .ok []
  | limit + 1, c :: rest =>
    let digits := rest.takeWhile Text.isDigit
    let behind := rest.drop digits.length
    if c = '@' then (.name "HEAD" :: ·) <$> parts limit rest
    else if c = '~' then (.move (.back (numberOr1 digits)) :: ·) <$> parts limit behind
    else if c = '^' then
      if 2 < numberOr1 digits then .error (.parentNumber (String.ofList digits))
      else (.move (.parent (numberOr1 digits)) :: ·) <$> parts limit behind
    else if c = ':' then .ok [.file]
    else
      let word := (c :: rest).takeWhile fun x => !endsName x
      match checkedName [] word with
      | .error e => .error e
      | .ok name => (.name name :: ·) <$> parts limit ((c :: rest).drop word.length)

/-- The revision with one more part. A name comes first, and moves need one. -/
def addPart (r : Revision) (part : Part) : Except RevisionError Revision :=
  match part, r.name with
  | .name text, none => .ok { r with name := some text }
  | .name _, some _ => .error .lateName
  | .move _, none => .error .noName
  | .move move, some _ => .ok { r with moves := r.moves ++ [move] }
  | .file, _ => .ok r

/-- The revision that a text asks for. -/
def ofText? (text : String) : Except RevisionError Revision :=
  match parts text.length text.toList with
  | .error e => .error e
  | .ok found => found.foldlM addPart {}

end Revision
end MiniLua
