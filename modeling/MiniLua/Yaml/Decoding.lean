import MiniLua.Failure
import MiniLua.Text.Base64
import MiniLua.Text.Quoted
import MiniLua.Yaml.Node

/-!
# Values of YAML documents

Values of a given type are read from the nodes of a document. Reading goes on after a value of a
wrong type and gathers one problem for each; it stops at a value that contradicts its own tag. Nothing
is read from a null.

An alias is read as the value that it stands for, and never inside of itself. So that a small text
cannot stand for a huge one, the reads are counted: from a certain number on, only a part of them may
happen inside of aliases.

## Delivered

- `Decoding`: steps of reading, with `count` and `entering`.
- `Resolved`, `resolve`: what a tag makes of a text.
- `Document.arrive`: the value at a node, through an alias if need be.
- `Document.readText`, `Document.readTruth`: texts and truth values.
-/

set_option autoImplicit false

namespace MiniLua.Yaml

/-! ## Steps -/

/-- The number of reads so far, the number of those inside of aliases, the aliases that are being
read, and the problems found, last first. -/
structure Progress where
  reads : Nat := 0
  aliased : Nat := 0
  entered : List Nat := []
  problems : List String := []

/-- Steps of reading. -/
abbrev Decoding (α : Type) := StateT Progress (Except Failure) α

/-- Too many of the reads were inside of aliases. Up to 400000 reads, 99 of 100 may be; from 4000000
on, 10 of 100; in between the part falls evenly. Small numbers do not count. -/
def isExcessive (aliased reads : Nat) : Bool :=
  100 < aliased && 1000 < reads &&
    if reads ≤ 400000 then reads * 99 < aliased * 100
    else if 4000000 ≤ reads then reads * 10 < aliased * 100
    else reads * (99 * 3600000 - 89 * (reads - 400000)) < aliased * 100 * 3600000

namespace Decoding

/-- One more read. -/
def count : Decoding Unit := do
  let p ← get
  let p := { p with
    reads := p.reads + 1, aliased := if p.entered.isEmpty then p.aliased else p.aliased + 1 }
  if isExcessive p.aliased p.reads then
    throw (.malformed "document contains excessive aliasing")
  set p

/-- A problem, after which reading goes on. -/
def report (problem : String) : Decoding Unit :=
  modify fun p => { p with problems := problem :: p.problems }

/-- Problems in their order. -/
def reportAll (problems : List String) : Decoding Unit :=
  modify fun p => { p with problems := problems.reverse ++ p.problems }

/-- Read inside of an alias. -/
def entering {α : Type} (name : String) (number : Nat) (step : Decoding α) : Decoding α := do
  if number ∈ (← get).entered then
    throw (.malformed ("anchor '" ++ name ++ "' value contains itself"))
  modify fun p => { p with entered := number :: p.entered }
  let a ← step
  modify fun p => { p with entered := p.entered.drop 1 }
  return a

/-- The value that was read, if there was no problem. -/
def result {α : Type} (step : Decoding α) : Except Failure α :=
  match step.run {} with
  | .error cause => .error cause
  | .ok (a, p) => if p.problems.isEmpty then .ok a else .error (.mistyped p.problems.reverse)

end Decoding

/-! ## Scalars -/

/-- What the tag of a scalar makes of its text. -/
inductive Resolved where
  | nothing
  | truth (b : Bool)
  | text (s : String)
  | other

/-- A text that looks like a value of one tag has another tag that accepts it: an integer may be a
fraction, unless it needs all sixty-four bits. -/
def isAccepted (tag implied : Tag) (text : String) : Bool :=
  implied = tag || (tag = .float && implied = .int &&
    (integer? (withoutUnderscores text.toList)).any (· ≤ 9223372036854775807))

/-- The text of a scalar under its tag. Texts and unknown tags take any text; the other tags have to
agree with the looks of it. A text consists of characters, so bytes of binary data that are none become
replacement characters, and two scalars with different such bytes may give the same text. -/
def resolve (tag : Tag) (text : String) : Except Failure Resolved :=
  match tag with
  | .str | .merge | .seq | .map | .other _ => .ok (.text text)
  | .binary =>
    match Text.base64? text with
    | some bytes => .ok (.text (String.ofList (Text.decode bytes)))
    | none => .error (.malformed "!!binary value contains invalid base64 data")
  | _ =>
    let implied := impliedTag (tag = .timestamp) text
    if isAccepted tag implied text then
      match implied with
      | .null => .ok .nothing
      | .bool => .ok (.truth (text.toList.head?.any fun c => c = 't' || c = 'T'))
      | _ => .ok .other
    else
      .error (.malformed
        ("cannot decode " ++ implied.text ++ " `" ++ text ++ "` as a " ++ tag.text))

/-- A value in a message: ten bytes at most, and of a longer one the first seven. -/
def shownValue (text : String) : String :=
  let bytes := Text.encode text
  if 10 < bytes.length then " `" ++ String.ofList (Text.decode (bytes.take 7)) ++ "...`"
  else " `" ++ text ++ "`"

/-- A value of a wrong type. Under the tag of a collection its text is shown as it is. -/
def mismatch (line : Nat) (tag : Tag) (text typeName : String) : String :=
  let shown := if tag = .seq || tag = .map then text else shownValue text
  "line " ++ Text.decimalText line ++ ": cannot unmarshal " ++ tag.text ++ shown ++ " into " ++
    typeName

/-! ## Keys -/

/-- Two keys are the same: equal texts, aliases of equal names, two sequences or two mappings. -/
def Node.sameKey : Node → Node → Bool
  | .scalar _ _ a, .scalar _ _ b => a = b
  | .sequence _ _ _, .sequence _ _ _ => true
  | .mapping _ _ _, .mapping _ _ _ => true
  | .alias _ a _ _, .alias _ b _ _ => a = b
  | _, _ => false

/-- The text of a key as it is written. -/
def Node.written : Node → String
  | .scalar _ _ text => text
  | .alias _ name _ _ => name
  | _ => ""

/-- One problem for each pair of equal keys. -/
def repeatedKeys : List Node → List String
  | [] => []
  | key :: keys =>
    (keys.filter key.sameKey).map (fun k =>
      "line " ++ Text.decimalText k.line ++ ": mapping key " ++ Text.quoteText k.written ++
        " already defined at line " ++ Text.decimalText key.line) ++ repeatedKeys keys

/-- The key that brings in other mappings. -/
def Node.isMergeKey : Node → Bool
  | .scalar _ tag text => tag = .merge && text = "<<"
  | _ => false

/-- The value is a sequence or a mapping. -/
def Node.isCollection : Node → Bool
  | .sequence _ _ _ => true
  | .mapping _ _ _ => true
  | _ => false

/-! ## Values -/

namespace Document

open Decoding

/-- Read the value at a node, or the one that its alias stands for. -/
def arrive {α : Type} (d : Document) (n : Node) (step : Node → Decoding α) : Decoding α := do
  count
  match n with
  | .alias _ name target number =>
    match d.anchored.lookup target with
    | some value =>
      entering name number do
        count
        step value
    | none => throw (.malformed (Defect.unknownAnchor name).text)
  | _ => step n

/-- A collection where a scalar is wanted. -/
def refuse {α : Type} (n : Node) (typeName : String) : Decoding (Option α) := do
  match n with
  | .mapping line tag pairs =>
    match repeatedKeys (pairs.map Prod.fst) with
    | [] => report (mismatch line tag "" typeName)
    | problems => reportAll problems
  | .sequence line tag _ => report (mismatch line tag "" typeName)
  | .scalar line tag text => report (mismatch line tag text typeName)
  | .alias _ _ _ _ => pure ()
  return none

/-- A text; `none` when there is nothing. Scalars of all types are read by their written form. -/
def readText (d : Document) (n : Node) : Decoding (Option String) :=
  d.arrive n fun n => do
    match n with
    | .scalar _ tag text =>
      match ← resolve tag text with
      | .nothing => return none
      | .text s => return some s
      | _ => return some text
    | _ => refuse n "string"

/-- The truth value that a word of everyday language stands for. -/
def truthOfWord? (word : String) : Option Bool :=
  if word ∈ ["y", "Y", "yes", "Yes", "YES", "on", "On", "ON"] then some true
  else if word ∈ ["n", "N", "no", "No", "NO", "off", "Off", "OFF"] then some false
  else none

/-- A truth value; `none` when there is nothing. Words are accepted beside those with the tag of
truth values. -/
def readTruth (d : Document) (n : Node) : Decoding (Option Bool) :=
  d.arrive n fun n => do
    match n with
    | .scalar _ tag text =>
      match ← resolve tag text with
      | .nothing => return none
      | .truth b => return some b
      | .text s =>
        match truthOfWord? s with
        | some b => return some b
        | none => refuse n "bool"
      | .other => refuse n "bool"
    | _ => refuse n "bool"

end Document
end MiniLua.Yaml
