import MiniLua.Yaml.Decoding

/-!
# Records in YAML documents

A record is read from a mapping by the names of its fields. A merge key brings in the fields of other
mappings that the mapping itself does not have; of several such mappings the first wins, and the
mappings may merge others in turn.

## Delivered

- `Shape`: a type of records.
- `Document.examine`: reading a value whose type does not matter.
- `Document.readRecord`: the record that a mapping holds.
-/

set_option autoImplicit false

namespace MiniLua.Yaml

open Decoding

/-- A type of records: its name, its fields, whether it has no others, and how a field is read. -/
structure Shape (α : Type) where
  typeName : String
  fields : List String
  strict : Bool
  read : Document → String → Node → α → Decoding α

/-- A field that was set already. -/
def alreadySet (typeName : String) (line : Nat) (name : String) : String :=
  "line " ++ Text.decimalText line ++ ": field " ++ name ++ " already set in type " ++ typeName

/-- A field that the type does not have. -/
def notFound (typeName : String) (line : Nat) (name : String) : String :=
  "line " ++ Text.decimalText line ++ ": field " ++ name ++ " not found in type " ++ typeName

/-- What a merge key does not accept. -/
def notMergeable : Failure :=
  .malformed "map merge requires map or sequence of maps as the value"

/-- The values that are nested inside each other are too many. -/
def tooNested : Failure :=
  .malformed Defect.tooDeep.text

namespace Document

/-- The nodes that the value of a merge key brings in. -/
def mergeItems (n : Node) : List Node :=
  match n with
  | .sequence _ _ items => items
  | _ => [n]

/-- Read the pairs of a mapping that is merged. -/
def mergeWith {α : Type} (d : Document) (n : Node) (step : List (Node × Node) → Decoding α) :
    Decoding α :=
  match d.follow n with
  | .mapping _ _ _ =>
    d.arrive n fun n =>
      match n with
      | .mapping _ _ pairs => step pairs
      | _ => throw notMergeable
  | _ => throw notMergeable

/-! ## Values of any type -/

/-- Read a value whose type does not matter. The answer tells whether it is well formed. -/
def examine (d : Document) : Nat → Node → Decoding Bool
  | 0, _ => throw tooNested
  | limit + 1, n =>
    let pairsWell (pairs : List (Node × Node)) : Decoding Bool := do
      match repeatedKeys (pairs.map Prod.fst) with
      | [] =>
        for pair in pairs do
          if !pair.1.isMergeKey then
            if ← d.examine limit pair.1 then
              if (d.follow pair.1).isCollection then throw (.malformed "invalid map key")
              let _ ← d.examine limit pair.2
        match (pairs.filter fun pair => pair.1.isMergeKey).getLast? with
        | some pair =>
          for item in mergeItems pair.2 do
            if !(d.follow item matches .mapping _ _ _) then throw notMergeable
            let _ ← d.examine limit item
        | none => pure ()
        return true
      | problems =>
        reportAll problems
        return false
    d.arrive n fun n => do
      match n with
      | .scalar _ tag text =>
        let _ ← resolve tag text
        return true
      | .sequence _ _ items =>
        for item in items do
          let _ ← d.examine limit item
        return true
      | .mapping _ _ pairs => pairsWell pairs
      | .alias _ _ _ _ => return true

/-- The text that a key is, for a key that is a text. -/
def keyText? (d : Document) (n : Node) : Option String :=
  match d.follow n with
  | .scalar _ tag text =>
    match resolve tag text with
    | .ok (.text s) => some s
    | _ => none
  | _ => none

/-- The texts among the keys of a mapping. -/
def ownKeys (d : Document) (pairs : List (Node × Node)) : Decoding (List String) :=
  pairs.foldlM (fun names pair => do
    if ← d.examine d.limit pair.1 then
      if (d.follow pair.1).isCollection then throw (.malformed "invalid map key")
      return (d.keyText? pair.1).toList ++ names
    else return names) []

end Document

/-! ## Records -/

/-- The state between two keys of a mapping: the record so far; the names that are taken, when the
mapping is being merged into another; the fields that this mapping has set; and the value of its
merge key. -/
structure RecordState (α : Type) where
  record : α
  taken : Option (List String)
  set : List String := []
  merged : Option Node := none

namespace Document

/-- A key with a name, and its value. -/
def readNamed {α : Type} (d : Document) (shape : Shape α) (s : RecordState α) (line : Nat)
    (name : String) (value : Node) : Decoding (RecordState α) := do
  if s.taken.any (name ∈ ·) then return s
  else
    let s := { s with taken := s.taken.map (name :: ·) }
    if name ∈ shape.fields then
      if name ∈ s.set then
        report (alreadySet shape.typeName line name)
        return s
      else
        let record ← shape.read d name value s.record
        return { s with record := record, set := name :: s.set }
    else
      if shape.strict then report (notFound shape.typeName line name)
      return s

/-- A key and its value. -/
def readPair {α : Type} (d : Document) (shape : Shape α) (s : RecordState α) (pair : Node × Node) :
    Decoding (RecordState α) := do
  if pair.1.isMergeKey then return { s with merged := some pair.2 }
  else
    match ← d.readText pair.1 with
    | some name => d.readNamed shape s pair.1.line name pair.2
    | none => return s

/-- The record that the pairs of a mapping make of a given one, and the names that are taken after
them. The limit is the number of merges inside each other. -/
def readPairs {α : Type} (d : Document) (shape : Shape α) :
    Nat → Option (List String) → List (Node × Node) → α → Decoding (α × Option (List String))
  | 0, _, _, _ => throw tooNested
  | limit + 1, taken, pairs, record => do
    match repeatedKeys (pairs.map Prod.fst) with
    | [] =>
      let s ← pairs.foldlM (d.readPair shape) { record := record, taken := taken }
      match s.merged with
      | none => return (s.record, s.taken)
      | some n =>
        let names ← match s.taken with
          | some names => pure names
          | none => d.ownKeys pairs
        let (record, names) ← (mergeItems n).foldlM (fun (state : α × List String) item =>
          d.mergeWith item fun inner => do
            let (record, after) ← d.readPairs shape limit (some state.2) inner state.1
            return (record, after.getD state.2)) (s.record, names)
        return (record, s.taken.map fun _ => names)
    | problems =>
      reportAll problems
      return (record, taken)

/-- The record that a mapping makes of a given one. -/
def readRecord {α : Type} (d : Document) (shape : Shape α) (pairs : List (Node × Node))
    (start : α) : Decoding α := do
  let (record, _) ← d.readPairs shape d.limit none pairs start
  return record

end Document
end MiniLua.Yaml
