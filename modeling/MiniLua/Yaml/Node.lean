import MiniLua.Yaml.Scan
import MiniLua.Yaml.Tag

/-!
# YAML documents

A document is a tree of scalars, sequences and mappings. A value may carry an anchor, and an alias
stands for the value that last got its anchor. The values with anchors are listed beside the tree, so
that a value may contain an alias of itself.

The reader takes the tokens of the first document and asks for one more, so a defect of the text
right behind the document counts, and a later one does not.

## Delivered

- `Node`, `Document`: trees with lines and tags.
- `Document.follow`: the value that an alias stands for.
- `Document.ofBytes?`: the first document of a text.
-/

set_option autoImplicit false

namespace MiniLua.Yaml

/-- A value with the number of its line. -/
inductive Node where
  | scalar (line : Nat) (tag : Tag) (text : String)
  | sequence (line : Nat) (tag : Tag) (items : List Node)
  | mapping (line : Nat) (tag : Tag) (pairs : List (Node × Node))
  /-- The value with the number `target` among those with anchors. Aliases have numbers of their
  own. -/
  | alias (line : Nat) (name : String) (target number : Nat)

/-- A tree and its values with anchors, by their numbers. -/
structure Document where
  root : Node
  anchored : List (Nat × Node) := []
  /-- A way down the tree that goes through each alias once at most is shorter. -/
  limit : Nat := 0

namespace Node

/-- The line on which a value starts. -/
def line : Node → Nat
  | .scalar line _ _ => line
  | .sequence line _ _ => line
  | .mapping line _ _ => line
  | .alias line _ _ _ => line

/-- A value that is not written at all. -/
def absent (line : Nat) : Node :=
  .scalar line .null ""

end Node

/-- The value itself, or the one that an alias stands for. -/
def Document.follow (d : Document) (n : Node) : Node :=
  match n with
  | .alias _ _ target _ => (d.anchored.lookup target).getD n
  | _ => n

/-! ## Reading -/

/-- The state of the reader: the scanner, whether its first token may be taken, the meanings of the
handles in tags, the numbers of the anchors, the last given first, the values that are complete, and
the number of aliases. -/
structure ReadState where
  scanner : Scanner
  ready : Bool := false
  handles : List (String × String) := []
  names : List (String × Nat) := []
  anchored : List (Nat × Node) := []
  aliases : Nat := 0

/-- Steps of reading. -/
abbrev Read (α : Type) := StateT ReadState (Except Defect) α

namespace Read

/-- The next token. The text is scanned as far as it takes to tell what it is. -/
def peek : Read Token := do
  let s ← get
  if !s.ready then
    let (_, scanner) ← (Scan.fetchUntilReady (s.scanner.limit + 4)).run s.scanner
    set { s with scanner := scanner, ready := true }
  match (← get).scanner.queue with
  | [] => throw .missingContent
  | t :: _ => return t

/-- The kind of the next token. -/
def peekKind : Read TokenKind :=
  Token.kind <$> peek

/-- Take the next token. -/
def skip : Read Unit :=
  modify fun s => { s with
    ready := false
    scanner := { s.scanner with queue := s.scanner.queue.drop 1, taken := s.scanner.taken + 1 } }

/-- The anchor and the tag in front of a value, and the line of the first of them. -/
structure Properties where
  anchor : Option String := none
  tag : Option (String × String) := none
  line : Option Nat := none

/-- An anchor and a tag, in either order. -/
def properties : Read Properties := do
  let first ← peek
  match first.kind with
  | .anchor name =>
    skip
    match ← peekKind with
    | .tag handle rest =>
      skip
      return { anchor := some name, tag := some (handle, rest), line := some first.line }
    | _ => return { anchor := some name, line := some first.line }
  | .tag handle rest =>
    skip
    match ← peekKind with
    | .anchor name =>
      skip
      return { anchor := some name, tag := some (handle, rest), line := some first.line }
    | _ => return { tag := some (handle, rest), line := some first.line }
  | _ => return {}

/-- The tag that is written in front of a value. A lone exclamation mark is none. -/
def Properties.tag? (p : Properties) : Read (Option Tag) := do
  match p.tag with
  | none => return none
  | some (handle, rest) =>
    let name ← if handle = "" then pure rest
      else match (← get).handles.lookup handle with
        | some meaning => pure (meaning ++ rest)
        | none => throw .unknownHandle
    return if name = "!" then none else some (Tag.ofName name)

/-- Give the next number to an anchor. -/
def define (name : String) : Read Nat := do
  let s ← get
  let number := s.names.length
  set { s with names := (name, number) :: s.names }
  return number

/-- The value with a number is complete. -/
def complete (number : Option Nat) (n : Node) : Read Node := do
  match number with
  | some k => modify fun s => { s with anchored := (k, n) :: s.anchored }
  | none => pure ()
  return n

/-- The tag of a scalar without one in front of it. -/
def defaultTag (text : String) (style : Style) : Tag :=
  if style ≠ .plain then .str
  else if text = "<<" then .merge
  else impliedTag true text

/-- Nothing is written before the next token of a block mapping. -/
def endsBlockValue (k : TokenKind) : Bool :=
  k = .key || k = .value || k = .blockEnd

/-- The comma before an entry that is neither the first nor the end. -/
def flowComma (first : Bool) (ending : TokenKind) : Read Unit := do
  let k ← peekKind
  if first || k = ending then return
  else if k = .flowEntry then skip
  else throw .unclosedFlow

mutual

/-- A value. Block collections are read only where they are allowed, and a sequence without an
indentation of its own only in a block mapping. -/
def node (block inMapping : Bool) : Nat → Read Node
  | 0 => throw .tooDeep
  | fuel + 1 => do
    let first ← peek
    match first.kind with
    | .alias name =>
      skip
      let s ← get
      match s.names.lookup name with
      | some target =>
        set { s with aliases := s.aliases + 1 }
        return .alias first.line name target s.aliases
      | none => throw (.unknownAnchor name)
    | _ =>
      let p ← properties
      let tag ← p.tag?
      let next ← peek
      let line := p.line.getD next.line
      let number ← p.anchor.mapM define
      match next.kind, block, inMapping with
      | .scalar text style, _, _ =>
        skip
        complete number (.scalar line (tag.getD (defaultTag text style)) text)
      | .flowSequenceStart, _, _ =>
        skip
        complete number (.sequence line (tag.getD .seq) (← flowItems true fuel))
      | .flowMappingStart, _, _ =>
        skip
        complete number (.mapping line (tag.getD .map) (← flowPairs true fuel))
      | .sequenceStart, true, _ =>
        skip
        complete number (.sequence line (tag.getD .seq) (← blockItems fuel))
      | .mappingStart, true, _ =>
        skip
        complete number (.mapping line (tag.getD .map) (← blockPairs fuel))
      | .blockEntry, _, true =>
        complete number (.sequence line (tag.getD .seq) (← looseItems fuel))
      | _, _, _ =>
        if p.line.isSome then complete number (.scalar line (tag.getD .null) "")
        else throw .missingContent

/-- The entries of a block sequence, up to its end. -/
def blockItems : Nat → Read (List Node)
  | 0 => throw .tooDeep
  | fuel + 1 => do
    let t ← peek
    match t.kind with
    | .blockEntry =>
      skip
      let k ← peekKind
      let item ← if k = .blockEntry || k = .blockEnd then pure (Node.absent t.line)
        else node true false fuel
      return item :: (← blockItems fuel)
    | .blockEnd =>
      skip
      return []
    | _ => throw .missingEntry

/-- The entries of a sequence without an indentation of its own. -/
def looseItems : Nat → Read (List Node)
  | 0 => throw .tooDeep
  | fuel + 1 => do
    let t ← peek
    match t.kind with
    | .blockEntry =>
      skip
      let k ← peekKind
      let item ← if k = .blockEntry || endsBlockValue k then pure (Node.absent t.line)
        else node true false fuel
      return item :: (← looseItems fuel)
    | _ => return []

/-- The keys and values of a block mapping, up to its end. -/
def blockPairs : Nat → Read (List (Node × Node))
  | 0 => throw .tooDeep
  | fuel + 1 => do
    let t ← peek
    match t.kind with
    | .key =>
      skip
      let key ← if endsBlockValue (← peekKind) then pure (Node.absent t.line)
        else node true true fuel
      let value ← blockValue fuel
      return (key, value) :: (← blockPairs fuel)
    | .blockEnd =>
      skip
      return []
    | _ => throw .missingKey

/-- The value behind a key of a block mapping. -/
def blockValue : Nat → Read Node
  | 0 => throw .tooDeep
  | fuel + 1 => do
    let t ← peek
    match t.kind with
    | .value =>
      skip
      if endsBlockValue (← peekKind) then return Node.absent t.line else node true true fuel
    | _ => return Node.absent t.line

/-- The entries of a flow sequence, up to its end, with commas between them. -/
def flowItems (first : Bool) : Nat → Read (List Node)
  | 0 => throw .tooDeep
  | fuel + 1 => do
    flowComma first .flowSequenceEnd
    let t ← peek
    match t.kind with
    | .flowSequenceEnd =>
      skip
      return []
    | .key =>
      skip
      let pair ← flowPair fuel
      return .mapping t.line .map [pair] :: (← flowItems false fuel)
    | _ =>
      let item ← node false false fuel
      return item :: (← flowItems false fuel)

/-- A single key with its value as an entry of a flow sequence. A key that is not written takes the
token behind it away. -/
def flowPair : Nat → Read (Node × Node)
  | 0 => throw .tooDeep
  | fuel + 1 => do
    let t ← peek
    let key ← if t.kind = .value || t.kind = .flowEntry || t.kind = .flowSequenceEnd then
        (do skip; pure (Node.absent t.line))
      else node false false fuel
    let value ← flowValue .flowSequenceEnd fuel
    return (key, value)

/-- The value behind a key in a flow collection. -/
def flowValue (ending : TokenKind) : Nat → Read Node
  | 0 => throw .tooDeep
  | fuel + 1 => do
    let t ← peek
    if t.kind = .value then
      skip
      let next ← peek
      if next.kind = .flowEntry || next.kind = ending then return Node.absent next.line
      else node false false fuel
    else return Node.absent t.line

/-- The keys and values of a flow mapping, up to its end, with commas between them. -/
def flowPairs (first : Bool) : Nat → Read (List (Node × Node))
  | 0 => throw .tooDeep
  | fuel + 1 => do
    flowComma first .flowMappingEnd
    let t ← peek
    match t.kind with
    | .flowMappingEnd =>
      skip
      return []
    | .key =>
      skip
      let next ← peek
      let key ← if next.kind = .value || next.kind = .flowEntry || next.kind = .flowMappingEnd then
          pure (Node.absent next.line)
        else node false false fuel
      let value ← flowValue .flowMappingEnd fuel
      return (key, value) :: (← flowPairs false fuel)
    | _ =>
      let key ← node false false fuel
      let next ← peek
      return (key, Node.absent next.line) :: (← flowPairs false fuel)

end

/-- The default meanings of handles. -/
def defaultHandles : List (String × String) :=
  [("!", "!"), ("!!", String.ofList Tag.standardHead)]

/-- The directives at the start of a document. The version is given once at most, and so is the
meaning of a handle. -/
def directives : Nat → Bool → Read Unit
  | 0, _ => throw .tooDeep
  | limit + 1, versioned => do
    match ← peekKind with
    | .version major minor =>
      if versioned then throw .repeatedDirective
      if major ≠ 1 || minor ≠ 1 then throw .wrongVersion
      skip
      directives limit true
    | .handle name meaning =>
      let s ← get
      if (s.handles.lookup name).isSome then throw .repeatedDirective
      set { s with handles := (name, meaning) :: s.handles }
      skip
      directives limit versioned
    | _ => modify fun s => { s with handles := s.handles ++ defaultHandles }

/-- The token is a directive. -/
def isDirective : TokenKind → Bool
  | .version _ _ => true
  | .handle _ _ => true
  | _ => false

/-- The tree of a document after its start, or nothing. -/
def content (limit : Nat) : Read Node := do
  let t ← peek
  if isDirective t.kind || t.kind = .documentStart || t.kind = .documentEnd ||
      t.kind = .streamEnd then
    return Node.absent t.line
  else node true false limit

/-- The first document, up to the token behind it. -/
def document (limit : Nat) : Read (Option Node) := do
  let first ← peekKind
  if first = .streamEnd then return none
  else
    directives limit false
    let root ← if isDirective first || first = .documentStart then do
        if (← peekKind) ≠ .documentStart then throw .missingDocument
        skip
        content limit
      else node true false limit
    let _ ← peek
    return some root

end Read

/-- The first document of a text given as bytes; `none` when there is no document at all. A character
makes five tokens at most, and the reader takes four steps for a token at most. -/
def Document.ofBytes? (bytes : Bytes) : Except Defect (Option Document) :=
  let size := bytes.length
  let scanner : Scanner := { cursor := Cursor.ofBytes bytes, limit := size + 4 }
  match (Read.document (20 * size + 100)).run { scanner := scanner } with
  | .error d => .error d
  | .ok (none, _) => .ok none
  | .ok (some root, s) =>
    .ok (some { root := root, anchored := s.anchored, limit := (size + 2) * (size + 2) })

end MiniLua.Yaml
