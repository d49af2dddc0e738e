import MiniLua.Yaml.Scalar

/-!
# From a YAML text to tokens

The scanner walks along a text and queues its tokens. It keeps the columns of the open block
collections, the depth of the open flow collections, and for each depth the place where a key
without a mark may have started. When a colon shows that it was a key, the tokens for it are put in
front of it, or at the end of the queue when it was taken already.

A key without a mark lies in one line and has at most 1024 characters. A scalar that starts at the
column of its block mapping has to be a key.

Tokens are scanned on demand. The first of the queue may be taken when there are two more behind it
and it cannot turn out to be the start of a key, so what lies further behind in the text is not
looked at.

## Delivered

- `KeyStart`, `Scanner`, `Scan`: the state and its steps.
- `Scan.fetch`: one step, which queues at least one token.
- `Scan.fetchUntilReady`: as many steps as the first token of the queue asks for.
-/

set_option autoImplicit false

namespace MiniLua.Yaml

/-- The place where a key without a mark may have started: the number of its token among all tokens
of the text, and where it is. -/
structure KeyStart where
  possible : Bool := false
  required : Bool := false
  number : Nat
  index : Nat := 0
  line : Nat := 0
  column : Nat := 0

/-- The state of the scanner. The columns of block collections and the starts of keys are listed from
the inside out; there is one start of a key for each depth. -/
structure Scanner where
  cursor : Cursor
  /-- The tokens that were not taken yet. -/
  queue : List Token := []
  /-- The number of tokens that were taken. -/
  taken : Nat := 0
  depth : Nat := 0
  columns : List Nat := []
  keys : List KeyStart := [{ number := 0 }]
  /-- The depths of possible keys, by the numbers of their tokens. -/
  keyDepths : List (Nat × Nat) := []
  keyAllowed : Bool := true
  /-- More than the number of characters of the text; no loop takes more steps. -/
  limit : Nat

namespace Scanner

/-- The column of the innermost block collection. -/
def indent? (s : Scanner) : Option Nat :=
  s.columns.head?

/-- Inside of a flow collection. -/
def inFlow (s : Scanner) : Bool :=
  0 < s.depth

/-- The number that the next token gets. -/
def nextNumber (s : Scanner) : Nat :=
  s.taken + s.queue.length

/-- A token at the end of the queue, on the line of the cursor. -/
def push (s : Scanner) (kind : TokenKind) : Scanner :=
  { s with queue := s.queue ++ [⟨kind, s.cursor.line + 1⟩] }

/-- A token in front of the one with the given number, or at the end of the queue when that one was
taken. -/
def insert (s : Scanner) (number : Nat) (token : Token) : Scanner :=
  if number < s.taken then { s with queue := s.queue ++ [token] }
  else { s with queue := s.queue.insertIdx (number - s.taken) token }

/-- The start of a key of the given depth. -/
def key? (s : Scanner) (depth : Nat) : Option KeyStart :=
  if s.depth < depth then none else s.keys[s.depth - depth]?

/-- No key starts where one of the given depth may have started. -/
def forgetKey (s : Scanner) (depth : Nat) : Scanner :=
  { s with keys := s.keys.modify (s.depth - depth) fun k => { k with possible := false } }

/-- The token with the given number starts no key. -/
def forgetDepth (s : Scanner) (number : Nat) : Scanner :=
  { s with keyDepths := s.keyDepths.filter fun entry => entry.1 ≠ number }

end Scanner

/-- Steps of the scanner. -/
abbrev Scan (α : Type) := StateT Scanner (Except Defect) α

namespace Scan

/-- Walk along the text. -/
def walk {α : Type} (w : Walk α) : Scan α := do
  let s ← get
  let (a, c) ← w.run s.cursor
  set { s with cursor := c }
  return a

/-! ## Keys and blocks -/

/-- The possible key of the innermost depth is given up. One that has to be a key is missed. -/
def dropKey : Scan Unit := do
  let s ← get
  match s.keys with
  | key :: _ =>
    if key.possible then
      if key.required then throw .missingColon
      set ((s.forgetKey s.depth).forgetDepth key.number)
  | [] => pure ()

/-- A key may start here. -/
def markKey : Scan Unit := do
  if (← get).keyAllowed then
    dropKey
    let s ← get
    let c := s.cursor
    let key : KeyStart :=
      { possible := true
        required := s.depth = 0 && s.indent? = some c.column
        number := s.nextNumber, index := c.index, line := c.line, column := c.column }
    set { s.forgetDepth key.number with
      keys := key :: s.keys.drop 1
      keyDepths := (key.number, s.depth) :: (s.forgetDepth key.number).keyDepths }

/-- The possible key of a depth, if it is near enough to be one. A key that is too far away is given
up. -/
def nearKey? (depth : Nat) : Scan (Option KeyStart) := do
  let s ← get
  match s.key? depth with
  | some key =>
    if !key.possible then return none
    else if key.line < s.cursor.line || key.index + 1024 < s.cursor.index then
      if key.required then throw .missingColon
      set (s.forgetKey depth)
      return none
    else return some key
  | none => return none

/-- Open a block collection when the column is a new one. -/
def openBlock (column : Nat) (place : Scanner → Scanner) : Scan Unit := do
  let s ← get
  if s.depth = 0 && s.indent?.all (· < column) then
    if 10000 ≤ s.columns.length then throw .tooDeep
    set (place { s with columns := column :: s.columns })

/-- Open a block collection at the cursor when its column is a new one. -/
def openBlockHere (kind : TokenKind) : Scan Unit := do
  openBlock (← get).cursor.column fun s => s.push kind

/-- Close the block collections that start right of a column; `none` closes all. Inside of a flow
collection there are none to close. -/
def closeBlocks (column : Option Nat) : Scan Unit := do
  let s ← get
  if s.depth = 0 then
    let closed := s.columns.takeWhile fun c => column.all (· < c)
    let ends := closed.map fun _ => (⟨.blockEnd, s.cursor.line + 1⟩ : Token)
    if !closed.isEmpty then
      set { s with queue := s.queue ++ ends, columns := s.columns.drop closed.length }

/-! ## Blanks and comments -/

/-- A line break outside of ASCII. -/
def isWideBreak (c : Char) : Bool :=
  isBreak c && c ≠ '\n' && c ≠ '\r'

/-- The distance of the next comment, from place `k` of the characters `rest` that are ahead. Only
blanks may lie in between, or blanks and breaks; a break of Unicode is not looked past. -/
def lookForComment (overBreaks : Bool) : Nat → Nat → List Char → Walk (Option Nat)
  | 0, _, _ => return none
  | limit + 1, k, rest => do
    let rest ← if rest.isEmpty then do
        Walk.need (k + 1)
        pure ((← get).ahead.drop k)
      else pure rest
    match rest with
    | [] => return none
    | x :: more =>
      if isBlank x || (overBreaks && (x = '\n' || x = '\r')) then
        lookForComment overBreaks limit (k + 1) more
      else if overBreaks && isBreak x then
        if 0 < limit then Walk.need (k + 2)
        return none
      else return if x = '#' then some k else none

/-- Pass over everything up to the end of the line on which the character with index `seen` is. -/
def passComment (seen : Nat) : Nat → Walk Unit
  | 0 => pure ()
  | limit + 1 => do
    Walk.need 1
    let c ← get
    if endsLine c.ahead then
      if c.index < seen then
        Walk.need 2
        let _ ← Walk.lineBreak
        passComment seen limit
    else
      Walk.skip
      passComment seen limit

/-- A comment, with the comments after it that only blanks and breaks separate from it. At most 512
characters are looked through for the next one, from the place `k` on, and none behind a break of
Unicode. -/
def passComments (steps : Nat) : Nat → Nat → Walk Unit
  | 0, _ => pure ()
  | limit + 1, k => do
    let c ← get
    match ← lookForComment true (512 - k) k (c.ahead.drop k) with
    | some found =>
      passComment (c.index + found) steps
      if (← Walk.here).any isWideBreak then Walk.need 2
      else passComments steps limit 1
    | none => pure ()

/-- Go to the next token. The answer tells whether a key may start there. Tabs count as blanks only
where no key may start. -/
def toToken (steps : Nat) (inFlow : Bool) : Nat → Bool → Walk Bool
  | 0, keyAllowed => return keyAllowed
  | limit + 1, keyAllowed => do
    Walk.need 1
    let c ← get
    if c.column = 0 && c.marked then Walk.skip
    Walk.need 1
    Walk.skipWhile (fun x => x = ' ' || (x = '\t' && (inFlow || !keyAllowed))) steps
    if (← Walk.here) = some '#' then passComments steps steps 0
    if startsBreak (← get).ahead then
      Walk.need 2
      let _ ← Walk.lineBreak
      toToken steps inFlow limit (keyAllowed || !inFlow)
    else return keyAllowed

/-- A comment behind a token on the same line is passed over. -/
def passLineComment (steps : Nat) : Walk Unit := do
  let c ← get
  if c.breaks = 0 then
    match ← lookForComment false 512 0 c.ahead with
    | some found => passComment (c.index + found) steps
    | none => pure ()

/-! ## Marks -/

/-- A mark that stands for itself. -/
def mark (kind : TokenKind) (length : Nat) : Scan Unit := do
  modify fun s => s.push kind
  walk (Walk.skips length)

/-- Say whether a key may start at the next token. -/
def allowKey (allowed : Bool) : Scan Unit :=
  modify fun s => { s with keyAllowed := allowed }

/-- The end of the text, a directive or a mark between documents closes everything. -/
def closeAll : Scan Unit := do
  closeBlocks none
  dropKey
  allowKey false

/-- The end of the text. It starts a new line. -/
def textEnd : Scan Unit := do
  walk (modify fun c => if c.column = 0 then c else { c with line := c.line + 1, column := 0 })
  closeAll
  modify fun s => s.push .streamEnd

/-- A mark between documents. -/
def documentMark (kind : TokenKind) : Scan Unit := do
  closeAll
  mark kind 3

/-- The start of a flow collection. Until a key may start in it, its own token is kept as the start
of the keys of its depth. -/
def flowStart (kind : TokenKind) : Scan Unit := do
  markKey
  let s ← get
  if 10000 ≤ s.depth then throw .tooDeep
  set { s with
    keys := { number := s.nextNumber } :: s.keys, depth := s.depth + 1, keyAllowed := true }
  mark kind 1

/-- The end of a flow collection. -/
def flowEnd (kind : TokenKind) : Scan Unit := do
  dropKey
  let s ← get
  match s.depth, s.keys with
  | depth + 1, key :: outer => set { s.forgetDepth key.number with keys := outer, depth := depth }
  | _, _ => pure ()
  allowKey false
  mark kind 1

/-- A comma in a flow collection. -/
def flowEntry : Scan Unit := do
  dropKey
  allowKey true
  mark .flowEntry 1

/-- A hyphen before an entry. -/
def blockEntry : Scan Unit := do
  let s ← get
  if s.depth = 0 then
    if !s.keyAllowed then throw .misplacedEntry
    openBlockHere .sequenceStart
  dropKey
  allowKey true
  mark .blockEntry 1

/-- A question mark before a key. -/
def keyMark : Scan Unit := do
  let s ← get
  if s.depth = 0 then
    if !s.keyAllowed then throw .misplacedKey
    openBlockHere .mappingStart
  dropKey
  allowKey (s.depth = 0)
  mark .key 1

/-- A colon before a value. -/
def valueMark : Scan Unit := do
  match ← nearKey? (← get).depth with
  | some key =>
    modify fun s => s.insert key.number ⟨.key, key.line + 1⟩
    openBlock key.column fun s => s.insert key.number ⟨.mappingStart, key.line + 1⟩
    modify fun s => (s.forgetKey s.depth).forgetDepth key.number
    allowKey false
  | none =>
    let s ← get
    if s.depth = 0 then
      if !s.keyAllowed then throw .misplacedValue
      openBlockHere .mappingStart
    allowKey (s.depth = 0)
  mark .value 1

/-! ## Anchors, tags and directives -/

/-- A letter, a digit, an underscore or a hyphen. -/
def isNameChar (c : Char) : Bool :=
  c.isAlphanum || c = '_' || c = '-'

/-- The name behind an ampersand or an asterisk. -/
def anchorName (limit : Nat) : Walk String := do
  Walk.skip
  Walk.need 1
  let name ← Walk.takeWhile isNameChar limit []
  let next := (← get).ahead
  if name.isEmpty || !(endsWord next || next.head?.any (· ∈ "?:,]\x7d%@\x60".toList)) then
    throw .badAnchor
  return String.ofList name

/-- A token that the walk `w` reads, at the line where it starts. -/
def read (w : Walk TokenKind) : Scan Unit := do
  let line := (← get).cursor.line + 1
  let kind ← walk w
  modify fun s => { s with queue := s.queue ++ [⟨kind, line⟩] }

/-- An anchor or an alias. -/
def anchor (kind : String → TokenKind) : Scan Unit := do
  markKey
  allowKey false
  read (kind <$> anchorName (← get).limit)

/-- A character of a tag. -/
def isTagChar (c : Char) : Bool :=
  isNameChar c || c ∈ ";/?:@&=+$,.!~*'()[]%".toList

/-- Bytes written as percent signs and two digits each, until they make a character of `left` bytes.
The first byte tells how many there are. -/
def percentBytes : Nat → Option Nat → Bytes → Walk Bytes
  | 0, _, _ => throw .badTag
  | limit + 1, left, read => do
    Walk.need 3
    match (← get).ahead.take 3 with
    | ['%', a, b] =>
      match Text.hexValue? a, Text.hexValue? b with
      | some high, some low =>
        let octet := UInt8.ofNat (high * 16 + low)
        let width := left.getD (utf8Width octet)
        if width = 0 || (left.isSome && !Text.isContinuation octet) then throw .badTag
        Walk.skips 3
        if width = 1 then return octet :: read
        else percentBytes limit (some (width - 1)) (octet :: read)
      | _, _ => throw .badTag
    | _ => throw .badTag

/-- The characters of a tag at the cursor, as bytes after those in `read`, last first. -/
def tagBytes : Nat → Bytes → Walk Bytes
  | 0, read => return read
  | limit + 1, read => do
    match ← Walk.here with
    | some c =>
      if c = '%' then
        let read ← percentBytes 4 none read
        Walk.need 1
        tagBytes limit read
      else if isTagChar c then
        Walk.skip
        Walk.need 1
        tagBytes limit (UInt8.ofNat c.toNat :: read)
      else return read
    | none => return read

/-- The characters of a tag at the cursor, after those of `head`. Without a head there has to be
one. -/
def tagRest (limit : Nat) (head : Option (List Char)) : Walk String := do
  Walk.need 1
  let start := (head.getD []).reverse.map fun c => UInt8.ofNat c.toNat
  let bytes ← tagBytes limit start
  if head.isNone && bytes.isEmpty then throw .badTag
  return String.ofList (Text.decode bytes.reverse)

/-- A name behind an exclamation mark, and whether another exclamation mark ends it. -/
def handleName (limit : Nat) : Walk (List Char × Bool) := do
  Walk.need 1
  if (← Walk.here) ≠ some '!' then throw .badTag
  Walk.skip
  Walk.need 1
  let name ← Walk.takeWhile isNameChar limit []
  if (← Walk.here) = some '!' then
    Walk.skip
    return (name, true)
  else return (name, false)

/-- The handle with a name. -/
def handleText (name : List Char) : String :=
  String.ofList ('!' :: name ++ ['!'])

/-- A tag: between angle brackets, behind a handle, or behind an exclamation mark. -/
def tagKind (limit : Nat) : Walk TokenKind := do
  Walk.need 2
  let kind ← if ((← get).ahead.drop 1).head? = some '<' then do
      Walk.skips 2
      let rest ← tagRest limit none
      if (← Walk.here) ≠ some '>' then throw .badTag
      Walk.skip
      pure (TokenKind.tag "" rest)
    else do
      let (name, closed) ← handleName limit
      if closed then pure (TokenKind.tag (handleText name) (← tagRest limit none))
      else
        let rest ← tagRest limit (some name)
        pure (if rest.isEmpty then .tag "" "!" else .tag "!" rest)
  Walk.need 1
  if !endsWord (← get).ahead then throw .badTag
  return kind

/-- A tag. -/
def tag : Scan Unit := do
  markKey
  allowKey false
  read (tagKind (← get).limit)

/-- A part of a version: one or two digits. -/
def versionPart (limit : Nat) : Walk Nat := do
  Walk.need 1
  let digits ← Walk.takeWhile Char.isDigit limit []
  if digits.isEmpty || 2 < digits.length then throw .badDirective
  return digits.foldl (fun n c => n * 10 + (c.toNat - 48)) 0

/-- The version behind the name of its directive. -/
def versionKind (limit : Nat) : Walk TokenKind := do
  Walk.need 1
  Walk.skipWhile isBlank limit
  let major ← versionPart limit
  if (← Walk.here) ≠ some '.' then throw .badDirective
  Walk.skip
  return .version major (← versionPart limit)

/-- A handle and its meaning behind the name of their directive. -/
def handleKind (limit : Nat) : Walk TokenKind := do
  Walk.need 1
  Walk.skipWhile isBlank limit
  let (name, closed) ← handleName limit
  if !closed && !name.isEmpty then throw .badDirective
  Walk.need 1
  if !(← Walk.here).any isBlank then throw .badDirective
  Walk.skipWhile isBlank limit
  let meaning ← tagRest limit none
  Walk.need 1
  if !endsWord (← get).ahead then throw .badDirective
  return .handle (if closed then handleText name else "!") meaning

/-- A directive, with the rest of its line. -/
def directiveKind (limit : Nat) : Walk TokenKind := do
  Walk.skip
  Walk.need 1
  let name ← Walk.takeWhile isNameChar limit []
  if !endsWord (← get).ahead then throw .badDirective
  let kind ← if name = "YAML".toList then versionKind limit
    else if name = "TAG".toList then handleKind limit
    else throw .badDirective
  Walk.need 1
  Walk.skipWhile isBlank limit
  if (← Walk.here) = some '#' then Walk.skipLine limit
  if !endsLine (← get).ahead then throw .badDirective
  if startsBreak (← get).ahead then Walk.need 2
  let _ ← Walk.lineBreak
  return kind

/-- A directive closes everything. -/
def directive : Scan Unit := do
  closeAll
  read (directiveKind (← get).limit)

/-! ## Scalars -/

/-- A block scalar. -/
def block (folded : Bool) : Scan Unit := do
  dropKey
  allowKey true
  let s ← get
  read do return .scalar (← blockScalar s.limit folded s.indent?) .block

/-- A quoted scalar. -/
def quoted (double : Bool) : Scan Unit := do
  markKey
  allowKey false
  let s ← get
  read do return .scalar (← quotedScalar s.limit double) .quoted

/-- A plain scalar. Behind a line break a key may start again. -/
def plain : Scan Unit := do
  markKey
  let s ← get
  let least := match s.indent? with
    | some n => n + 1
    | none => 0
  let (text, broken) ← walk (plainScalar s.limit s.inFlow least)
  modify fun t => { t with queue := t.queue ++ [⟨.scalar text .plain, s.cursor.line + 1⟩] }
  allowKey broken

/-- Characters that start no plain scalar, whatever follows. -/
def startsNoPlain (c : Char) : Bool :=
  isBlank c || isBreak c || c ∈ "-?:,[]\x7b\x7d#&*!|>'\"%@\x60".toList

/-- A plain scalar starts here. -/
def startsPlain (inFlow : Bool) (c : Char) (rest : List Char) : Bool :=
  !startsNoPlain c || (c = '-' && !rest.head?.any isBlank) ||
    (!inFlow && (c = '?' || c = ':') && !endsWord rest)

/-! ## Tokens -/

/-- A step, and the comment behind its token. -/
def thenComment (step : Scan Unit) : Scan Unit := do
  step
  walk (passLineComment (← get).limit)

/-- Queue the token that starts with the character `c`. -/
def token (c : Char) (rest : List Char) : Scan Unit := do
  let s ← get
  if s.cursor.column = 0 && c = '%' then directive
  else if s.cursor.atMark '-' then documentMark .documentStart
  else if s.cursor.atMark '.' then documentMark .documentEnd
  else if c = '[' then thenComment (flowStart .flowSequenceStart)
  else if c = '\x7b' then thenComment (flowStart .flowMappingStart)
  else if c = ']' then thenComment (flowEnd .flowSequenceEnd)
  else if c = '\x7d' then thenComment (flowEnd .flowMappingEnd)
  else if c = ',' then thenComment flowEntry
  else if c = '-' && endsWord rest then blockEntry
  else if c = '?' && (s.inFlow || endsWord rest) then thenComment keyMark
  else if c = ':' && (s.inFlow || endsWord rest) then thenComment valueMark
  else if c = '*' then thenComment (anchor .alias)
  else if c = '&' then thenComment (anchor .anchor)
  else if c = '!' then thenComment tag
  else if c = '|' && !s.inFlow then thenComment (block false)
  else if c = '>' && !s.inFlow then thenComment (block true)
  else if c = '\'' then thenComment (quoted false)
  else if c = '"' then thenComment (quoted true)
  else if startsPlain s.inFlow c rest then thenComment plain
  else throw .unexpectedCharacter

/-- One step: pass over blanks and comments, close what the indentation closes, and queue the next
token. At the end of the text every step queues its end. -/
def fetch : Scan Unit := do
  walk (Walk.need 1)
  let s ← get
  let keyAllowed ← walk (toToken s.limit s.inFlow s.limit s.keyAllowed)
  allowKey keyAllowed
  closeBlocks (some (← get).cursor.column)
  walk (Walk.need 4)
  match (← get).cursor.ahead with
  | [] => textEnd
  | c :: rest => token c rest

/-- The first token of the queue may be taken: there are two more behind it, and it starts no key
that a colon may follow. -/
def isReady : Scan Bool := do
  let s ← get
  match s.queue with
  | _ :: _ :: _ :: _ =>
    match s.keyDepths.lookup s.taken with
    | none => return true
    | some depth => return (← nearKey? depth).isNone
  | _ => return false

/-- Scan until the first token of the queue may be taken. Every step but three takes a character, so
the limit is never met. -/
def fetchUntilReady : Nat → Scan Unit
  | 0 => pure ()
  | limit + 1 => do
    if !(← isReady) then
      fetch
      fetchUntilReady limit

end Scan
end MiniLua.Yaml
