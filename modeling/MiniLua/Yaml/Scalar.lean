import MiniLua.Text.Hex
import MiniLua.Yaml.Token

/-!
# YAML scalars

Three ways to write a text. A plain scalar goes on over lines that are indented far enough; a quoted
one up to its closing quote; a block scalar takes whole lines. In the first two, a single line break
is read as a space, and of several breaks all but the first are kept.

## Delivered

- `Gap`: blanks and line breaks between words, and what they are read as.
- `plainScalar`, `quotedScalar`, `blockScalar`: the three ways, as walks to what follows the scalar.
  Each takes a limit on its steps, which is more than the number of characters left.
-/

set_option autoImplicit false

namespace MiniLua.Yaml

/-! ## Gaps between words -/

/-- Blanks and breaks between two words, last first. -/
inductive Gap where
  | blanks (reversed : List Char)
  /-- The first break, when it counts, and the later ones. -/
  | broken (first : Option Char) (later : List Char)

namespace Gap

/-- No gap. -/
def none : Gap :=
  .blanks []

/-- One more blank. Blanks after a break do not count. -/
def blank (c : Char) : Gap → Gap
  | .blanks reversed => .blanks (c :: reversed)
  | .broken first later => .broken first later

/-- One more break. Blanks before the first break do not count. -/
def lineBreak (c : Char) : Gap → Gap
  | .blanks _ => .broken (some c) []
  | .broken first later => .broken first (c :: later)

/-- A line break was met. -/
def isBroken : Gap → Bool
  | .blanks _ => false
  | .broken _ _ => true

/-- What a gap is read as, last character first. -/
def reading : Gap → List Char
  | .blanks reversed => reversed
  | .broken (some '\n') [] => [' ']
  | .broken (some '\n') later => later
  | .broken (some c) later => later ++ [c]
  | .broken Option.none later => later

end Gap

/-! ## Plain scalars -/

/-- Characters that end a plain scalar inside a flow collection. -/
def endsFlowWord (c : Char) : Bool :=
  c = ',' || c = '?' || c = '[' || c = ']' || c = '\x7b' || c = '\x7d'

/-- A word of a plain scalar ends before these characters. A colon ends it before a blank. -/
def endsPlainWord (inFlow : Bool) (ahead : List Char) : Bool :=
  match ahead with
  | [] => true
  | c :: rest =>
    isBlank c || isBreak c || (c = ':' && endsWord rest) || (inFlow && endsFlowWord c)

/-- The word at the cursor, after the characters `read`, the last of which comes first. -/
def plainWord (inFlow : Bool) : Nat → List Char → Walk (List Char)
  | 0, read => return read
  | limit + 1, read => do
    match (← get).ahead with
    | [] => return read
    | c :: rest =>
      if endsPlainWord inFlow (c :: rest) then return read
      else
        Walk.skip
        Walk.need 2
        plainWord inFlow limit (c :: read)

/-- The blanks and breaks at the cursor, after those of `gap`. With a column given, tabs before it on
a new line are refused. -/
def gapFrom (tabsFrom : Option Nat) : Nat → Gap → Walk Gap
  | 0, gap => return gap
  | limit + 1, gap => do
    let c ← get
    match c.ahead with
    | [] => return gap
    | x :: _ =>
      if isBlank x then
        if x = '\t' && gap.isBroken && tabsFrom.any (c.column < ·) then throw .tabIndentation
        else
          Walk.skip
          Walk.need 1
          gapFrom tabsFrom limit (gap.blank x)
      else if isBreak x then
        Walk.need 2
        match ← Walk.lineBreak with
        | some b =>
          Walk.need 1
          gapFrom tabsFrom limit (gap.lineBreak b)
        | none => return gap
      else return gap

/-- A plain scalar with its text so far, last character first, and the gap after it. -/
def plainLoop (inFlow : Bool) (indent : Nat) : Nat → List Char → Gap → Walk (List Char × Gap)
  | 0, text, gap => return (text, gap)
  | limit + 1, text, gap => do
    Walk.need 4
    let c ← get
    if c.atAnyMark || c.ahead.head? = some '#' then return (text, gap)
    else
      let word ← plainWord inFlow (limit + 1) []
      let text := if word.isEmpty then text else word ++ (gap.reading ++ text)
      let gap := if word.isEmpty then gap else Gap.none
      if !startsGap (← get).ahead then return (text, gap)
      else
        let gap ← gapFrom (some indent) (limit + 1) gap
        if !inFlow && (← get).column < indent then return (text, gap)
        else plainLoop inFlow indent limit text gap

/-- A plain scalar in lines indented by at least `indent`: its text, and whether a line break follows
it. -/
def plainScalar (limit : Nat) (inFlow : Bool) (indent : Nat) : Walk (String × Bool) := do
  let (text, gap) ← plainLoop inFlow indent limit [] Gap.none
  return (String.ofList text.reverse, gap.isBroken)

/-! ## Quoted scalars -/

/-- What follows a backslash. -/
inductive Escape where
  | char (c : Char)
  | code (digits : Nat)

/-- The meaning of the character after a backslash. -/
def escape? (c : Char) : Option Escape :=
  match c with
  | '0' => some (.char '\x00')
  | 'a' => some (.char '\x07')
  | 'b' => some (.char '\x08')
  | 't' => some (.char '\t')
  | '\t' => some (.char '\t')
  | 'n' => some (.char '\n')
  | 'v' => some (.char '\x0b')
  | 'f' => some (.char '\x0c')
  | 'r' => some (.char '\r')
  | 'e' => some (.char '\x1b')
  | ' ' => some (.char ' ')
  | '"' => some (.char '"')
  | '\'' => some (.char '\'')
  | '\\' => some (.char '\\')
  | 'N' => some (.char '\x85')
  | '_' => some (.char '\xa0')
  | 'L' => some (.char '\u2028')
  | 'P' => some (.char '\u2029')
  | 'x' => some (.code 2)
  | 'u' => some (.code 4)
  | 'U' => some (.code 8)
  | _ => none

/-- The character with the given hexadecimal digits. Surrogates and numbers that are too large are
refused. -/
def charOfCode? (digits : List Char) : Option Char :=
  match digits.mapM Text.hexValue? with
  | none => none
  | some values =>
    let n := values.foldl (fun acc v => acc * 16 + v) 0
    if (0xd800 ≤ n && n ≤ 0xdfff) || 0x10ffff < n then none else some (Char.ofNat n)

/-- The next `n` characters are the digits of a character. -/
def codeAhead (n : Nat) : Walk Char := do
  Walk.need n
  let digits := (← get).ahead.take n
  match if digits.length < n then none else charOfCode? digits with
  | some x =>
    Walk.skips n
    return x
  | none => throw .badEscape

/-- The character behind the backslash at the cursor. -/
def escaped : Walk Char := do
  match ((← get).ahead.drop 1).head?.bind escape? with
  | some (.char x) =>
    Walk.skips 2
    return x
  | some (.code digits) =>
    Walk.skips 2
    codeAhead digits
  | none => throw .badEscape

/-- The word at the cursor, after the characters `read`, the last of which comes first. The second
part tells that a backslash and a line break ended it. -/
def quotedWord (double : Bool) : Nat → List Char → Walk (List Char × Bool)
  | 0, read => return (read, false)
  | limit + 1, read => do
    let ahead := (← get).ahead
    let quote := if double then '"' else '\''
    if endsWord ahead then return (read, false)
    else if !double && ahead.take 2 = ['\'', '\''] then
      Walk.skips 2
      Walk.need 2
      quotedWord double limit ('\'' :: read)
    else if ahead.head? = some quote then return (read, false)
    else if double && ahead.head? = some '\\' then
      if startsBreak (ahead.drop 1) then
        Walk.need 3
        Walk.skip
        let _ ← Walk.lineBreak
        return (read, true)
      else
        let x ← escaped
        Walk.need 2
        quotedWord double limit (x :: read)
    else
      Walk.skip
      Walk.need 2
      quotedWord double limit (ahead.take 1 ++ read)

/-- A quoted scalar behind its opening quote, with its text so far, last character first. -/
def quotedLoop (double : Bool) : Nat → List Char → Walk (List Char)
  | 0, _ => throw .unclosedQuote
  | limit + 1, text => do
    Walk.need 4
    let c ← get
    if c.atAnyMark then throw .documentMark
    else if c.ahead.isEmpty then throw .unclosedQuote
    else
      let (text, joined) ← quotedWord double (limit + 1) text
      Walk.need 1
      if (← Walk.here) = some (if double then '"' else '\'') then
        Walk.skip
        return text
      else
        let gap ← gapFrom none (limit + 1) (if joined then .broken none [] else Gap.none)
        quotedLoop double limit (gap.reading ++ text)

/-- A quoted scalar at its opening quote. -/
def quotedScalar (limit : Nat) (double : Bool) : Walk String := do
  Walk.skip
  let text ← quotedLoop double limit []
  return String.ofList text.reverse

/-! ## Block scalars -/

/-- What happens to the breaks at the end of a block scalar. -/
inductive Chomping where
  | strip
  | clip
  | keep
deriving DecidableEq

/-- What a character says of the breaks at the end. -/
def chomping? (c : Option Char) : Option Chomping :=
  if c = some '+' then some .keep else if c = some '-' then some .strip else none

/-- The value of a decimal digit. -/
def digit? (c : Option Char) : Option Nat :=
  c.bind fun d => if '0' ≤ d && d ≤ '9' then some (d.toNat - 48) else none

/-- The width of the indentation, when it is given. Zero is refused. -/
def blockWidth : Walk Nat := do
  match digit? (← Walk.here) with
  | some 0 => throw .badBlockHeader
  | some width =>
    Walk.skip
    return width
  | none => return 0

/-- The characters after the mark of a block scalar: chomping and indentation, each at most once and
in either order. -/
def blockHeader : Walk (Chomping × Nat) := do
  Walk.need 1
  match chomping? (← Walk.here) with
  | some chomping =>
    Walk.skip
    Walk.need 1
    return (chomping, ← blockWidth)
  | none =>
    let width ← blockWidth
    if width = 0 then return (.clip, 0)
    else
      Walk.need 1
      match chomping? (← Walk.here) with
      | some chomping =>
        Walk.skip
        return (chomping, width)
      | none => return (.clip, width)

/-- Indentation and empty lines, with the breaks read so far, last first, and the widest indentation
seen. An indentation of zero stands for one that is not known yet. -/
def blockBreaks (indent : Nat) : Nat → List Char → Nat → Walk (List Char × Nat)
  | 0, breaks, widest => return (breaks, widest)
  | limit + 1, breaks, widest => do
    Walk.need 1
    let c ← get
    let inside := indent = 0 || c.column < indent
    match c.ahead with
    | ' ' :: _ =>
      if inside then
        Walk.skip
        blockBreaks indent limit breaks widest
      else return (breaks, max widest c.column)
    | '\t' :: _ => if inside then throw .tabIndentation else return (breaks, max widest c.column)
    | x :: _ =>
      if isBreak x then
        Walk.need 2
        match ← Walk.lineBreak with
        | some b => blockBreaks indent limit (b :: breaks) (max widest c.column)
        | none => return (breaks, max widest c.column)
      else return (breaks, max widest c.column)
    | [] => return (breaks, max widest c.column)

/-- The text of a block scalar so far, last character first; the break at the end of its last line;
the breaks of the empty lines after it, last first; and whether its last line started with a
blank. -/
structure BlockText where
  text : List Char := []
  lastBreak : Option Char := none
  breaks : List Char := []
  blankLine : Bool := false

/-- One more line. In a folded scalar a break between two lines that do not start with a blank is
read as a space, or as nothing before empty lines. -/
def BlockText.addLine (folded : Bool) (t : BlockText) (line : List Char) (lastBreak : Option Char) :
    BlockText :=
  let startsBlank := line.head?.any isBlank
  let between :=
    if folded && !t.blankLine && !startsBlank && t.lastBreak = some '\n' then
      if t.breaks.isEmpty then [' '] else []
    else t.lastBreak.toList
  { text := line.reverse ++ (t.breaks ++ (between ++ t.text))
    lastBreak := lastBreak, breaks := [], blankLine := startsBlank }

/-- The lines of a block scalar. -/
def blockLines (folded : Bool) (indent : Nat) : Nat → BlockText → Walk BlockText
  | 0, t => return t
  | limit + 1, t => do
    let c ← get
    if c.column ≠ indent || c.ahead.isEmpty then return t
    else
      let line ← Walk.takeWhile (fun x => !isBreak x) (limit + 1) []
      Walk.need 2
      let lastBreak ← Walk.lineBreak
      let (breaks, _) ← blockBreaks indent (limit + 1) [] 0
      blockLines folded indent limit { t.addLine folded line lastBreak with breaks := breaks }

/-- A block scalar at its mark, in a collection whose indentation is `parent` when there is one. -/
def blockScalar (limit : Nat) (folded : Bool) (parent : Option Nat) : Walk String := do
  Walk.skip
  let (chomping, width) ← blockHeader
  Walk.need 1
  Walk.skipWhile isBlank limit
  if (← Walk.here) = some '#' then Walk.skipLine limit
  if !endsLine (← get).ahead then throw .badBlockHeader
  else
    if !(← get).ahead.isEmpty then Walk.need 2
    let _ ← Walk.lineBreak
    let given := if width = 0 then 0 else parent.getD 0 + width
    let (breaks, widest) ← blockBreaks given limit [] 0
    let least := match parent with
      | some n => n + 1
      | none => 1
    let indent := if given = 0 then max widest least else given
    let t ← blockLines folded indent limit { breaks := breaks }
    let tail := match chomping with
      | .strip => []
      | .clip => t.lastBreak.toList
      | .keep => t.breaks ++ t.lastBreak.toList
    return String.ofList (tail ++ t.text).reverse

end MiniLua.Yaml
