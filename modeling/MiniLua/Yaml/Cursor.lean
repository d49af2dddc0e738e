import MiniLua.Yaml.Encoding

/-!
# Places in a YAML text

A cursor is a place in a text: the characters that were read ahead, the blocks behind them, and how
far the place is from the start, in characters, lines and columns counted from zero. A block is read
only when a walk needs more characters than there are ahead. Past the end of the text there is
nothing, however often more is asked for.

Five characters and one pair of characters end a line. All but the two separators of Unicode are read
as a newline.

A mark of the byte order is passed over at the start of a line. What counts is not the character at
the cursor but the first one of the window, the characters that were ahead when a block was last
asked for.

## Delivered

- `isBreak`, `isBlank`, `endsWord`, `endsLine`: classes of characters.
- `Cursor`, `Cursor.need`: reading ahead; `Cursor.skip`, `Cursor.lineBreak?`: moving on.
- `Walk`: steps along a text, with `need`, `here`, `skip`, `skipWhile`, `takeWhile`, `lineBreak`.
-/

set_option autoImplicit false

namespace MiniLua.Yaml

/-- A character that ends a line. -/
def isBreak (c : Char) : Bool :=
  c = '\n' || c = '\r' || c = '\x85' || c = '\u2028' || c = '\u2029'

/-- A space or a tab. -/
def isBlank (c : Char) : Bool :=
  c = ' ' || c = '\t'

/-- The rest of a text starts with a blank or a line break, or is empty. -/
def endsWord (rest : List Char) : Bool :=
  match rest with
  | [] => true
  | c :: _ => isBlank c || isBreak c

/-- The rest of a text starts with a line break, or is empty. -/
def endsLine (rest : List Char) : Bool :=
  match rest with
  | [] => true
  | c :: _ => isBreak c

/-- The rest of a text starts with a line break. -/
def startsBreak (rest : List Char) : Bool :=
  match rest with
  | [] => false
  | c :: _ => isBreak c

/-- The rest of a text starts with a blank or a line break. -/
def startsGap (rest : List Char) : Bool :=
  match rest with
  | [] => false
  | c :: _ => isBlank c || isBreak c

/-- A place in a text. -/
structure Cursor where
  /-- The characters that were read ahead. -/
  ahead : List Char := []
  /-- Their number. Asking past the end counts as one more each time. -/
  unread : Nat := 0
  /-- The blocks that were not read yet. -/
  blocks : List Block := []
  /-- The window starts with a mark of the byte order. -/
  marked : Bool := false
  index : Nat := 0
  line : Nat := 0
  column : Nat := 0
  /-- The number of line breaks since the last character that is no blank. -/
  breaks : Nat := 0

namespace Cursor

/-- Read blocks until `n` characters are ahead or the text ends. -/
def fill (n : Nat) : List Block → Cursor → Except Defect Cursor
  | [], c => .ok { c with blocks := [], unread := c.unread + 1 }
  | .error d :: _, _ => .error d
  | .ok chars :: rest, c =>
    let c := { c with ahead := c.ahead ++ chars, unread := c.unread + chars.length, blocks := rest }
    if n ≤ c.unread then .ok c else fill n rest c

/-- The same place with at least `n` characters ahead, unless the text ends before. When a block is
asked for, the window starts anew at the cursor. -/
def need (c : Cursor) (n : Nat) : Except Defect Cursor :=
  if n ≤ c.unread then .ok c
  else (fill n c.blocks c).map fun c => { c with marked := c.ahead.head? = some '\ufeff' }

/-- The cursor after one more character of the line. -/
def skip (c : Cursor) : Cursor :=
  { c with
    ahead := c.ahead.drop 1, unread := c.unread - 1, index := c.index + 1, column := c.column + 1
    breaks := if c.ahead.head?.any isBlank then c.breaks else 0 }

/-- The cursor at the start of the next line, after a break of `n` characters. -/
def newLine (c : Cursor) (n : Nat) : Cursor :=
  { c with
    ahead := c.ahead.drop n, unread := c.unread - n, index := c.index + n
    line := c.line + 1, column := 0, breaks := c.breaks + 1 }

/-- The line break at the cursor as it is read, and the cursor after it. -/
def lineBreak? (c : Cursor) : Option (Char × Cursor) :=
  match c.ahead with
  | '\r' :: '\n' :: _ => some ('\n', c.newLine 2)
  | '\u2028' :: _ => some ('\u2028', c.newLine 1)
  | '\u2029' :: _ => some ('\u2029', c.newLine 1)
  | b :: _ => if isBreak b then some ('\n', c.newLine 1) else none
  | [] => none

/-- A mark between documents, three equal characters and the end of the word, is at the start of a
line. -/
def atMark (c : Cursor) (m : Char) : Bool :=
  c.column = 0 && c.ahead.take 3 = [m, m, m] && endsWord (c.ahead.drop 3)

/-- Either mark between documents. -/
def atAnyMark (c : Cursor) : Bool :=
  c.atMark '-' || c.atMark '.'

/-- The start of a text given as bytes. -/
def ofBytes (bytes : Bytes) : Cursor :=
  { blocks := Yaml.blocks bytes }

end Cursor

/-- Steps along a text. -/
abbrev Walk (α : Type) := StateT Cursor (Except Defect) α

namespace Walk

/-- Read ahead. -/
def need (n : Nat) : Walk Unit := do
  set (← (← get).need n)

/-- The character at the cursor. -/
def here : Walk (Option Char) :=
  return (← get).ahead.head?

/-- Pass over one character. -/
def skip : Walk Unit :=
  modify Cursor.skip

/-- Pass over `n` characters. -/
def skips : Nat → Walk Unit
  | 0 => pure ()
  | n + 1 => do
    skip
    skips n

/-- Pass over a line break, if one is here: the character that it is read as. -/
def lineBreak : Walk (Option Char) := do
  match (← get).lineBreak? with
  | some (b, c) =>
    set c
    return some b
  | none => return none

/-- Pass over the characters of a class that are next. -/
def skipWhile (p : Char → Bool) : Nat → Walk Unit
  | 0 => pure ()
  | limit + 1 => do
    if (← here).any p then
      skip
      need 1
      skipWhile p limit

/-- The characters of a class that are next, after those in `read`, the last of which comes first. -/
def takeWhile (p : Char → Bool) : Nat → List Char → Walk (List Char)
  | 0, read => return read.reverse
  | limit + 1, read => do
    match ← here with
    | some c =>
      if p c then
        skip
        need 1
        takeWhile p limit (c :: read)
      else return read.reverse
    | none => return read.reverse

/-- Pass over the rest of the line. -/
def skipLine (limit : Nat) : Walk Unit :=
  skipWhile (fun c => !isBreak c) limit

end Walk
end MiniLua.Yaml
