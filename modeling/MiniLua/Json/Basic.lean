import MiniLua.Text.Decimal
import MiniLua.Text.Quoted

/-!
# JSON values and their text

Values keep the order in which their fields were given. The text is written in front of a
continuation, `write v rest` being the text of `v` followed by `rest`, so that long values are
written in one pass. Inside strings, the characters `<`, `>` and `&` and the two line separators of
Unicode are escaped, so that a text can be placed inside a page or a script.

## Delivered

- `Json`: null, integers, strings, arrays and ordered objects.
- `Json.compact`: the text without any blank.
- `Json.indented`: the text with one item per line and two spaces per level.
- `Json.firstDeeper?`: where a value is nested too deep.
-/

set_option autoImplicit false

namespace MiniLua

/-- A JSON value with integers only and with ordered fields. -/
inductive Json where
  | null
  | num (value : Int)
  | str (text : String)
  | arr (items : List Json)
  | obj (fields : List (String × Json))

namespace Json

/-- A character inside a string. -/
def escape (c : Char) : List Char :=
  if c = '"' || c = '\\' then ['\\', c]
  else if c = '\x08' then ['\\', 'b']
  else if c = '\x0c' then ['\\', 'f']
  else if c = '\n' then ['\\', 'n']
  else if c = '\r' then ['\\', 'r']
  else if c = '\t' then ['\\', 't']
  else if c.toNat < 0x20 || c = '<' || c = '>' || c = '&' || c = '\u2028' || c = '\u2029' then
    '\\' :: 'u' :: Text.hexDigits 4 c.toNat
  else [c]

/-- A string, before `rest`. -/
def writeString (s : String) (rest : List Char) : List Char :=
  '"' :: s.toList.foldr (fun c tail => escape c ++ tail) ('"' :: rest)

/-- An integer in decimal, before `rest`. -/
def writeInt (n : Int) (rest : List Char) : List Char :=
  Text.decimal n ++ rest

mutual

/-- The text of a value without blanks, before `rest`. -/
def write : Json → List Char → List Char
  | .null, rest => 'n' :: 'u' :: 'l' :: 'l' :: rest
  | .num n, rest => writeInt n rest
  | .str s, rest => writeString s rest
  | .arr items, rest => '[' :: writeItems items true (']' :: rest)
  | .obj fields, rest => '\x7b' :: writeFields fields true ('\x7d' :: rest)

/-- The items of an array, each but the first after a comma. -/
def writeItems : List Json → Bool → List Char → List Char
  | [], _, rest => rest
  | v :: vs, first, rest =>
    let tail := v.write (writeItems vs false rest)
    if first then tail else ',' :: tail

/-- The fields of an object, each but the first after a comma. -/
def writeFields : List (String × Json) → Bool → List Char → List Char
  | [], _, rest => rest
  | (key, v) :: fields, first, rest =>
    let tail := writeString key (':' :: v.write (writeFields fields false rest))
    if first then tail else ',' :: tail

end

/-- The text of a value without blanks. -/
def compact (v : Json) : String :=
  String.ofList (v.write [])

/-- A new line at the given level, before `rest`. -/
def newLine (level : Nat) (rest : List Char) : List Char :=
  '\n' :: (List.replicate (2 * level) ' ' ++ rest)

mutual

/-- The text of a value over several lines, before `rest`; `level` is the level of the line on
which it starts. An array or object without items stays on its line. -/
def writeIndented : Json → Nat → List Char → List Char
  | .null, _, rest => 'n' :: 'u' :: 'l' :: 'l' :: rest
  | .num n, _, rest => writeInt n rest
  | .str s, _, rest => writeString s rest
  | .arr [], _, rest => '[' :: ']' :: rest
  | .arr (v :: vs), level, rest =>
    '[' :: writeLines (v :: vs) (level + 1) true (newLine level (']' :: rest))
  | .obj [], _, rest => '\x7b' :: '\x7d' :: rest
  | .obj (field :: fields), level, rest =>
    '\x7b' :: writeFieldLines (field :: fields) (level + 1) true (newLine level ('\x7d' :: rest))

/-- The items of an array, one on each line. -/
def writeLines : List Json → Nat → Bool → List Char → List Char
  | [], _, _, rest => rest
  | v :: vs, level, first, rest =>
    let tail := newLine level (v.writeIndented level (writeLines vs level false rest))
    if first then tail else ',' :: tail

/-- The fields of an object, one on each line. -/
def writeFieldLines : List (String × Json) → Nat → Bool → List Char → List Char
  | [], _, _, rest => rest
  | (key, v) :: fields, level, first, rest =>
    let tail := newLine level (writeString key
      (':' :: ' ' :: v.writeIndented level (writeFieldLines fields level false rest)))
    if first then tail else ',' :: tail

end

/-- The text of a value over several lines, two spaces per level. -/
def indented (v : Json) : String :=
  String.ofList (v.writeIndented 0 [])

/-! ## Depth -/

mutual

/-- The first array or object that is not among the outer `n` levels of a value. -/
def firstDeeper? : Nat → Json → Option Json
  | 0, .arr items => some (.arr items)
  | 0, .obj fields => some (.obj fields)
  | n + 1, .arr items => firstDeeperItem? n items
  | n + 1, .obj fields => firstDeeperField? n fields
  | _, _ => none

/-- The first such value in the items of an array. -/
def firstDeeperItem? : Nat → List Json → Option Json
  | _, [] => none
  | n, v :: vs =>
    match firstDeeper? n v with
    | some found => some found
    | none => firstDeeperItem? n vs

/-- The first such value in the fields of an object. -/
def firstDeeperField? : Nat → List (String × Json) → Option Json
  | _, [] => none
  | n, (_, v) :: fields =>
    match firstDeeper? n v with
    | some found => some found
    | none => firstDeeperField? n fields

end

end Json
end MiniLua
