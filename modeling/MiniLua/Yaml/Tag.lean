import MiniLua.Text.Decimal

/-!
# YAML tags

A tag names the type of a value. A plain scalar without a tag gets one by its looks: an empty scalar
and a few words stand for nothing or a truth value, and digits may stand for an integer, a decimal
fraction or a date.

## Delivered

- `Tag`, `Tag.ofName`, `Tag.text`: tags and their names.
- `impliedTag`: the tag of a plain scalar.
-/

set_option autoImplicit false

namespace MiniLua.Yaml

/-- The type of a value. -/
inductive Tag where
  | null
  | bool
  | int
  | float
  | timestamp
  | str
  | binary
  | merge
  | seq
  | map
  | other (name : String)
deriving DecidableEq

namespace Tag

/-- The name of a tag in its short form. -/
def text : Tag → String
  | .null => "!!null"
  | .bool => "!!bool"
  | .int => "!!int"
  | .float => "!!float"
  | .timestamp => "!!timestamp"
  | .str => "!!str"
  | .binary => "!!binary"
  | .merge => "!!merge"
  | .seq => "!!seq"
  | .map => "!!map"
  | .other name => name

/-- The tag of a name in its short form. -/
def ofShort (name : String) : Tag :=
  let known := [null, bool, int, float, timestamp, str, binary, merge, seq, map]
  match known.find? fun t => t.text = name with
  | some t => t
  | none => .other name

/-- What the short form abbreviates to two exclamation marks. -/
def standardHead : List Char :=
  "tag:yaml.org,2002:".toList

/-- The tag of a name in its short or its long form. -/
def ofName (name : String) : Tag :=
  if standardHead.isPrefixOf name.toList then
    ofShort (String.ofList ('!' :: '!' :: name.toList.drop standardHead.length))
  else ofShort name

end Tag

/-! ## Numbers -/

/-- The value of a digit in the bases up to sixteen. -/
def digitValue (c : Char) : Nat :=
  if '0' ≤ c && c ≤ '9' then c.toNat - 48
  else if 'a' ≤ c && c ≤ 'f' then c.toNat - 87
  else if 'A' ≤ c && c ≤ 'F' then c.toNat - 55
  else 16

/-- The number with the given digits. -/
def natural? (base : Nat) (digits : List Char) : Option Nat :=
  digits.foldlM (fun n c => if digitValue c < base then some (n * base + digitValue c) else none) 0

/-- A number without a sign, in the base that its start tells. A leading zero means base eight. -/
def magnitude? (digits : List Char) : Option Nat :=
  match digits with
  | [] => none
  | '0' :: x :: d :: rest =>
    if x = 'x' || x = 'X' then natural? 16 (d :: rest)
    else if x = 'b' || x = 'B' then natural? 2 (d :: rest)
    else if x = 'o' || x = 'O' then natural? 8 (d :: rest)
    else natural? 8 (x :: d :: rest)
  | '0' :: rest => natural? 8 rest
  | _ => natural? 10 digits

/-- One or more digits of a base. -/
def digits? (base : Nat) (digits : List Char) : Option Nat :=
  if digits.isEmpty then none else natural? base digits

/-- A number with an optional sign that fits into sixty-four bits, one of them for the sign. -/
def signed? (magnitude? : List Char → Option Nat) (cs : List Char) : Option Int :=
  match cs with
  | '-' :: rest =>
    (magnitude? rest).bind fun n => if n ≤ 9223372036854775808 then some (-n) else none
  | '+' :: rest => (magnitude? rest).bind fun n => if n ≤ 9223372036854775807 then some n else none
  | _ => (magnitude? cs).bind fun n => if n ≤ 9223372036854775807 then some n else none

/-- A number that fits into sixty-four bits, with or without a sign. -/
def bounded? (magnitude? : List Char → Option Nat) (cs : List Char) : Option Int :=
  match signed? magnitude? cs with
  | some n => some n
  | none => (magnitude? cs).bind fun n => if n ≤ 18446744073709551615 then some n else none

/-- An integer. In the bases two and eight, the sign may also stand behind the base. -/
def integer? (cs : List Char) : Option Int :=
  match bounded? magnitude? cs with
  | some n => some n
  | none =>
    match cs with
    | '0' :: 'b' :: rest => bounded? (digits? 2) rest
    | '0' :: 'o' :: rest => bounded? (digits? 8) rest
    | _ => none

/-- The digits at the start of a text, and what follows them. -/
def spanDigits (cs : List Char) : List Char × List Char :=
  cs.span Text.isDigit

/-- An exponent, or nothing: its value when it is well formed. -/
def exponent? (cs : List Char) : Option Int :=
  match cs with
  | [] => some 0
  | e :: rest =>
    if e = 'e' || e = 'E' then
      let (negative, digits) := match rest with
        | '-' :: digits => (true, digits)
        | '+' :: digits => (false, digits)
        | digits => (false, digits)
      if digits.isEmpty || !digits.all Text.isDigit then none
      else
        let significant := digits.dropWhile (· = '0')
        (natural? 10 (significant.take 10)).map fun n => if negative then -(n : Int) else n
    else none

/-- The number `mantissa * 10 ^ exponent` is less than the least one that rounds to no finite
binary fraction of sixty-four bits. -/
def isFinite (mantissa : Nat) (exponent : Int) : Bool :=
  let bound : Nat := Nat.pow 2 1024 - Nat.pow 2 970
  if mantissa = 0 then true
  else if 400 < exponent then false
  else if 0 ≤ exponent then mantissa * Nat.pow 10 exponent.toNat < bound
  else if 400 + (Nat.toDigits 10 mantissa).length < (-exponent).toNat then true
  else mantissa < bound * Nat.pow 10 (-exponent).toNat

/-- The text is a decimal fraction: a sign, digits with at most one point among them, an exponent,
each of them optional except for one digit. -/
def isFraction (cs : List Char) : Bool :=
  let unsigned := match cs with
    | '-' :: rest => rest
    | '+' :: rest => rest
    | rest => rest
  let (whole, rest) := spanDigits unsigned
  let (part, rest) := match rest with
    | '.' :: rest => spanDigits rest
    | rest => ([], rest)
  if whole.isEmpty && part.isEmpty then false
  else
    match exponent? rest, natural? 10 (whole ++ part) with
    | some e, some mantissa => isFinite mantissa (e - part.length)
    | _, _ => false

/-! ## Dates -/

/-- One or two digits, and what follows them. -/
def shortNumber? (cs : List Char) : Option (Nat × List Char) :=
  match cs with
  | a :: b :: rest =>
    if !Text.isDigit a then none
    else if Text.isDigit b then some (digitValue a * 10 + digitValue b, rest)
    else some (digitValue a, b :: rest)
  | [a] => if Text.isDigit a then some (digitValue a, []) else none
  | [] => none

/-- A given character, and what follows it. -/
def expect? (c : Char) (cs : List Char) : Option (List Char) :=
  match cs with
  | x :: rest => if x = c then some rest else none
  | [] => none

/-- The number of days of a month. -/
def daysIn (year month : Nat) : Nat :=
  if month = 2 then
    if year % 4 = 0 && (year % 100 ≠ 0 || year % 400 = 0) then 29 else 28
  else if month = 4 || month = 6 || month = 9 || month = 11 then 30
  else 31

/-- A date at the start of a text, and what follows it. -/
def date? (cs : List Char) : Option (List Char) := do
  let (year, rest) := spanDigits cs
  if year.length ≠ 4 then none
  let rest ← expect? '-' rest
  let (month, rest) ← shortNumber? rest
  let rest ← expect? '-' rest
  let (day, rest) ← shortNumber? rest
  let y ← natural? 10 year
  if 1 ≤ month && month ≤ 12 && 1 ≤ day && day ≤ daysIn y month then some rest else none

/-- A time of day at the start of a text, and what follows it. Seconds may have a fraction. -/
def clock? (cs : List Char) : Option (List Char) := do
  let (hour, rest) ← shortNumber? cs
  let rest ← expect? ':' rest
  let (minute, rest) ← shortNumber? rest
  let rest ← expect? ':' rest
  let (second, rest) ← shortNumber? rest
  if 24 ≤ hour || 60 ≤ minute || 60 ≤ second then none
  match rest with
  | p :: d :: more =>
    if (p = '.' || p = ',') && Text.isDigit d then some (spanDigits (d :: more)).2 else some rest
  | _ => some rest

/-- The distance of a time zone from the zero meridian is all that is left. -/
def isZone (cs : List Char) : Bool :=
  match cs with
  | ['Z'] => true
  | [s, a, b, ':', c, d] =>
    (s = '+' || s = '-') && [a, b, c, d].all Text.isDigit &&
      digitValue a * 10 + digitValue b ≤ 24 && digitValue c * 10 + digitValue d ≤ 60
  | _ => false

/-- The text is a date, alone or with a time of day. -/
def isTimestamp (cs : List Char) : Bool :=
  match date? cs with
  | none => false
  | some [] => true
  | some (c :: rest) =>
    if c = 'T' || c = 't' then ((clock? rest).any isZone)
    else if c = ' ' then (clock? (rest.dropWhile (· = ' '))).any List.isEmpty
    else false

/-! ## Tags by looks -/

/-- Words that have a tag of their own. -/
def knownWords : List (String × Tag) :=
  [("true", .bool), ("True", .bool), ("TRUE", .bool), ("false", .bool), ("False", .bool),
    ("FALSE", .bool), ("", .null), ("~", .null), ("null", .null), ("Null", .null), ("NULL", .null),
    (".nan", .float), (".NaN", .float), (".NAN", .float), (".inf", .float), (".Inf", .float),
    (".INF", .float), ("+.inf", .float), ("+.Inf", .float), ("+.INF", .float), ("-.inf", .float),
    ("-.Inf", .float), ("-.INF", .float)]

/-- Every underscore stands between two digits, the first of which may be `before`. -/
def underscoresFit (before : Option Char) : List Char → Bool
  | [] => true
  | '_' :: rest =>
    before.any Text.isDigit && rest.head?.any Text.isDigit && underscoresFit none rest
  | c :: rest => underscoresFit (some c) rest

/-- The text without its underscores. -/
def withoutUnderscores (cs : List Char) : List Char :=
  cs.filter (· ≠ '_')

/-- The tag of a plain scalar. Underscores in numbers do not count; in a number that starts with a
point they have to stand between digits. Dates are looked for only when they are wanted. -/
def impliedTag (dates : Bool) (text : String) : Tag :=
  match knownWords.lookup text with
  | some tag => tag
  | none =>
    let cs := text.toList
    match cs with
    | [] => .null
    | '.' :: _ =>
      if underscoresFit none cs && isFraction (withoutUnderscores cs) then .float else .str
    | c :: _ =>
      if Text.isDigit c || c = '+' || c = '-' then
        let digits := withoutUnderscores cs
        if dates && isTimestamp cs then .timestamp
        else if (integer? digits).isSome then .int
        else if isFraction digits then .float
        else .str
      else .str

end MiniLua.Yaml
