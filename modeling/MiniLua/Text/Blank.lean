/-!
# Blank characters

Two classes of blank characters are in use, and they differ. Lexemes are divided by the six blanks
of ASCII only, so a no-break space stays inside its lexeme. Paths, names and messages are trimmed
of every character that the Unicode property `White_Space` names.

## Delivered

- `isDelimiter`: the six blanks that divide lexemes.
- `isBlank`: the twenty-five blanks of Unicode.
- `trim`: a text without the blanks at its two ends.
-/

set_option autoImplicit false

namespace MiniLua.Text

/-- The characters that divide lexemes: space, tab, newline, vertical tab, form feed and carriage
return. -/
def isDelimiter (c : Char) : Bool :=
  c = ' ' || c = '\t' || c = '\n' || c = '\x0b' || c = '\x0c' || c = '\r'

/-- The Unicode property `White_Space`. -/
def isBlank (c : Char) : Bool :=
  isDelimiter c || c = '\x85' || c = '\xa0' || c = '\u1680' ||
    (0x2000 ≤ c.toNat && c.toNat ≤ 0x200a) ||
    c = '\u2028' || c = '\u2029' || c = '\u202f' || c = '\u205f' || c = '\u3000'

/-- A list without the elements of a class at its two ends. -/
def trimmed {α : Type} (p : α → Bool) (xs : List α) : List α :=
  ((xs.dropWhile p).reverse.dropWhile p).reverse

/-- The text without the blanks at its two ends. -/
def trim (s : String) : String :=
  String.ofList (trimmed isBlank s.toList)

end MiniLua.Text
