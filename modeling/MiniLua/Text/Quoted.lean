import MiniLua.Text.Hex
import MiniLua.Text.Printable

/-!
# Quoted literals

Messages show a doubtful character or text as a literal that can be read back: printable characters
stand for themselves, the quote and the backslash are escaped, and everything else is written by a
short escape or by its code in hexadecimal.

## Delivered

- `escape`: one character inside a literal.
- `quoteChar`: a character between single quotes.
- `quoteByte`: a byte as the character with that code.
- `quoteText`: a text between double quotes.
-/

set_option autoImplicit false

namespace MiniLua.Text

/-- The letter of a short escape. -/
def shortEscape? (c : Char) : Option Char :=
  if c = '\x07' then some 'a'
  else if c = '\x08' then some 'b'
  else if c = '\x0c' then some 'f'
  else if c = '\n' then some 'n'
  else if c = '\r' then some 'r'
  else if c = '\t' then some 't'
  else if c = '\x0b' then some 'v'
  else none

/-- A character inside a literal delimited by `quote`. -/
def escape (quote c : Char) : List Char :=
  if c = quote || c = '\\' then ['\\', c]
  else if isPrintable c then [c]
  else match shortEscape? c with
    | some letter => ['\\', letter]
    | none =>
      if c.toNat < 0x20 || c.toNat = 0x7f then '\\' :: 'x' :: hexDigits 2 c.toNat
      else if c.toNat < 0x10000 then '\\' :: 'u' :: hexDigits 4 c.toNat
      else '\\' :: 'U' :: hexDigits 8 c.toNat

/-- A character between single quotes. -/
def quoteChar (c : Char) : String :=
  String.ofList ('\'' :: escape '\'' c ++ ['\''])

/-- The character with the code of a byte, between single quotes. -/
def quoteByte (b : UInt8) : String :=
  quoteChar (Char.ofNat b.toNat)

/-- A text between double quotes. -/
def quoteText (s : String) : String :=
  String.ofList ('"' :: s.toList.flatMap (escape '"') ++ ['"'])

end MiniLua.Text
