import MiniLua.Text.Bytes

/-!
# Hexadecimal numbers

Numbers are written with a fixed number of digits in lower case, and read in either case. In some
texts a percent sign and two digits stand for a byte.

## Delivered

- `hexDigits`: the lowest digits of a value.
- `hexValue?`: the value of a digit.
- `percentDecoded`: a text with its percent signs resolved.
-/

set_option autoImplicit false

namespace MiniLua.Text

/-- The digit of a value below sixteen, in lower case. -/
def hexDigit (n : Nat) : Char :=
  if n < 10 then Char.ofNat (48 + n) else Char.ofNat (87 + n)

/-- The `width` lowest hexadecimal digits of a value, highest first. -/
def hexDigits : (width value : Nat) → List Char
  | 0, _ => []
  | width + 1, value => hexDigits width (value / 16) ++ [hexDigit (value % 16)]

/-- The value of a hexadecimal digit. -/
def hexValue? (c : Char) : Option Nat :=
  if '0' ≤ c && c ≤ '9' then some (c.toNat - 48)
  else if 'a' ≤ c && c ≤ 'f' then some (c.toNat - 87)
  else if 'A' ≤ c && c ≤ 'F' then some (c.toNat - 55)
  else none

/-- The bytes of a text, with one for each percent sign and two digits. -/
def percentBytes : List Char → Bytes
  | [] => []
  | '%' :: a :: b :: rest =>
    match hexValue? a, hexValue? b with
    | some high, some low => UInt8.ofNat (high * 16 + low) :: percentBytes rest
    | _, _ => 37 :: percentBytes (a :: b :: rest)
  | c :: rest => encode (String.singleton c) ++ percentBytes rest

/-- A text with its percent signs resolved. -/
def percentDecoded (cs : List Char) : List Char :=
  decode (percentBytes cs)

end MiniLua.Text
