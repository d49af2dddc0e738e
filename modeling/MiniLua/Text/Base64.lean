import MiniLua.Text.Bytes

/-!
# Base 64

Four letters stand for three bytes: each letter gives six bits. At the end, one or two bytes are
written as two or three letters and filled up with equals signs. Line breaks do not count, and the
bits that the last letter has too many are not looked at.

## Delivered

- `base64?`: the bytes that a text stands for.
-/

set_option autoImplicit false

namespace MiniLua.Text

/-- The six bits of a letter. -/
def sextet? (c : Char) : Option Nat :=
  if 'A' ≤ c && c ≤ 'Z' then some (c.toNat - 65)
  else if 'a' ≤ c && c ≤ 'z' then some (c.toNat - 71)
  else if '0' ≤ c && c ≤ '9' then some (c.toNat + 4)
  else if c = '+' then some 62
  else if c = '/' then some 63
  else none

/-- The byte of the low eight bits of a number. -/
def lowByte (n : Nat) : UInt8 :=
  UInt8.ofNat (n % 256)

/-- The bytes of the groups of four letters. -/
def base64Groups? : List Char → Option Bytes
  | [] => some []
  | [a, b, '=', '='] => do
    let n := (← sextet? a) * 64 + (← sextet? b)
    return [lowByte (n / 16)]
  | [a, b, c, '='] => do
    let n := ((← sextet? a) * 64 + (← sextet? b)) * 64 + (← sextet? c)
    return [lowByte (n / 1024), lowByte (n / 4)]
  | a :: b :: c :: d :: rest => do
    let n := (((← sextet? a) * 64 + (← sextet? b)) * 64 + (← sextet? c)) * 64 + (← sextet? d)
    return lowByte (n / 65536) :: lowByte (n / 256) :: lowByte n :: (← base64Groups? rest)
  | _ => none

/-- The bytes that a text stands for. -/
def base64? (text : String) : Option Bytes :=
  base64Groups? (text.toList.filter fun c => c ≠ '\r' && c ≠ '\n')

end MiniLua.Text
