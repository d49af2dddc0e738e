/-!
# Decimal numbers

Numbers are written without leading zeros and with a minus sign when negative. A number is read
from digits only, and leading zeros are allowed there.

## Delivered

- `decimal`: the text of an integer.
- `isDigit`: the ten digits.
- `natural?`: the value of a nonempty list of digits.
-/

set_option autoImplicit false

namespace MiniLua.Text

/-- The characters of an integer in decimal. -/
def decimal (n : Int) : List Char :=
  match n with
  | .ofNat k => Nat.toDigits 10 k
  | .negSucc k => '-' :: Nat.toDigits 10 (k + 1)

/-- The text of an integer in decimal. -/
def decimalText (n : Int) : String :=
  String.ofList (decimal n)

/-- One of the ten digits. -/
def isDigit (c : Char) : Bool :=
  '0' ≤ c && c ≤ '9'

/-- The value of a digit. -/
def digitValue (c : Char) : Nat :=
  c.toNat - '0'.toNat

/-- The value of a list of digits after the digits of `value`. -/
def digitsValue (value : Nat) (cs : List Char) : Nat :=
  cs.foldl (fun v c => 10 * v + digitValue c) value

/-- The value of a nonempty list of digits. -/
def natural? (cs : List Char) : Option Nat :=
  if cs ≠ [] ∧ cs.all isDigit then some (digitsValue 0 cs) else none

end MiniLua.Text
