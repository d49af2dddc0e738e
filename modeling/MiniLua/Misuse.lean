/-!
# Misuse of an operation

An operation that is given arguments outside its domain refuses them. The refusal names the
operation and says what is wrong; it describes a mistake of the caller, never a defect of a program
text.

## Delivered

- `Misuse`: operation and message.
- `Misuse.text`: both in one line.
-/

set_option autoImplicit false

namespace MiniLua

/-- A refused call. -/
structure Misuse where
  operation : String
  message : String
deriving DecidableEq

/-- The operation, when it is named, and the message. -/
def Misuse.text (m : Misuse) : String :=
  if m.operation = "" then m.message else m.operation ++ ": " ++ m.message

end MiniLua
