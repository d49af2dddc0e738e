import MiniLua.Failure
import MiniLua.Text.Quoted

/-!
# Faults of a run

A run stops early for one of these causes. All but the last are reported to the caller; a zero
divisor ends the whole computation at once. A well-formed program meets only the last two.

## Delivered

- `Fault`: the causes.
- `Fault.failure`: what the caller is told.
- `Fault.crashes`: the cause that is not reported.
-/

set_option autoImplicit false

namespace MiniLua

/-- Why a run stops early. -/
inductive Fault where
  | misuse (cause : Misuse)
  | missingExpr
  | missingStmt
  | missingCond
  | unknownArith (text : String)
  | unknownRel (text : String)
  | refusedWrite (reason : String)
  | divideByZero
deriving DecidableEq

namespace Fault

/-- The report of a fault. -/
def failure : Fault → Failure
  | .misuse cause => .misuse cause
  | .missingExpr => .plain "unsupported expression type: <nil>"
  | .missingStmt => .plain "unsupported statement type: <nil>"
  | .missingCond => .plain "nil boolean expression"
  | .unknownArith text => .plain ("unsupported arithmetic operator " ++ Text.quoteText text)
  | .unknownRel text => .plain ("unsupported relational operator " ++ Text.quoteText text)
  | .refusedWrite reason => .wrap "print" (.plain reason)
  | .divideByZero => .plain "runtime error: integer divide by zero"

/-- The fault ends the whole computation, not only the run. -/
def crashes (f : Fault) : Bool :=
  f = .divideByZero

end Fault
end MiniLua
