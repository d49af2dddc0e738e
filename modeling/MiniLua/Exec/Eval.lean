import MiniLua.Exec.Fault
import MiniLua.Store
import MiniLua.Syntax.Basic

/-!
# Values of expressions and conditions

Arithmetic is on words of thirty-two bits: sums, differences and products wrap around, and a
quotient is cut towards zero. Both operands are computed before the operator is looked at, left
before right, and the first fault wins. Reading the variables is the only effect.

## Delivered

- `ArithOp.apply`, `RelOp.apply`: the operators on words.
- `Expr.eval`, `Cond.holds`: values in a store.
-/

set_option autoImplicit false

namespace MiniLua

/-- An operator on two words. -/
def ArithOp.apply (a b : Int32) : ArithOp → Except Fault Int32
  | .add => .ok (a + b)
  | .sub => .ok (a - b)
  | .mul => .ok (a * b)
  | .div => if b = 0 then .error .divideByZero else .ok (a / b)
  | .other text => .error (.unknownArith text)

/-- A comparison of two words. -/
def RelOp.apply (a b : Int32) : RelOp → Except Fault Bool
  | .eq => .ok (a = b)
  | .ne => .ok (a ≠ b)
  | .lt => .ok (a < b)
  | .le => .ok (a ≤ b)
  | .gt => .ok (b < a)
  | .ge => .ok (b ≤ a)
  | .other text => .error (.unknownRel text)

/-- The value of an expression. -/
def Expr.eval (s : Store) : Expr → Except Fault Int32
  | .missing => .error .missingExpr
  | .var x => (s.fetch x.letter).mapError .misuse
  | .lit value => .ok value
  | .binary op left right _ =>
    match left.eval s with
    | .error f => .error f
    | .ok a =>
      match right.eval s with
      | .error f => .error f
      | .ok b => op.apply a b

/-- The truth of a condition. -/
def Cond.holds (s : Store) : Cond → Except Fault Bool
  | .missing => .error .missingCond
  | .compare op left right _ =>
    match left.eval s with
    | .error f => .error f
    | .ok a =>
      match right.eval s with
      | .error f => .error f
      | .ok b => op.apply a b

end MiniLua
