import MiniLua.Misuse
import MiniLua.Syntax.Basic
import MiniLua.Text.Quoted
import MiniLua.Token.Lexeme

/-!
# Checked construction

Each constructor of a node checks its own arguments and trusts its children. The first fault is
reported: an operator before its operands, and the other arguments in the order in which the
program text has them.

## Delivered

- `Ident.make?`, `Expr.binary?`, `Cond.compare?`.
- `Stmt.assign?`, `Stmt.print?`, `Stmt.branch?`, `Stmt.loopWhile?`, `Stmt.loopUntil?`.
- `Block.append?`, `Block.ofList?`, `Program.make?`.
-/

set_option autoImplicit false

namespace MiniLua

/-- A byte that names a variable: an ASCII letter. -/
def isVariable (letter : UInt8) : Bool :=
  Lexeme.isLetter (Char.ofNat letter.toNat)

/-- A name that is a letter. -/
def Ident.make? (letter : UInt8) : Except Misuse Ident :=
  if isVariable letter then .ok ⟨letter, false⟩
  else .error ⟨"identifier", "invalid identifier argument " ++ Text.quoteByte letter⟩

namespace Expr

/-- The expression is present. -/
def isPresent : Expr → Bool
  | .missing => false
  | _ => true

/-- An operation on two expressions. -/
def binary? (op : ArithOp) (left right : Expr) : Except Misuse Expr :=
  if !op.isValid then
    .error ⟨"binary expression",
      "invalid arithmetic operator argument " ++ Text.quoteText op.text⟩
  else if !(left.isPresent && right.isPresent) then
    .error ⟨"binary expression", "null arithmetic expression argument"⟩
  else .ok (.binary op left right)

end Expr

namespace Cond

/-- The condition is present. -/
def isPresent : Cond → Bool
  | .missing => false
  | _ => true

/-- A comparison of two expressions. -/
def compare? (op : RelOp) (left right : Expr) : Except Misuse Cond :=
  if !op.isValid then
    .error ⟨"boolean expression",
      "invalid relational operator argument " ++ Text.quoteText op.text⟩
  else if !(left.isPresent && right.isPresent) then
    .error ⟨"boolean expression", "null arithmetic expression argument"⟩
  else .ok (.compare op left right)

end Cond

namespace Block

/-- The block is present. -/
def isPresent : Block → Bool
  | .missing => false
  | _ => true

end Block

namespace Stmt

/-- The statement is present. -/
def isPresent : Stmt → Bool
  | .missing => false
  | _ => true

/-- An assignment. -/
def assign? (target : Option Ident) (value : Expr) : Except Misuse Stmt :=
  match target with
  | none => .error ⟨"assignment", "null identifier argument"⟩
  | some x =>
    if value.isPresent then .ok (.assign x value)
    else .error ⟨"assignment", "null arithmetic expression argument"⟩

/-- A print statement. -/
def print? (value : Expr) : Except Misuse Stmt :=
  if value.isPresent then .ok (.print value)
  else .error ⟨"print statement", "null arithmetic expression argument"⟩

/-- A conditional with both branches. -/
def branch? (cond : Cond) (onTrue onFalse : Block) : Except Misuse Stmt :=
  if !cond.isPresent then .error ⟨"if statement", "null boolean expression argument"⟩
  else if !(onTrue.isPresent && onFalse.isPresent) then
    .error ⟨"if statement", "null block argument"⟩
  else .ok (.branch cond onTrue onFalse)

/-- A loop that tests before its body. -/
def loopWhile? (cond : Cond) (body : Block) : Except Misuse Stmt :=
  if !cond.isPresent then .error ⟨"while statement", "null boolean expression argument"⟩
  else if !body.isPresent then .error ⟨"while statement", "null block argument"⟩
  else .ok (.loopWhile cond body)

/-- A loop that tests after its body. -/
def loopUntil? (body : Block) (cond : Cond) : Except Misuse Stmt :=
  if !body.isPresent then .error ⟨"repeat statement", "null block argument"⟩
  else if !cond.isPresent then .error ⟨"repeat statement", "null boolean expression argument"⟩
  else .ok (.loopUntil body cond)

end Stmt

namespace Block

/-- The block with a statement added at its end. -/
def append? (block : Block) (stmt : Stmt) : Except Misuse Block :=
  if !stmt.isPresent then .error ⟨"block", "null statement argument"⟩
  else match block with
    | .missing => .ok (.seq [stmt])
    | .seq stmts bare => .ok (.seq (stmts ++ [stmt]) bare)

/-- A block of statements, all of them present. -/
def ofList? (stmts : List Stmt) : Except Misuse Block :=
  if stmts.all Stmt.isPresent then .ok (.seq stmts)
  else .error ⟨"block", "null statement argument"⟩

end Block

/-- A program; its name may be left out. -/
def Program.make? (name : Option Ident) (body : Block) : Except Misuse Program :=
  if body.isPresent then .ok { name := name, body := body }
  else .error ⟨"program", "null block argument"⟩

end MiniLua
