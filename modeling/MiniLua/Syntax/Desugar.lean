import MiniLua.Syntax.Basic

/-!
# Trees as their texts spell them

Program texts have unsigned literals and named programs only. The text of a tree with a negative
literal therefore spells another tree: a subtraction from zero, and for the least value a further
subtraction of one. A program without a name is spelled as `f`. Nothing else changes.

## Delivered

- `literalTree`: the expression that the text of a literal spells.
- `Expr.desugar`, `Cond.desugar`, `Stmt.desugar`, `Block.desugar`, `Program.desugar`: the tree that
  the text of a tree spells.
-/

set_option autoImplicit false

namespace MiniLua

/-- The expression that the text of a literal spells. -/
def literalTree (value : Int32) : Expr :=
  if 0 ≤ value.toInt then .lit value
  else if value.toInt = -2147483648 then
    .binary .sub (.binary .sub (.lit 0) (.lit 2147483647)) (.lit 1)
  else .binary .sub (.lit 0) (.lit (-value))

/-- The expression that the text of an expression spells. -/
def Expr.desugar : Expr → Expr
  | .lit value => literalTree value
  | .binary op left right bare => .binary op left.desugar right.desugar bare
  | e => e

/-- The condition that the text of a condition spells. -/
def Cond.desugar : Cond → Cond
  | .missing => .missing
  | .compare op left right bare => .compare op left.desugar right.desugar bare

mutual

/-- The statement that the text of a statement spells. -/
def Stmt.desugar : Stmt → Stmt
  | .missing => .missing
  | .assign target value bare => .assign target value.desugar bare
  | .print value bare => .print value.desugar bare
  | .branch cond onTrue onFalse bare => .branch cond.desugar onTrue.desugar onFalse.desugar bare
  | .loopWhile cond body bare => .loopWhile cond.desugar body.desugar bare
  | .loopUntil body cond bare => .loopUntil body.desugar cond.desugar bare

/-- The block that the text of a block spells. -/
def Block.desugar : Block → Block
  | .missing => .missing
  | .seq stmts bare => .seq (desugarAll stmts) bare

/-- The statements that the text of statements spells. -/
def desugarAll : List Stmt → List Stmt
  | [] => []
  | stmt :: stmts => stmt.desugar :: desugarAll stmts

end

/-- The name of a program that has none. -/
def standInName : Ident := ⟨102, false⟩

/-- The program that the text of a program spells. -/
def Program.desugar (p : Program) : Program :=
  { p with name := some (p.name.getD standInName), body := p.body.desugar }

end MiniLua
