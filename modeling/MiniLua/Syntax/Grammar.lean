import MiniLua.Syntax.Parse

/-!
# The grammar

The rules of the language as derivations from tokens to trees, without any machine: which tokens
spell which tree. The token for the end of the stream belongs to no tree.

    program    := "function" id "(" ")" block "end"
    block      := { statement }
    statement  := if | while | repeat | print | assignment
    if         := "if" condition "then" block "else" block "end"
    while      := "while" condition "do" block "end"
    repeat     := "repeat" block "until" condition
    print      := "print" "(" expression ")"
    assignment := id "=" expression
    expression := id | integer | arithmetic-operator expression expression
    condition  := relational-operator expression expression

## Delivered

- `Expr.Spelled`, `Cond.Spelled`, `Stmt.Spelled`, `Stmts.Spelled`, `Program.Spelled`: the tokens
  spell the tree.
- `Viable`: the tokens are the start of a program.
-/

set_option autoImplicit false

namespace MiniLua

/-- The tokens spell the expression. A literal has its decimal value, which is at most
`maxLiteral`. -/
inductive Expr.Spelled : List Token → Expr → Prop
  | var {t : Token} (kind : t.kind = .identifier) : Spelled [t] (.var t.ident)
  | lit {t : Token} {n : Nat} (kind : t.kind = .integer)
      (value : Text.natural? t.lexeme.toList = some n) (bound : n ≤ maxLiteral) :
      Spelled [t] (.lit (Int32.ofNat n))
  | binary {t : Token} {op : ArithOp} {ls rs : List Token} {left right : Expr}
      (kind : ArithOp.ofKind? t.kind = some op) (hl : Spelled ls left) (hr : Spelled rs right) :
      Spelled (t :: (ls ++ rs)) (.binary op left right)

/-- The tokens spell the condition. -/
inductive Cond.Spelled : List Token → Cond → Prop
  | compare {t : Token} {op : RelOp} {ls rs : List Token} {left right : Expr}
      (kind : RelOp.ofKind? t.kind = some op) (hl : Expr.Spelled ls left)
      (hr : Expr.Spelled rs right) : Spelled (t :: (ls ++ rs)) (.compare op left right)

mutual

/-- The tokens spell the statement. -/
inductive Stmt.Spelled : List Token → Stmt → Prop
  | assign {x sign : Token} {ts : List Token} {value : Expr} (hx : x.kind = .identifier)
      (hsign : sign.kind = .assign) (h : Expr.Spelled ts value) :
      Stmt.Spelled (x :: sign :: ts) (.assign x.ident value)
  | print {word opening closing : Token} {ts : List Token} {value : Expr}
      (hword : word.kind = .printWord) (hopening : opening.kind = .leftParen)
      (h : Expr.Spelled ts value) (hclosing : closing.kind = .rightParen) :
      Stmt.Spelled (word :: opening :: (ts ++ [closing])) (.print value)
  | branch {word onYes onNo closing : Token} {cs ts es : List Token} {cond : Cond}
      {onTrue onFalse : List Stmt} (hword : word.kind = .ifWord) (hc : Cond.Spelled cs cond)
      (hyes : onYes.kind = .thenWord) (ht : Stmts.Spelled ts onTrue)
      (hno : onNo.kind = .elseWord) (he : Stmts.Spelled es onFalse)
      (hclosing : closing.kind = .endWord) :
      Stmt.Spelled (word :: (cs ++ onYes :: (ts ++ onNo :: (es ++ [closing]))))
        (.branch cond (.seq onTrue) (.seq onFalse))
  | loopWhile {word opening closing : Token} {cs ts : List Token} {cond : Cond}
      {body : List Stmt} (hword : word.kind = .whileWord) (hc : Cond.Spelled cs cond)
      (hopening : opening.kind = .doWord) (ht : Stmts.Spelled ts body)
      (hclosing : closing.kind = .endWord) :
      Stmt.Spelled (word :: (cs ++ opening :: (ts ++ [closing]))) (.loopWhile cond (.seq body))
  | loopUntil {word closing : Token} {cs ts : List Token} {cond : Cond} {body : List Stmt}
      (hword : word.kind = .repeatWord) (ht : Stmts.Spelled ts body)
      (hclosing : closing.kind = .untilWord) (hc : Cond.Spelled cs cond) :
      Stmt.Spelled (word :: (ts ++ closing :: cs)) (.loopUntil (.seq body) cond)

/-- The tokens spell the statements, one after the other. -/
inductive Stmts.Spelled : List Token → List Stmt → Prop
  | nil : Stmts.Spelled [] []
  | cons {ts rest : List Token} {stmt : Stmt} {stmts : List Stmt} (h : Stmt.Spelled ts stmt)
      (hrest : Stmts.Spelled rest stmts) : Stmts.Spelled (ts ++ rest) (stmt :: stmts)

end

/-- The tokens spell the program. -/
inductive Program.Spelled : List Token → Program → Prop
  | intro {word title opening closing last : Token} {ts : List Token} {body : List Stmt}
      (hword : word.kind = .functionWord) (htitle : title.kind = .identifier)
      (hopening : opening.kind = .leftParen) (hclosing : closing.kind = .rightParen)
      (hbody : Stmts.Spelled ts body) (hlast : last.kind = .endWord) :
      Program.Spelled (word :: title :: opening :: closing :: (ts ++ [last]))
        { name := some title.ident, body := .seq body }

/-- Some continuation of the tokens spells a program. -/
def Viable (ts : List Token) : Prop :=
  ∃ rest p, Program.Spelled (ts ++ rest) p

end MiniLua
