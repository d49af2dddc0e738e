import MiniLua.Text.Decimal

/-!
# Programs as trees

A program is a name and a block of statements; statements hold expressions and conditions. The
operators are prefix, so a tree needs no parentheses.

The trees are wider than the language. A child may be missing, an operator may be a text that is no
operator, and a variable may be named by any byte. A node may also be bare: put together without
the checks of its constructor, in which case it does not carry the label of its type. Trees that
are complete, checked throughout and within the language are the well-formed ones.

## Delivered

- `ArithOp`, `RelOp`: the operators, and any other text in their place.
- `Ident`, `Expr`, `Cond`, `Stmt`, `Block`, `Program`: the trees.
- `Node`: any of them.
-/

set_option autoImplicit false

namespace MiniLua

/-- An arithmetic operator, or another text in its place. -/
inductive ArithOp where
  | add
  | sub
  | mul
  | div
  | other (text : String)
deriving DecidableEq

namespace ArithOp

/-- The text of an operator. -/
def text : ArithOp → String
  | add => "+"
  | sub => "-"
  | mul => "*"
  | div => "/"
  | other s => s

/-- The operator with a text. -/
def ofText (s : String) : ArithOp :=
  if s = "+" then add
  else if s = "-" then sub
  else if s = "*" then mul
  else if s = "/" then div
  else other s

/-- One of the four operators. -/
def isValid : ArithOp → Bool
  | other _ => false
  | _ => true

/-- Reading the text of an operator back. -/
theorem ofText_text {op : ArithOp} (h : op.isValid = true) : ofText op.text = op := by
  cases op with
  | other s => simp [isValid] at h
  | _ => rfl

end ArithOp

/-- A relational operator, or another text in its place. -/
inductive RelOp where
  | eq
  | ne
  | lt
  | le
  | gt
  | ge
  | other (text : String)
deriving DecidableEq

namespace RelOp

/-- The text of an operator. -/
def text : RelOp → String
  | eq => "=="
  | ne => "~="
  | lt => "<"
  | le => "<="
  | gt => ">"
  | ge => ">="
  | other s => s

/-- The operator with a text. -/
def ofText (s : String) : RelOp :=
  if s = "==" then eq
  else if s = "~=" then ne
  else if s = "<" then lt
  else if s = "<=" then le
  else if s = ">" then gt
  else if s = ">=" then ge
  else other s

/-- One of the six operators. -/
def isValid : RelOp → Bool
  | other _ => false
  | _ => true

/-- Reading the text of an operator back. -/
theorem ofText_text {op : RelOp} (h : op.isValid = true) : ofText op.text = op := by
  cases op with
  | other s => simp [isValid] at h
  | _ => rfl

end RelOp

/-- A variable as a node: the byte that names it. -/
structure Ident where
  letter : UInt8
  bare : Bool := false
deriving DecidableEq

/-- The character with the code of the byte. -/
def Ident.text (x : Ident) : String :=
  String.singleton (Char.ofNat x.letter.toNat)

/-- An arithmetic expression. -/
inductive Expr where
  | missing
  | var (name : Ident)
  | lit (value : Int32)
  | binary (op : ArithOp) (left right : Expr) (bare : Bool := false)
deriving DecidableEq

/-- A comparison of two expressions; there are no other conditions. -/
inductive Cond where
  | missing
  | compare (op : RelOp) (left right : Expr) (bare : Bool := false)
deriving DecidableEq

mutual

/-- A statement. -/
inductive Stmt where
  | missing
  | assign (target : Ident) (value : Expr) (bare : Bool := false)
  | print (value : Expr) (bare : Bool := false)
  | branch (cond : Cond) (onTrue onFalse : Block) (bare : Bool := false)
  | loopWhile (cond : Cond) (body : Block) (bare : Bool := false)
  | loopUntil (body : Block) (cond : Cond) (bare : Bool := false)

/-- A sequence of statements. -/
inductive Block where
  | missing
  | seq (stmts : List Stmt) (bare : Bool := false)

end

/-- The statements of a block; a missing block has none. -/
def Block.stmts : Block → List Stmt
  | .missing => []
  | .seq stmts _ => stmts

/-- A program: a name, which may be left out, and a body. -/
structure Program where
  name : Option Ident
  body : Block
  bare : Bool := false

/-- A tree of any type. -/
inductive Node where
  | expr (e : Expr)
  | cond (c : Cond)
  | stmt (s : Stmt)
  | block (b : Block)
  | program (p : Program)

end MiniLua
