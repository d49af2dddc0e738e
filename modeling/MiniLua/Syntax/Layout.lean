import MiniLua.Syntax.Basic

/-!
# The canonical layout of programs

A tree is laid out as lines, each an indentation depth and a list of words. Every word of a line is
divided from the next by one space, so the words of a layout are the lexemes of its text. Literals
are unsigned in program texts: a negative value is laid out as a subtraction from zero, and the
least value, whose absolute value is no literal, as a further subtraction of one.

## Delivered

- `Line`, `Line.write`: one line of a layout and its characters.
- `Expr.words`, `Cond.words`: the words of an expression and of a condition.
- `Stmt.layout`, `Block.layout`, `Program.layout`: the lines of the other trees.
- `Node.text`: the text of any tree.
-/

set_option autoImplicit false

namespace MiniLua

/-- One line of a layout. -/
structure Line where
  depth : Nat
  words : List String

/-- The words with one space between them, before `rest`. -/
def writeWords : List String → List Char → List Char
  | [], rest => rest
  | [w], rest => w.toList ++ rest
  | w :: ws, rest => w.toList ++ ' ' :: writeWords ws rest

/-- The line, two spaces for each level, with a newline at its end, before `rest`. -/
def Line.write (line : Line) (rest : List Char) : List Char :=
  List.replicate (2 * line.depth) ' ' ++ writeWords line.words ('\n' :: rest)

/-- The text of a layout. -/
def layoutText (lines : List Line) : String :=
  String.ofList (lines.foldr Line.write [])

/-- The word of a natural number. -/
def numeral (n : Nat) : String :=
  Text.decimalText n

/-- The words of a literal. -/
def literalWords (value : Int32) : List String :=
  let v := value.toInt
  if 0 ≤ v then [numeral v.toNat]
  else if v = -2147483648 then ["-", "-", "0", numeral 2147483647, "1"]
  else ["-", "0", numeral (-v).toNat]

/-- The words of an expression, before `rest`. A missing expression is an empty word. -/
def Expr.words : Expr → List String → List String
  | .missing, rest => "" :: rest
  | .var x, rest => x.text :: rest
  | .lit value, rest => literalWords value ++ rest
  | .binary op left right _, rest => op.text :: left.words (right.words rest)

/-- The words of a condition, before `rest`. -/
def Cond.words : Cond → List String → List String
  | .missing, rest => "" :: rest
  | .compare op left right _, rest => op.text :: left.words (right.words rest)

mutual

/-- The lines of a statement at a depth, before `rest`. A missing statement has none. -/
def Stmt.layout : Stmt → Nat → List Line → List Line
  | .missing, _, rest => rest
  | .assign target value _, depth, rest => ⟨depth, target.text :: "=" :: value.words []⟩ :: rest
  | .print value _, depth, rest => ⟨depth, "print" :: "(" :: value.words [")"]⟩ :: rest
  | .branch cond onTrue onFalse _, depth, rest =>
    ⟨depth, "if" :: cond.words ["then"]⟩ :: onTrue.layout (depth + 1)
      (⟨depth, ["else"]⟩ :: onFalse.layout (depth + 1) (⟨depth, ["end"]⟩ :: rest))
  | .loopWhile cond body _, depth, rest =>
    ⟨depth, "while" :: cond.words ["do"]⟩ :: body.layout (depth + 1) (⟨depth, ["end"]⟩ :: rest)
  | .loopUntil body cond _, depth, rest =>
    ⟨depth, ["repeat"]⟩ :: body.layout (depth + 1) (⟨depth, "until" :: cond.words []⟩ :: rest)

/-- The lines of a block at a depth, before `rest`. -/
def Block.layout : Block → Nat → List Line → List Line
  | .missing, _, rest => rest
  | .seq stmts _, depth, rest => layoutAll stmts depth rest

/-- The lines of statements one after the other, before `rest`. -/
def layoutAll : List Stmt → Nat → List Line → List Line
  | [], _, rest => rest
  | stmt :: stmts, depth, rest => stmt.layout depth (layoutAll stmts depth rest)

end

/-- The name that a program is written with; `f` stands in for a name left out. -/
def Program.title (p : Program) : String :=
  match p.name with
  | some x => x.text
  | none => "f"

/-- The lines of a program. -/
def Program.layout (p : Program) : List Line :=
  ⟨0, ["function", p.title, "(", ")"]⟩ :: p.body.layout 1 [⟨0, ["end"]⟩]

/-- The text of a program. -/
def Program.text (p : Program) : String :=
  layoutText p.layout

/-- The text of a tree. Expressions and conditions have no line of their own. -/
def Node.text : Node → String
  | .expr e => String.ofList (writeWords (e.words []) [])
  | .cond c => String.ofList (writeWords (c.words []) [])
  | .stmt s => layoutText (s.layout 0 [])
  | .block b => layoutText (b.layout 0 [])
  | .program p => p.text

end MiniLua
