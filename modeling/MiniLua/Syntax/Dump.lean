import MiniLua.Json.Basic
import MiniLua.Syntax.Basic

/-!
# Trees as JSON values

The value of a node is an object that starts with the label of its type and lists its parts in a
fixed order. A missing node is null, a bare node has the empty label, and a program without a name
has no field for it.

## Delivered

- `Expr.json`, `Cond.json`, `Stmt.json`, `Block.json`, `Program.json`.
- `Node.label`: the label of a tree; `Node.json`: the value of a tree.
- `Program.dump?`: the text of a program that is not nested too deep.
-/

set_option autoImplicit false

namespace MiniLua

/-- The label that a node shows. -/
def shownLabel (label : String) (bare : Bool) : String :=
  if bare then "" else label

/-- An object that starts with the label of its type. -/
def labelled (label : String) (bare : Bool) (parts : List (String × Json)) : Json :=
  .obj (("type", .str (shownLabel label bare)) :: parts)

/-- The value of a name. -/
def Ident.json (x : Ident) : Json :=
  labelled "Identifier" x.bare [("name", .str x.text)]

/-- The value of an expression. -/
def Expr.json : Expr → Json
  | .missing => .null
  | .var x => x.json
  | .lit value => labelled "IntegerLiteral" false [("value", .num value.toInt)]
  | .binary op left right bare =>
    labelled "BinaryExpression" bare
      [("operator", .str op.text), ("left", left.json), ("right", right.json)]

/-- The value of a condition. -/
def Cond.json : Cond → Json
  | .missing => .null
  | .compare op left right bare =>
    labelled "BooleanExpression" bare
      [("operator", .str op.text), ("left", left.json), ("right", right.json)]

mutual

/-- The value of a statement. -/
def Stmt.json : Stmt → Json
  | .missing => .null
  | .assign target value bare =>
    labelled "AssignmentStatement" bare [("target", target.json), ("expression", value.json)]
  | .print value bare => labelled "PrintStatement" bare [("expression", value.json)]
  | .branch cond onTrue onFalse bare =>
    labelled "IfStatement" bare
      [("condition", cond.json), ("then", onTrue.json), ("else", onFalse.json)]
  | .loopWhile cond body bare =>
    labelled "WhileStatement" bare [("condition", cond.json), ("body", body.json)]
  | .loopUntil body cond bare =>
    labelled "RepeatStatement" bare [("body", body.json), ("condition", cond.json)]

/-- The value of a block. -/
def Block.json : Block → Json
  | .missing => .null
  | .seq stmts bare => labelled "Block" bare [("statements", .arr (jsonAll stmts))]

/-- The values of statements. -/
def jsonAll : List Stmt → List Json
  | [] => []
  | stmt :: stmts => stmt.json :: jsonAll stmts

end

/-- The value of a program. -/
def Program.json (p : Program) : Json :=
  let body := [("body", p.body.json)]
  labelled "Program" p.bare
    (match p.name with
    | some x => ("name", x.json) :: body
    | none => body)

/-- The label of a tree; a missing tree has none. -/
def Node.label : Node → String
  | .expr .missing => ""
  | .expr (.var x) => shownLabel "Identifier" x.bare
  | .expr (.lit _) => "IntegerLiteral"
  | .expr (.binary _ _ _ bare) => shownLabel "BinaryExpression" bare
  | .cond .missing => ""
  | .cond (.compare _ _ _ bare) => shownLabel "BooleanExpression" bare
  | .stmt .missing => ""
  | .stmt (.assign _ _ bare) => shownLabel "AssignmentStatement" bare
  | .stmt (.print _ bare) => shownLabel "PrintStatement" bare
  | .stmt (.branch _ _ _ bare) => shownLabel "IfStatement" bare
  | .stmt (.loopWhile _ _ bare) => shownLabel "WhileStatement" bare
  | .stmt (.loopUntil _ _ bare) => shownLabel "RepeatStatement" bare
  | .block .missing => ""
  | .block (.seq _ bare) => shownLabel "Block" bare
  | .program p => shownLabel "Program" p.bare

/-- The value of a tree. -/
def Node.json : Node → Json
  | .expr e => e.json
  | .cond c => c.json
  | .stmt s => s.json
  | .block b => b.json
  | .program p => p.json

/-- The number of levels that a text may have. -/
def maxDepth : Nat := 10000

/-- A value that is nested too deep, for people. A name is reported with its type. -/
def depthProblem : Json → String
  | .obj (("type", .str "Identifier") :: _) =>
    "json: error calling MarshalJSON for type *ast.Identifier: exceeded max depth"
  | _ => "exceeded max depth"

/-- The text of a program over several lines, or why it has none. -/
def Program.dump? (p : Program) : Except String String :=
  match p.json.firstDeeper? maxDepth with
  | some v => .error (depthProblem v)
  | none => .ok p.json.indented

end MiniLua
