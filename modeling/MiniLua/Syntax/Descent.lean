import MiniLua.Syntax.Checked
import MiniLua.Syntax.Parse

/-!
# Programs by descent

The second way to read a program: one function for each rule of the grammar, each of which takes its
tokens from the front and calls the functions of the rules inside it. Nothing is taken for granted
here. Every token is made by its checked constructor, and so is every node; every function asks anew
for the token that its caller has seen already; and the end of the tokens is a failure at every step.
A failure keeps the tokens that were left when it came up: a token that was taken is gone, and one that
was only looked at is still there.

Most of these failures cannot happen. They are spelled out all the same, so that this can be said.

## Delivered

- `Taken`: what was read from the front of some tokens, and the tokens left.
- `Descent.Stop`, `Descent.outcome`: a failure and the tokens left, and the two results as one.
- `Descent.expression`, `Descent.condition`, `Descent.statement`, `Descent.block`,
  `Descent.program`: the rules of the grammar.
- `TokenQueue.checked?`: the tokens of a text, each of them checked.
- `Program.descend?`: the program that a text spells.
-/

set_option autoImplicit false

namespace MiniLua

/-- What was read from the front of some tokens, and the tokens left, fewer than `bound`. -/
structure Taken (bound : Nat) (α : Type) where
  value : α
  rest : List Token
  below : rest.length < bound

/-- A node that its constructor may refuse. -/
def built {α : Type} : Except Misuse α → Except Failure α
  | .ok a => .ok a
  | .error cause => .error (.misuse cause)

namespace Descent

/-- Where reading stopped: the failure, and the tokens left. -/
structure Stop where
  failure : Failure
  rest : List Token

/-- What was read or the failure, and with both the tokens left. -/
def outcome {n : Nat} {α : Type} : Except Stop (Taken n α) → Except Failure α × List Token
  | .ok taken => (.ok taken.value, taken.rest)
  | .error stop => (.error stop.failure, stop.rest)

/-- A node that its constructor may refuse, with these tokens left. -/
def node {α : Type} (rest : List Token) (made : Except Misuse α) : Except Stop α :=
  (built made).mapError fun failure => ⟨failure, rest⟩

/-! ## Single tokens -/

/-- The failure at the end of the tokens. -/
def noMoreTokens : Stop :=
  ⟨.parse "no more tokens" {}, []⟩

/-- The failure at a token, with these tokens left. -/
def refusal (message : String) (t : Token) (rest : List Token) : Stop :=
  ⟨.parse message t.place, rest⟩

/-- The front token, which stays there. -/
def peek : List Token → Except Stop Token
  | [] => .error noMoreTokens
  | t :: _ => .ok t

/-- The front token. -/
def next : (ts : List Token) → Except Stop (Taken ts.length Token)
  | [] => .error noMoreTokens
  | t :: rest => .ok ⟨t, rest, Nat.lt_succ_self _⟩

/-- A token of the given kind. -/
def expect (k : Kind) (ts : List Token) : Except Stop (Taken ts.length Token) := do
  let ⟨t, rest, h⟩ ← next ts
  if t.kind = k then return ⟨t, rest, h⟩ else throw (refusal (k.name ++ " expected") t rest)

/-- A name. -/
def identifier (ts : List Token) : Except Stop (Taken ts.length Ident) := do
  let ⟨t, rest, h⟩ ← next ts
  if t.kind = .identifier then
    let x ← node rest (Ident.make? t.ident.letter)
    return ⟨x, rest, h⟩
  else throw (refusal "identifier expected" t rest)

/-- A literal. -/
def literal (ts : List Token) : Except Stop (Taken ts.length Expr) := do
  let ⟨t, rest, h⟩ ← next ts
  if t.kind = .integer then
    match Text.natural? t.lexeme.toList with
    | none => throw (refusal "literal integer expected" t rest)
    | some n =>
      if n ≤ maxLiteral then return ⟨.lit (Int32.ofNat n), rest, h⟩
      else throw (refusal "literal integer out of range" t rest)
  else throw (refusal "literal integer expected" t rest)

/-- An arithmetic operator. -/
def arithmeticOperator (ts : List Token) : Except Stop (Taken ts.length ArithOp) := do
  let ⟨t, rest, h⟩ ← next ts
  match ArithOp.ofKind? t.kind with
  | some op => return ⟨op, rest, h⟩
  | none => throw (refusal "arithmetic operator expected" t rest)

/-- A relational operator. -/
def relationalOperator (ts : List Token) : Except Stop (Taken ts.length RelOp) := do
  let ⟨t, rest, h⟩ ← next ts
  match RelOp.ofKind? t.kind with
  | some op => return ⟨op, rest, h⟩
  | none => throw (refusal "relational operator expected" t rest)

/-! ## Expressions -/

/-- An expression. -/
def expression (ts : List Token) : Except Stop (Taken ts.length Expr) := do
  let t ← peek ts
  match t.kind with
  | .identifier =>
    let ⟨x, rest, h⟩ ← identifier ts
    return ⟨.var x, rest, h⟩
  | .integer => literal ts
  | _ =>
    let ⟨op, ts₁, h₁⟩ ← arithmeticOperator ts
    let ⟨left, ts₂, h₂⟩ ← expression ts₁
    let ⟨right, ts₃, h₃⟩ ← expression ts₂
    let e ← node ts₃ (Expr.binary? op left right)
    return ⟨e, ts₃, by omega⟩
termination_by ts.length

/-- A condition. -/
def condition (ts : List Token) : Except Stop (Taken ts.length Cond) := do
  let ⟨op, ts₁, h₁⟩ ← relationalOperator ts
  let ⟨left, ts₂, h₂⟩ ← expression ts₁
  let ⟨right, ts₃, h₃⟩ ← expression ts₂
  let c ← node ts₃ (Cond.compare? op left right)
  return ⟨c, ts₃, by omega⟩

/-! ## Statements -/

/-- An assignment. -/
def assignment (ts : List Token) : Except Stop (Taken ts.length Stmt) := do
  let ⟨target, ts₁, h₁⟩ ← identifier ts
  let ⟨_, ts₂, h₂⟩ ← expect .assign ts₁
  let ⟨value, ts₃, h₃⟩ ← expression ts₂
  let s ← node ts₃ (Stmt.assign? (some target) value)
  return ⟨s, ts₃, by omega⟩

/-- A print statement. -/
def printing (ts : List Token) : Except Stop (Taken ts.length Stmt) := do
  let ⟨_, ts₁, h₁⟩ ← expect .printWord ts
  let ⟨_, ts₂, h₂⟩ ← expect .leftParen ts₁
  let ⟨value, ts₃, h₃⟩ ← expression ts₂
  let ⟨_, ts₄, h₄⟩ ← expect .rightParen ts₃
  let s ← node ts₄ (Stmt.print? value)
  return ⟨s, ts₄, by omega⟩

/-- The kinds of tokens that start a statement. -/
def startsStatement : Kind → Bool
  | .identifier | .ifWord | .whileWord | .printWord | .repeatWord => true
  | _ => false

mutual

/-- A statement. -/
def statement (ts : List Token) : Except Stop (Taken ts.length Stmt) := do
  let t ← peek ts
  match t.kind with
  | .ifWord => branch ts
  | .whileWord => loopWhile ts
  | .printWord => printing ts
  | .repeatWord => loopUntil ts
  | .identifier => assignment ts
  | _ => throw (refusal "invalid statement" t ts)
termination_by (ts.length, 1)

/-- A conditional. -/
def branch (ts : List Token) : Except Stop (Taken ts.length Stmt) := do
  let ⟨_, ts₁, h₁⟩ ← expect .ifWord ts
  let ⟨cond, ts₂, h₂⟩ ← condition ts₁
  let ⟨_, ts₃, h₃⟩ ← expect .thenWord ts₂
  let ⟨onTrue, ts₄, h₄⟩ ← block ts₃
  let ⟨_, ts₅, h₅⟩ ← expect .elseWord ts₄
  let ⟨onFalse, ts₆, h₆⟩ ← block ts₅
  let ⟨_, ts₇, h₇⟩ ← expect .endWord ts₆
  let s ← node ts₇ (Stmt.branch? cond onTrue onFalse)
  return ⟨s, ts₇, by omega⟩
termination_by (ts.length, 0)

/-- A loop that tests before its body. -/
def loopWhile (ts : List Token) : Except Stop (Taken ts.length Stmt) := do
  let ⟨_, ts₁, h₁⟩ ← expect .whileWord ts
  let ⟨cond, ts₂, h₂⟩ ← condition ts₁
  let ⟨_, ts₃, h₃⟩ ← expect .doWord ts₂
  let ⟨body, ts₄, h₄⟩ ← block ts₃
  let ⟨_, ts₅, h₅⟩ ← expect .endWord ts₄
  let s ← node ts₅ (Stmt.loopWhile? cond body)
  return ⟨s, ts₅, by omega⟩
termination_by (ts.length, 0)

/-- A loop that tests after its body. -/
def loopUntil (ts : List Token) : Except Stop (Taken ts.length Stmt) := do
  let ⟨_, ts₁, h₁⟩ ← expect .repeatWord ts
  let ⟨body, ts₂, h₂⟩ ← block ts₁
  let ⟨_, ts₃, h₃⟩ ← expect .untilWord ts₂
  let ⟨cond, ts₄, h₄⟩ ← condition ts₃
  let s ← node ts₄ (Stmt.loopUntil? body cond)
  return ⟨s, ts₄, by omega⟩
termination_by (ts.length, 0)

/-- The statements in front, behind those of the block so far. They end at a token that starts none,
and that token is left. -/
def statements (soFar : Block) (ts : List Token) :
    Except Stop (Taken (ts.length + 1) Block) := do
  let t ← peek ts
  if startsStatement t.kind then
    let ⟨s, ts₁, h₁⟩ ← statement ts
    let block ← node ts₁ (soFar.append? s)
    let ⟨all, ts₂, h₂⟩ ← statements block ts₁
    return ⟨all, ts₂, by omega⟩
  else return ⟨soFar, ts, Nat.lt_succ_self _⟩
termination_by (ts.length, 2)

/-- A block. -/
def block (ts : List Token) : Except Stop (Taken (ts.length + 1) Block) := do
  let empty ← node ts (Block.ofList? [])
  statements empty ts
termination_by (ts.length, 3)

end

/-! ## Programs -/

/-- A whole program, with the end of the stream behind it. -/
def program (ts : List Token) : Except Stop (Taken ts.length Program) := do
  let ⟨_, ts₁, h₁⟩ ← expect .functionWord ts
  let ⟨name, ts₂, h₂⟩ ← identifier ts₁
  let ⟨_, ts₃, h₃⟩ ← expect .leftParen ts₂
  let ⟨_, ts₄, h₄⟩ ← expect .rightParen ts₃
  let ⟨body, ts₅, h₅⟩ ← block ts₄
  let ⟨_, ts₆, h₆⟩ ← expect .endWord ts₅
  let ⟨t, rest, h₇⟩ ← next ts₆
  if t.kind = .endOfStream then
    let p ← node rest (Program.make? (some name) body)
    return ⟨p, rest, by omega⟩
  else throw (refusal "garbage at end of file" t rest)

end Descent

/-! ## Texts -/

namespace TokenQueue

/-- The kind of a lexeme on the given line. A lexeme has characters. -/
def checkedKind (row : Nat) (lexeme : Lexeme) : Except Failure Kind :=
  if lexeme.chars.isEmpty then .error (.misuse ⟨"lexer", "invalid string argument"⟩)
  else
    match Lexeme.classify lexeme.chars with
    | .ok kind => .ok kind
    | .error fault => .error (LexError.failure ⟨fault, row, lexeme.column⟩)

/-- The token of a lexeme on the given line. -/
def checkedToken (x : Nat × Lexeme) : Except Failure Token := do
  let kind ← checkedKind x.1 x.2
  built (Token.make? kind.code (String.ofList x.2.chars) x.1 x.2.column)

/-- The tokens of a text, the end of the stream included. -/
def checked? (bytes : Bytes) : Except Failure (List Token) := do
  let lines := (Text.lines bytes).map Text.decode
  let tokens ← (lexemes lines).mapM checkedToken
  let last ← built (Token.make? Kind.endOfStream.code "EOS" (max 1 lines.length : Nat) 1)
  return tokens ++ [last]

end TokenQueue

/-- The program that a text spells. -/
def Program.descend? (bytes : Bytes) : Except Failure Program := do
  let tokens ← TokenQueue.checked? bytes
  (Descent.outcome (Descent.program tokens)).1

end MiniLua
