import MiniLua.Syntax.Basic
import MiniLua.Token.Queue

/-!
# Programs from tokens

The grammar needs one token of foresight and no second look, so a program is read by a machine that
takes one token at a time:

    program    := "function" id "(" ")" block "end" EOS
    block      := { statement }
    statement  := if | while | repeat | print | assignment
    if         := "if" condition "then" block "else" block "end"
    while      := "while" condition "do" block "end"
    repeat     := "repeat" block "until" condition
    print      := "print" "(" expression ")"
    assignment := id "=" expression
    expression := id | integer | arithmetic-operator expression expression
    condition  := relational-operator expression expression

The state of the machine holds what is open: the blocks around the current statement with the
statements already read (`Spine`), the operators that wait for operands (`Hole`), and what the
expression will be used for (`Goal`). A token either moves the machine on, or completes the program,
or is refused. A refused token has been taken, and nothing after it.

## Delivered

- `SyntaxError`: a refused token, or the end of the queue.
- `ParseState`, `ParseState.step`: the machine.
- `ParseState.run`: the machine on a list of tokens, with the tokens that it left.
- `TokenQueue.parse`: a program from the front of a queue.
- `Program.ofBytes?`: a program from its text.
-/

set_option autoImplicit false

namespace MiniLua

/-- What the grammar asked for at a refused token. -/
inductive Expectation where
  | kind (k : Kind)
  | arithmeticOperator
  | relationalOperator
  | literal
  | smallLiteral
  | nothingMore
deriving DecidableEq

/-- The message of a refused token. -/
def Expectation.message : Expectation → String
  | .kind k => k.name ++ " expected"
  | .arithmeticOperator => "arithmetic operator expected"
  | .relationalOperator => "relational operator expected"
  | .literal => "literal integer expected"
  | .smallLiteral => "literal integer out of range"
  | .nothingMore => "garbage at end of file"

/-- Why tokens are no program: a token was refused, or there were no more. -/
inductive SyntaxError where
  | refused (expected : Expectation) (token : Token)
  | noMoreTokens
deriving DecidableEq

/-- The failure that a syntax error is. -/
def SyntaxError.failure : SyntaxError → Failure
  | .refused expected token => .parse expected.message token.place
  | .noMoreTokens => .parse "no more tokens" {}

/-! ## What is open -/

/-- An operator that waits for an operand, with the left operand once it is read. -/
inductive Hole where
  | left (op : ArithOp)
  | right (op : ArithOp) (left : Expr)

/-- What a condition will be used for. -/
inductive CondUse where
  | branch
  | loopWhile
  | loopUntil (body : Block)

/-- What a complete expression will be used for. -/
inductive Goal where
  | assign (target : Ident)
  | print
  | compareLeft (use : CondUse) (op : RelOp)
  | compareRight (use : CondUse) (op : RelOp) (left : Expr)

/-- The statement that an open inner block belongs to. -/
inductive Owner where
  | onTrue (cond : Cond)
  | onFalse (cond : Cond) (onTrue : Block)
  | loopWhile (cond : Cond)
  | loopUntil

/-- The open blocks from the innermost outwards, each with the statements read so far, last
first. -/
inductive Spine where
  | body (name : Ident) (done : List Stmt)
  | inner (owner : Owner) (done : List Stmt) (outer : Spine)

/-- The spine with a statement added to its innermost block. -/
def Spine.push (s : Stmt) : Spine → Spine
  | .body name done => .body name (s :: done)
  | .inner owner done outer => .inner owner (s :: done) outer

/-- The states of the machine, named for what may come next. -/
inductive ParseState where
  | start
  | title
  | openParen (name : Ident)
  | closeParen (name : Ident)
  | boundary (spine : Spine)
  | assignSign (target : Ident) (spine : Spine)
  | printOpen (spine : Spine)
  | operand (holes : List Hole) (goal : Goal) (spine : Spine)
  | printClose (value : Expr) (spine : Spine)
  | relation (use : CondUse) (spine : Spine)
  | thenWord (cond : Cond) (spine : Spine)
  | doWord (cond : Cond) (spine : Spine)
  | finish (program : Program)

/-- What a token does: it moves the machine on, or completes a program. -/
inductive ParseMove where
  | next (state : ParseState)
  | accept (program : Program)

/-! ## Operators and literals -/

/-- The arithmetic operator of a kind. -/
def ArithOp.ofKind? : Kind → Option ArithOp
  | .plus => some .add
  | .minus => some .sub
  | .times => some .mul
  | .divide => some .div
  | _ => none

/-- The relational operator of a kind. -/
def RelOp.ofKind? : Kind → Option RelOp
  | .equal => some .eq
  | .unequal => some .ne
  | .less => some .lt
  | .lessEqual => some .le
  | .greater => some .gt
  | .greaterEqual => some .ge
  | _ => none

/-- The greatest literal. -/
def maxLiteral : Nat := 2147483647

/-- The name that an identifier token spells. -/
def Token.ident (t : Token) : Ident :=
  match t.lexeme.toList with
  | c :: _ => ⟨c.toNat.toUInt8, false⟩
  | [] => ⟨0, false⟩

/-- The value of an integer token. Leading zeros are allowed, and the value is at most
`maxLiteral`. -/
def Token.literal? (t : Token) : Except SyntaxError Expr :=
  match Text.natural? t.lexeme.toList with
  | none => .error (.refused .literal t)
  | some n =>
    if n ≤ maxLiteral then .ok (.lit (Int32.ofNat n)) else .error (.refused .smallLiteral t)

/-! ## The machine -/

namespace ParseState

/-- The state after a complete condition. -/
def useCond : CondUse → Cond → Spine → ParseState
  | .branch, cond, spine => .thenWord cond spine
  | .loopWhile, cond, spine => .doWord cond spine
  | .loopUntil body, cond, spine => .boundary (spine.push (.loopUntil body cond))

/-- The state after an expression that no operator waits for. -/
def useExpr : Goal → Expr → Spine → ParseState
  | .assign target, value, spine => .boundary (spine.push (.assign target value))
  | .print, value, spine => .printClose value spine
  | .compareLeft use op, left, spine => .operand [] (.compareRight use op left) spine
  | .compareRight use op left, right, spine => useCond use (.compare op left right) spine

/-- The state after an expression, which the innermost waiting operator takes. -/
def supply : Expr → List Hole → Goal → Spine → ParseState
  | e, [], goal, spine => useExpr goal e spine
  | e, .left op :: holes, goal, spine => .operand (.right op e :: holes) goal spine
  | e, .right op left :: holes, goal, spine => supply (.binary op left e) holes goal spine

/-- The keyword that closes the innermost block. -/
def terminator : Spine → Kind
  | .body _ _ => .endWord
  | .inner (.onTrue _) _ _ => .elseWord
  | .inner (.onFalse _ _) _ _ => .endWord
  | .inner (.loopWhile _) _ _ => .endWord
  | .inner .loopUntil _ _ => .untilWord

/-- The state after the keyword that closes the innermost block. -/
def close : Spine → ParseState
  | .body name done => .finish { name := some name, body := .seq done.reverse }
  | .inner (.onTrue cond) done outer =>
    .boundary (.inner (.onFalse cond (.seq done.reverse)) [] outer)
  | .inner (.onFalse cond onTrue) done outer =>
    .boundary (outer.push (.branch cond onTrue (.seq done.reverse)))
  | .inner (.loopWhile cond) done outer =>
    .boundary (outer.push (.loopWhile cond (.seq done.reverse)))
  | .inner .loopUntil done outer => .relation (.loopUntil (.seq done.reverse)) outer

/-- The move to `state` on a token of the given kind; other tokens are refused. -/
def expect (k : Kind) (t : Token) (state : ParseState) : Except SyntaxError ParseMove :=
  if t.kind = k then .ok (.next state) else .error (.refused (.kind k) t)

/-- A token between statements starts a statement or closes the innermost block. -/
def stepBoundary (spine : Spine) (t : Token) : Except SyntaxError ParseMove :=
  match t.kind with
  | .identifier => .ok (.next (.assignSign t.ident spine))
  | .ifWord => .ok (.next (.relation .branch spine))
  | .whileWord => .ok (.next (.relation .loopWhile spine))
  | .printWord => .ok (.next (.printOpen spine))
  | .repeatWord => .ok (.next (.boundary (.inner .loopUntil [] spine)))
  | _ => expect (terminator spine) t (close spine)

/-- A token at the start of an expression. -/
def stepOperand (holes : List Hole) (goal : Goal) (spine : Spine) (t : Token) :
    Except SyntaxError ParseMove :=
  match t.kind with
  | .identifier => .ok (.next (supply (.var t.ident) holes goal spine))
  | .integer => do
    let value ← t.literal?
    return .next (supply value holes goal spine)
  | k =>
    match ArithOp.ofKind? k with
    | some op => .ok (.next (.operand (.left op :: holes) goal spine))
    | none => .error (.refused .arithmeticOperator t)

/-- One token. -/
def step : ParseState → Token → Except SyntaxError ParseMove
  | .start, t => expect .functionWord t .title
  | .title, t => expect .identifier t (.openParen t.ident)
  | .openParen name, t => expect .leftParen t (.closeParen name)
  | .closeParen name, t => expect .rightParen t (.boundary (.body name []))
  | .boundary spine, t => stepBoundary spine t
  | .assignSign target spine, t => expect .assign t (.operand [] (.assign target) spine)
  | .printOpen spine, t => expect .leftParen t (.operand [] .print spine)
  | .operand holes goal spine, t => stepOperand holes goal spine t
  | .printClose value spine, t => expect .rightParen t (.boundary (spine.push (.print value)))
  | .relation use spine, t =>
    match RelOp.ofKind? t.kind with
    | some op => .ok (.next (.operand [] (.compareLeft use op) spine))
    | none => .error (.refused .relationalOperator t)
  | .thenWord cond spine, t => expect .thenWord t (.boundary (.inner (.onTrue cond) [] spine))
  | .doWord cond spine, t => expect .doWord t (.boundary (.inner (.loopWhile cond) [] spine))
  | .finish program, t =>
    if t.kind = .endOfStream then .ok (.accept program)
    else .error (.refused .nothingMore t)

/-- The machine on a list of tokens: the program or the error, and the tokens after the last one
taken. -/
def run : ParseState → List Token → Except SyntaxError Program × List Token
  | _, [] => (.error .noMoreTokens, [])
  | state, t :: ts =>
    match step state t with
    | .ok (.next state') => run state' ts
    | .ok (.accept program) => (.ok program, ts)
    | .error e => (.error e, ts)

end ParseState

/-- A program from the front of a queue, and the queue behind the last token taken. -/
def TokenQueue.parse (q : TokenQueue) : Except SyntaxError Program × TokenQueue :=
  let (result, rest) := ParseState.run .start q.tokens
  (result, { q with tokens := rest })

/-- Why a text is no program. -/
inductive SourceError where
  | lexical (cause : LexError)
  | syntactic (cause : SyntaxError)
deriving DecidableEq

/-- The failure that a refused text is. -/
def SourceError.failure : SourceError → Failure
  | .lexical cause => cause.failure
  | .syntactic cause => cause.failure

/-- The program that a text spells. -/
def Program.ofBytes? (bytes : Bytes) : Except SourceError Program :=
  match TokenQueue.ofBytes bytes with
  | .error cause => .error (.lexical cause)
  | .ok queue => queue.parse.1.mapError .syntactic

end MiniLua
