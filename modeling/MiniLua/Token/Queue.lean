import MiniLua.Failure
import MiniLua.Token.Lexeme

/-!
# Token queues

A text becomes a queue of tokens at once: every lexeme of every line in order, then one token for
the end of the stream. The first lexeme that is no token refuses the whole text. A queue is then
taken from the front, and asking an empty queue for a token is a failure of its own.

A text may also come from a reader, which hands out whole lines, drops one carriage return at the
end of each, and gives up on a line of one mebibyte or more before anything is classified.

## Delivered

- `TokenQueue`: the tokens left, and the number of lines read.
- `TokenQueue.ofLines`, `TokenQueue.ofBytes`, `TokenQueue.ofReader`: the three ways to fill one.
- `TokenQueue.tokens?`: the tokens of a text.
- `TokenQueue.peek?`, `TokenQueue.next?`: the front of the queue.
-/

set_option autoImplicit false

namespace MiniLua

/-- A lexeme that is no token, with its place. -/
structure LexError where
  fault : LexemeFault
  line : Nat
  column : Nat
deriving DecidableEq

/-- The failure that a refused lexeme is. -/
def LexError.failure (e : LexError) : Failure :=
  .lexical e.fault.message { line := e.line, column := e.column }

/-- The tokens that are left of a text, and the number of lines that the text has. -/
structure TokenQueue where
  tokens : List Token
  lines : Nat
deriving DecidableEq

/-- A stream of bytes that may break off with a failure. -/
structure Reader where
  content : Bytes
  failure : Option String := none

/-- Why a reader gave no tokens. -/
inductive ReadError where
  | lineTooLong
  | broken (reason : String)
  | lexical (cause : LexError)
deriving DecidableEq

/-- The failure that a refused reader is. -/
def ReadError.failure : ReadError → Failure
  | .lineTooLong => .wrap "lexer: read source" (.plain "bufio.Scanner: token too long")
  | .broken reason => .wrap "lexer: read source" (.plain reason)
  | .lexical cause => cause.failure

namespace TokenQueue

/-- The lexemes of a text with their lines, in reading order. -/
def lexemes (lines : List (List Char)) : List (Nat × Lexeme) :=
  (lines.zipIdx 1).flatMap fun (line, row) => (Lexeme.ofLine line).map fun lexeme => (row, lexeme)

/-- The token of a lexeme on the given line. -/
def classify : Nat × Lexeme → Except LexError Token
  | (row, lexeme) =>
    match Lexeme.classify lexeme.chars with
    | .ok kind => .ok ⟨kind, String.ofList lexeme.chars, row, lexeme.column⟩
    | .error fault => .error ⟨fault, row, lexeme.column⟩

/-- The token after all others. It stands at the start of the last line, or of line 1 when there is
none. -/
def endToken (lines : Nat) : Token :=
  ⟨.endOfStream, "EOS", max 1 lines, 1⟩

/-- The queue of a text given by its lines. -/
def ofLines (lines : List (List Char)) : Except LexError TokenQueue := do
  let tokens ← (lexemes lines).mapM classify
  return ⟨tokens ++ [endToken lines.length], lines.length⟩

/-- The queue of a text. -/
def ofBytes (bytes : Bytes) : Except LexError TokenQueue :=
  ofLines ((Text.lines bytes).map Text.decode)

/-- The tokens of a text, the end of the stream included. -/
def tokens? (bytes : Bytes) : Except LexError (List Token) := do
  return (← ofBytes bytes).tokens

/-- A line without one carriage return at its end. -/
def dropReturn (line : Bytes) : Bytes :=
  if line.getLast? = some 0x0d then line.dropLast else line

/-- A reader gives up on a line with this many bytes before its newline. -/
def lineLimit : Nat := 1048576

/-- The queue of the text that a reader gives. A line that is too long is found first, a broken
reader next, and only then are lexemes looked at. -/
def ofReader (reader : Reader) : Except ReadError TokenQueue :=
  let lines := Text.lines reader.content
  if lines.any fun line => lineLimit ≤ line.length then .error .lineTooLong
  else match reader.failure with
    | some reason => .error (.broken reason)
    | none => (ofLines (lines.map fun line => Text.decode (dropReturn line))).mapError .lexical

/-- The front token. -/
def peek? (q : TokenQueue) : Option Token :=
  q.tokens.head?

/-- The front token and the queue behind it. -/
def next? (q : TokenQueue) : Option (Token × TokenQueue) :=
  match q.tokens with
  | [] => none
  | t :: rest => some (t, { q with tokens := rest })

/-- The failure of asking an empty queue. -/
def noMoreTokens : Failure :=
  .lexical "no more tokens" {}

/-- A call without a reader. -/
def noReader : Misuse :=
  ⟨"lexer", "nil reader argument"⟩

end TokenQueue
end MiniLua
