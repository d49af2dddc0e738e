import MiniLua.Text.Decimal

/-!
# Kinds of tokens

There are twenty-six kinds: the end of the stream, the two open classes (identifiers and integer
literals), ten keywords and thirteen symbols. Each kind has a code from 1 to 26 and a name, and the
name of a keyword or a symbol is its only lexeme.

## Delivered

- `Kind`, `Kind.all`, `Kind.code`, `Kind.ofCode?`, `Kind.name`.
- `Kind.nameOfCode`: the name of any code, also of one that no kind has.
- `Kind.isKeyword`, `Kind.isRelational`, `Kind.isArithmetic`: the classes.
- `Kind.keyword?`, `Kind.symbol?`: the kind of a closed lexeme.
-/

set_option autoImplicit false

namespace MiniLua

/-- The kinds of tokens. -/
inductive Kind where
  | endOfStream
  | identifier
  | integer
  | functionWord
  | ifWord
  | thenWord
  | elseWord
  | endWord
  | whileWord
  | doWord
  | printWord
  | repeatWord
  | untilWord
  | leftParen
  | rightParen
  | equal
  | unequal
  | less
  | lessEqual
  | greater
  | greaterEqual
  | plus
  | minus
  | times
  | divide
  | assign
deriving DecidableEq

namespace Kind

/-- The keywords, in the order of their codes. -/
def keywords : List Kind :=
  [functionWord, ifWord, thenWord, elseWord, endWord, whileWord, doWord, printWord, repeatWord,
    untilWord]

/-- The relational operators, in the order of their codes. -/
def relational : List Kind :=
  [equal, unequal, less, lessEqual, greater, greaterEqual]

/-- The arithmetic operators, in the order of their codes. -/
def arithmetic : List Kind :=
  [plus, minus, times, divide]

/-- The symbols, in the order of their codes. -/
def symbols : List Kind :=
  [leftParen, rightParen] ++ relational ++ arithmetic ++ [assign]

/-- Every kind, in the order of their codes. -/
def all : List Kind :=
  [endOfStream, identifier, integer] ++ keywords ++ symbols

/-- The code of a kind, from 1 to 26. -/
def code (k : Kind) : Nat :=
  all.idxOf k + 1

/-- The kind with a code. -/
def ofCode? : Nat → Option Kind
  | 0 => none
  | n + 1 => all[n]?

/-- The name of a kind in messages. -/
def name : Kind → String
  | endOfStream => "end of stream"
  | identifier => "identifier"
  | integer => "integer literal"
  | functionWord => "function"
  | ifWord => "if"
  | thenWord => "then"
  | elseWord => "else"
  | endWord => "end"
  | whileWord => "while"
  | doWord => "do"
  | printWord => "print"
  | repeatWord => "repeat"
  | untilWord => "until"
  | leftParen => "("
  | rightParen => ")"
  | equal => "=="
  | unequal => "~="
  | less => "<"
  | lessEqual => "<="
  | greater => ">"
  | greaterEqual => ">="
  | plus => "+"
  | minus => "-"
  | times => "*"
  | divide => "/"
  | assign => "="

/-- The name shown for a code. Code 0 is reserved for what is no token. -/
def nameOfCode (n : Nat) : String :=
  match ofCode? n with
  | some k => k.name
  | none => if n = 0 then "invalid" else "Kind(" ++ Text.decimalText n ++ ")"

/-- A keyword. -/
def isKeyword (k : Kind) : Bool :=
  keywords.contains k

/-- A relational operator. -/
def isRelational (k : Kind) : Bool :=
  relational.contains k

/-- An arithmetic operator. -/
def isArithmetic (k : Kind) : Bool :=
  arithmetic.contains k

/-- The keyword with the given lexeme. -/
def keyword? (lexeme : String) : Option Kind :=
  keywords.find? fun k => k.name = lexeme

/-- The symbol with the given lexeme. -/
def symbol? (lexeme : String) : Option Kind :=
  symbols.find? fun k => k.name = lexeme

/-- Reading a code back gives the kind. -/
theorem ofCode?_code (k : Kind) : ofCode? k.code = some k := by
  cases k <;> decide

end Kind
end MiniLua
