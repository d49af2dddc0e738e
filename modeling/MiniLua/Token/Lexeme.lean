import MiniLua.Text.Blank
import MiniLua.Text.Bytes
import MiniLua.Token.Basic

/-!
# Lexemes

A lexeme is a maximal run of characters without a delimiter, so `x=5` is one lexeme and no token.
Every lexeme is classified by itself: digits only, a single letter, a keyword or a symbol.
Everything else is refused, and the refusal tells a damaged number from any other lexeme.

## Delivered

- `Lexeme`: a run of characters and its column.
- `Lexeme.ofLine`: the runs of one line.
- `Lexeme.classify`: the kind of a run.
-/

set_option autoImplicit false

namespace MiniLua

/-- A run of characters without a delimiter, and the column of its first character. -/
structure Lexeme where
  chars : List Char
  column : Nat
deriving DecidableEq

/-- Why a lexeme is no token. -/
inductive LexemeFault where
  | brokenNumber
  | unknownWord
deriving DecidableEq

/-- The message of a refused lexeme. -/
def LexemeFault.message : LexemeFault → String
  | .brokenNumber => "literal integer expected"
  | .unknownWord => "invalid lexeme"

namespace Lexeme

/-- An ASCII letter. Identifiers are single letters of this class, one for each variable. -/
def isLetter (c : Char) : Bool :=
  ('a' ≤ c && c ≤ 'z') || ('A' ≤ c && c ≤ 'Z')

/-- The finished runs with the run `current` (last character first) that ended just before
`column` added to them, when there is one. -/
def close (current : List Char) (column : Nat) (found : List Lexeme) : List Lexeme :=
  if current.isEmpty then found
  else ⟨current.reverse, column - current.length⟩ :: found

/-- The runs of the characters from `column` on, after the unfinished run `current` and the
finished runs `found`, both with the last first. -/
def scan : List Char → Nat → List Char → List Lexeme → List Lexeme
  | [], column, current, found => (close current column found).reverse
  | c :: cs, column, current, found =>
    if Text.isDelimiter c then scan cs (column + 1) [] (close current column found)
    else scan cs (column + 1) (c :: current) found

/-- The lexemes of a line, from left to right, with columns counted from one. -/
def ofLine (line : List Char) : List Lexeme :=
  scan line 1 [] []

/-- The kind of a run of characters. -/
def classify (chars : List Char) : Except LexemeFault Kind :=
  match chars with
  | [] => .error .unknownWord
  | first :: rest =>
    if Text.isDigit first then
      if rest.all Text.isDigit then .ok .integer else .error .brokenNumber
    else if isLetter first then
      if rest.isEmpty then .ok .identifier
      else match Kind.keyword? (String.ofList chars) with
        | some kind => .ok kind
        | none => .error .unknownWord
    else match Kind.symbol? (String.ofList chars) with
      | some kind => .ok kind
      | none => .error .unknownWord

end Lexeme
end MiniLua
