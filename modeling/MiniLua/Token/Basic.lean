import MiniLua.Location
import MiniLua.Misuse
import MiniLua.Text.Quoted
import MiniLua.Token.Kind

/-!
# Tokens

A token is a lexeme with its kind and with the line and column at which it starts. Tokens that are
made by hand are checked: the kind must exist, the lexeme must not be empty, and line and column
count from one.

## Delivered

- `Token`: kind, lexeme, line and column.
- `Token.make?`: the checked constructor.
- `Token.place`, `Token.text`: its location and its one-line form.
-/

set_option autoImplicit false

namespace MiniLua

/-- A classified lexeme and the place where it starts. -/
structure Token where
  kind : Kind
  lexeme : String
  line : Nat
  column : Nat
deriving DecidableEq

namespace Token

/-- A token from a kind code and a place. The first fault found is reported, in the order kind,
lexeme, line, column. -/
def make? (code : Nat) (lexeme : String) (line column : Int) : Except Misuse Token :=
  match Kind.ofCode? code with
  | none => .error ⟨"token", "invalid token kind " ++ Text.decimalText code⟩
  | some kind =>
    if lexeme = "" then .error ⟨"token", "invalid lexeme argument"⟩
    else if line ≤ 0 then
      .error ⟨"token", "invalid row number argument " ++ Text.decimalText line⟩
    else if column ≤ 0 then
      .error ⟨"token", "invalid column number argument " ++ Text.decimalText column⟩
    else .ok ⟨kind, lexeme, line.toNat, column.toNat⟩

/-- The place of a token. -/
def place (t : Token) : Location :=
  { line := t.line, column := t.column }

/-- Line, column, kind and quoted lexeme. -/
def text (t : Token) : String :=
  Text.decimalText t.line ++ ":" ++ Text.decimalText t.column ++ " " ++ t.kind.name ++ " " ++
    Text.quoteText t.lexeme

end Token
end MiniLua
