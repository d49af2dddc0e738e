import MiniLua.Location
import MiniLua.Misuse

/-!
# Failures

A failure is a cause under any number of layers that say what was being done. The causes that carry
more than a text are kept apart, so that a later reader can find them through the layers.

## Delivered

- `Failure`: the causes and the two kinds of layers; `Failure.wrap`: the usual words of a layer.
- `Failure.text`: the whole chain as one text.
- `Failure.chain`: the failure followed by everything under it.
-/

set_option autoImplicit false

namespace MiniLua

/-- What went wrong, and while doing what. -/
inductive Failure where
  /-- A lexeme that is no token, or a token asked of an empty queue. -/
  | lexical (message : String) (place : Location)
  /-- A token that the grammar does not allow. -/
  | parse (message : String) (place : Location)
  /-- A refused call. -/
  | misuse (cause : Misuse)
  /-- A manifest that breaks rules; one issue for each. -/
  | invalid (issues : List String)
  /-- A document whose values do not have the types asked of them; one problem for each. -/
  | mistyped (problems : List String)
  /-- A text that is no document of its format. -/
  | malformed (message : String)
  /-- No document at all. -/
  | endOfInput
  /-- Any other cause. -/
  | plain (message : String)
  /-- A source that could not be obtained. -/
  | load (source : String) (cause : Failure)
  /-- Words in front of the text of a cause. -/
  | behind (words : String) (cause : Failure)

namespace Failure

/-- What was being done when the cause arose. -/
def wrap (context : String) (cause : Failure) : Failure :=
  .behind (context ++ ": ") cause

/-- One line for each entry, each after a line break and `mark`. -/
def entries (mark : String) (items : List String) : String :=
  String.join (items.map fun item => "\n" ++ mark ++ item)

/-- The text of a failure: layers first, outermost first. -/
def text : Failure → String
  | .lexical message place => messageAt message place
  | .parse message place => messageAt message place
  | .misuse cause => cause.text
  | .invalid [] => "manifest: invalid configuration"
  | .invalid issues => "manifest validation failed:" ++ entries "- " issues
  | .mistyped problems => "yaml: unmarshal errors:" ++ entries "  " problems
  | .malformed message => "yaml: " ++ message
  | .endOfInput => "EOF"
  | .plain message => message
  | .load source cause => "loader: " ++ source ++ ": " ++ cause.text
  | .behind words cause => words ++ cause.text

/-- The failure and everything under it, outermost first. -/
def chain : Failure → List Failure
  | .load source cause => .load source cause :: cause.chain
  | .behind words cause => .behind words cause :: cause.chain
  | cause => [cause]

/-- The unplaced failure of taking a token from an empty queue. -/
def isNoMoreTokens : Failure → Bool
  | .lexical message place => message = "no more tokens" && place.isUnknown
  | _ => false

/-- A lexical failure. -/
def isLexical : Failure → Bool
  | .lexical _ _ => true
  | _ => false

end Failure
end MiniLua
