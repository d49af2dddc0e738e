import MiniLua.Yaml.Cursor

/-!
# YAML tokens

The marks and scalars of a YAML text, with the structure that indentation gives made explicit: a
block collection starts and ends with a token of its own, and a key that no mark announces gets one.

## Delivered

- `Style`: how a scalar is written.
- `TokenKind`, `Token`: a token and the line it stands on.
-/

set_option autoImplicit false

namespace MiniLua.Yaml

/-- How a scalar is written. -/
inductive Style where
  | plain
  | quoted
  | block
deriving DecidableEq

/-- The kinds of tokens. -/
inductive TokenKind where
  | streamEnd
  /-- A directive that gives the version of the text. -/
  | version (major minor : Nat)
  /-- A directive that gives the meaning of a handle in tags. -/
  | handle (name meaning : String)
  | documentStart
  | documentEnd
  | sequenceStart
  | mappingStart
  | blockEnd
  | flowSequenceStart
  | flowSequenceEnd
  | flowMappingStart
  | flowMappingEnd
  | blockEntry
  | flowEntry
  | key
  | value
  | alias (name : String)
  | anchor (name : String)
  | tag (handle rest : String)
  | scalar (text : String) (style : Style)
deriving DecidableEq

/-- A token and the number of its line, counted from one. -/
structure Token where
  kind : TokenKind
  line : Nat

end MiniLua.Yaml
