/-!
# Defects of YAML texts

A text is no YAML when its bytes are no characters, when its marks stand in the wrong places, or when
it speaks of tags and anchors that it does not define. The reader stops at the first such place.

## Delivered

- `Defect`, `Defect.text`: the causes and their wording.
-/

set_option autoImplicit false

namespace MiniLua.Yaml

/-- Why a text is no YAML. -/
inductive Defect where
  | encoding
  | controlCharacter
  | unexpectedCharacter
  | misplacedEntry
  | misplacedKey
  | misplacedValue
  | missingColon
  | tooDeep
  | badAnchor
  | badTag
  | badEscape
  | badBlockHeader
  | badDirective
  | repeatedDirective
  | wrongVersion
  | tabIndentation
  | documentMark
  | unclosedQuote
  | missingContent
  | missingEntry
  | missingKey
  | unclosedFlow
  | missingDocument
  | unknownHandle
  | unknownAnchor (name : String)
deriving DecidableEq

/-- A defect for people. -/
def Defect.text : Defect → String
  | .encoding => "invalid character encoding"
  | .controlCharacter => "control characters are not allowed"
  | .unexpectedCharacter => "found character that cannot start any token"
  | .misplacedEntry => "block sequence entries are not allowed in this context"
  | .misplacedKey => "mapping keys are not allowed in this context"
  | .misplacedValue => "mapping values are not allowed in this context"
  | .missingColon => "could not find expected ':'"
  | .tooDeep => "exceeded max depth of 10000"
  | .badAnchor => "did not find expected alphabetic or numeric character"
  | .badTag => "did not find expected tag URI"
  | .badEscape => "found unknown escape character"
  | .badBlockHeader => "did not find expected comment or line break"
  | .badDirective => "found unknown directive name"
  | .repeatedDirective => "found duplicate directive"
  | .wrongVersion => "found incompatible YAML document"
  | .tabIndentation => "found a tab character that violates indentation"
  | .documentMark => "found unexpected document indicator"
  | .unclosedQuote => "found unexpected end of stream"
  | .missingContent => "did not find expected node content"
  | .missingEntry => "did not find expected '-' indicator"
  | .missingKey => "did not find expected key"
  | .unclosedFlow => "did not find expected ',' or closing bracket"
  | .missingDocument => "did not find expected <document start>"
  | .unknownHandle => "found undefined tag handle"
  | .unknownAnchor name => "unknown anchor '" ++ name ++ "' referenced"

end MiniLua.Yaml
