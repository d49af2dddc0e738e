import MiniLua.Failure

/-!
# Diagnostics

A diagnostic says at which stage something failed, why, and where. It is read off the chain of a
failure: a lexical failure anywhere in it comes before a parse failure, then a refused call, then a
loading layer; a chain with none of them is a failure of the run.

## Delivered

- `Stage`, `Diagnostic`: the parts of a report.
- `Failure.diagnostic`: the diagnostic of a failure in the text at a path.
- `Diagnostic.describe`: the report in one line.
-/

set_option autoImplicit false

namespace MiniLua

/-- The step of the work that failed. -/
inductive Stage where
  | load
  | lexical
  | parse
  | argument
  | runtime
  /-- A step that the caller names. -/
  | named (name : String)
deriving DecidableEq

/-- The word for a stage. A stage without a name is an error of some kind. -/
def Stage.name : Stage → String
  | .load => "loader"
  | .lexical => "lexer"
  | .parse => "parser"
  | .argument => "argument"
  | .runtime => "runtime"
  | .named name => if name = "" then "error" else name

/-- Where, why and at which stage something failed. -/
structure Diagnostic where
  stage : Stage
  message : String
  place : Location

namespace Failure

/-- The message and the place of a lexical failure. -/
def lexical? : Failure → Option (String × Location)
  | .lexical message place => some (message, place)
  | _ => none

/-- The message and the place of a parse failure. -/
def parse? : Failure → Option (String × Location)
  | .parse message place => some (message, place)
  | _ => none

/-- The refused call. -/
def misuse? : Failure → Option Misuse
  | .misuse cause => some cause
  | _ => none

/-- What a loading layer lies over. -/
def load? : Failure → Option Failure
  | .load _ cause => some cause
  | _ => none

/-- The diagnostic of a failure in the text at `path`. Each kind of failure is looked for in the whole
chain, outermost first, before the next kind is. -/
def diagnostic (f : Failure) (path : String) : Diagnostic :=
  let text : Location := { path := path }
  match f.chain.findSome? lexical? with
  | some (message, place) => ⟨.lexical, message, place.withPath path⟩
  | none =>
    match f.chain.findSome? parse? with
    | some (message, place) => ⟨.parse, message, place.withPath path⟩
    | none =>
      match f.chain.findSome? misuse? with
      | some cause => ⟨.argument, cause.text, text⟩
      | none =>
        match f.chain.findSome? load? with
        | some cause => ⟨.load, cause.text, text⟩
        | none => ⟨.runtime, f.text, text⟩

end Failure

namespace Diagnostic

/-- The diagnostic of no failure at all. -/
def nothing (path : String) : Diagnostic :=
  ⟨.runtime, "", { path := path }⟩

/-- A message without the name of its stage in front. -/
def bareMessage (d : Diagnostic) : String :=
  let message := Text.trim d.message
  let head := (d.stage.name ++ ":").toList
  if head.isPrefixOf message.toList then
    Text.trim (String.ofList (message.toList.drop head.length))
  else message

/-- The stage, the place when it is known, and the message. -/
def describe (d : Diagnostic) : String :=
  let place := d.place.text
  if place = "" then d.stage.name ++ ": " ++ d.bareMessage
  else d.stage.name ++ ": " ++ place ++ " " ++ d.bareMessage

end Diagnostic
end MiniLua
