import MiniLua.Json.Basic
import MiniLua.Text.Blank

/-!
# Locations

A location names a text by its path and a place in it by a line and a column, both counted from
one. Zero, a negative number or a blank path stand for what is not known.

## Delivered

- `Location`: path, line and column.
- `Location.text`: what is known of it, for people.
- `Location.json`: its JSON value, which leaves an empty path out.
-/

set_option autoImplicit false

namespace MiniLua

/-- A place in a text; zero and the empty path mean unknown. -/
structure Location where
  path : String := ""
  line : Int := 0
  column : Int := 0
deriving DecidableEq

namespace Location

/-- Nothing is known. -/
def isUnknown (l : Location) : Bool :=
  l.path = "" && l.line = 0 && l.column = 0

/-- The same place in the text at `path`. -/
def withPath (l : Location) (path : String) : Location :=
  { l with path := path }

/-- What is known of a location. A column counts only together with its line; without a path the
place is spelled out. -/
def text (l : Location) : String :=
  let path := Text.trim l.path
  let line := Text.decimalText l.line
  let column := Text.decimalText l.column
  if path ≠ "" then
    if 0 < l.line then
      if 0 < l.column then path ++ ":" ++ line ++ ":" ++ column else path ++ ":" ++ line
    else path
  else if 0 < l.line then
    if 0 < l.column then "row " ++ line ++ " and column " ++ column else "row " ++ line
  else ""

/-- The JSON value of a location. -/
def json (l : Location) : Json :=
  let place := [("line", Json.num l.line), ("column", Json.num l.column)]
  .obj (if l.path = "" then place else ("path", .str l.path) :: place)

end Location

/-- A message, followed by its place when the place is known. -/
def messageAt (message : String) (place : Location) : String :=
  if place.text = "" then message else message ++ " at " ++ place.text

end MiniLua
