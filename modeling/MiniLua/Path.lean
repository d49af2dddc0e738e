import MiniLua.Text.Bytes

/-!
# Paths

A path is a text of segments with slashes between them. The operations here look at the text only,
never at a disk: a segment `..` takes back the segment before it, whatever that may be.

## Delivered

- `Path.isAbsolute`: the path starts at the root.
- `Path.clean`: the shortest path of the same meaning.
- `Path.join`, `Path.directory`, `Path.base`: parts of paths and their joins.
- `Path.stem`: the last segment without its extension.
-/

set_option autoImplicit false

namespace MiniLua.Path

/-- The path starts at the root. -/
def isAbsolute (path : String) : Bool :=
  path.toList.head? = some '/'

/-- One more segment after the segments `above`, the last of which comes first. Empty segments and
`.` add nothing; `..` takes a segment back when there is one, stays in front of a relative path, and
is dropped at the root. -/
def descend (rooted : Bool) (above : List (List Char)) (segment : List Char) : List (List Char) :=
  if segment = [] ∨ segment = ['.'] then above
  else if segment = ['.', '.'] then
    match above with
    | [] => if rooted then [] else [segment]
    | last :: rest => if last = ['.', '.'] then segment :: above else rest
  else segment :: above

/-- The segments of the shortest path of the same meaning. -/
def cleanSegments (path : String) : List (List Char) :=
  ((Text.splitOn '/' path.toList).foldl (descend (isAbsolute path)) []).reverse

/-- The shortest path of the same meaning. The path to the place itself is a point. -/
def clean (path : String) : String :=
  let body := ['/'].intercalate (cleanSegments path)
  if isAbsolute path then String.ofList ('/' :: body)
  else if body = [] then "."
  else String.ofList body

/-- The path `second` as seen from `first`. Empty paths do not count. -/
def join (first second : String) : String :=
  if first = "" then (if second = "" then "" else clean second)
  else if second = "" then clean first
  else clean (first ++ "/" ++ second)

/-- The path up to its last slash. -/
def directory (path : String) : String :=
  clean (String.ofList (path.toList.reverse.dropWhile (· ≠ '/')).reverse)

/-- The last segment; slashes at the end do not count. -/
def base (path : String) : String :=
  if path = "" then "."
  else
    match path.toList.reverse.dropWhile (· = '/') with
    | [] => "/"
    | reversed => String.ofList (reversed.takeWhile (· ≠ '/')).reverse

/-- A segment without its last point and what follows it. -/
def withoutExtension (segment : String) : String :=
  let reversed := segment.toList.reverse
  if '.' ∈ reversed then String.ofList ((reversed.dropWhile (· ≠ '.')).drop 1).reverse
  else segment

/-- The name that a path gives to what it holds: its last segment without extension. -/
def stem (path : String) : String :=
  if path = "" then "" else withoutExtension (base path)

end MiniLua.Path
