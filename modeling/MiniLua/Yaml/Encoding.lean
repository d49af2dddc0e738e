import MiniLua.Text.Bytes
import MiniLua.Yaml.Defect

/-!
# Characters of a YAML text

A text is written in UTF-8, or in UTF-16 when its first two bytes are a mark of their order. It is
read in blocks of 512 bytes. A block gives its complete characters, and the bytes behind them start
the next block. A byte that is no part of an allowed character spoils its whole block, but not the
blocks in front of it: who does not read so far never meets it.

## Delivered

- `isAllowed`: the characters of YAML texts.
- `Encoding`, `Encoding.first`: the two ways of writing characters, and how each is read.
- `Block`, `blocks`: a text as it is read.
-/

set_option autoImplicit false

namespace MiniLua.Yaml

/-- Characters that a YAML text may hold. -/
def isAllowed (c : Char) : Bool :=
  let n := c.toNat
  n = 0x09 || n = 0x0a || n = 0x0d || (0x20 ≤ n && n ≤ 0x7e) || n = 0x85 ||
    (0xa0 ≤ n && n ≤ 0xd7ff) || (0xe000 ≤ n && n ≤ 0xfffd) || 0x10000 ≤ n

/-- How characters are written as bytes. -/
inductive Encoding where
  | utf8
  | utf16 (lowFirst : Bool)

/-- What stands at the start of some bytes: a character and the number of its bytes, the start of a
character that is not complete, or something else. -/
inductive First where
  | char (c : Char) (width : Nat)
  | short
  | bad

/-- The number of bytes of a character of UTF-8, by its first byte. -/
def utf8Width (b : UInt8) : Nat :=
  if b < 0x80 then 1
  else if b < 0xc0 then 0
  else if b < 0xe0 then 2
  else if b < 0xf0 then 3
  else if b < 0xf8 then 4
  else 0

/-- A unit of UTF-16. -/
def unit16 (lowFirst : Bool) (a b : UInt8) : Nat :=
  if lowFirst then a.toNat + 256 * b.toNat else 256 * a.toNat + b.toNat

/-- The first of two units that make one character. -/
def isHighUnit (n : Nat) : Bool :=
  0xd800 ≤ n && n < 0xdc00

/-- The second of two units that make one character. -/
def isLowUnit (n : Nat) : Bool :=
  0xdc00 ≤ n && n < 0xe000

/-- The character at the start of some bytes. -/
def Encoding.first (e : Encoding) (bytes : Bytes) : First :=
  match e, bytes with
  | _, [] => .short
  | .utf8, b :: rest =>
    let width := utf8Width b
    if width = 0 then .bad
    else if bytes.length < width then .short
    else
      let (c, more) := Text.leading b rest
      if more + 1 = width then .char c width else .bad
  | .utf16 _, [_] => .short
  | .utf16 lowFirst, a :: b :: rest =>
    let high := unit16 lowFirst a b
    if isLowUnit high then .bad
    else if isHighUnit high then
      match rest with
      | x :: y :: _ =>
        let low := unit16 lowFirst x y
        if isLowUnit low then
          .char (Char.ofNat (0x10000 + (high - 0xd800) * 0x400 + (low - 0xdc00))) 4
        else .bad
      | _ => .short
    else .char (Char.ofNat high) 2

/-- The encoding of a text, and the number of bytes of the mark in front of it. -/
def Encoding.ofMark (bytes : Bytes) : Encoding × Nat :=
  if bytes.take 2 = [0xff, 0xfe] then (.utf16 true, 2)
  else if bytes.take 2 = [0xfe, 0xff] then (.utf16 false, 2)
  else if bytes.take 3 = [0xef, 0xbb, 0xbf] then (.utf8, 3)
  else (.utf8, 0)

/-- Characters that are read together, or what spoils them. -/
abbrev Block := Except Defect (List Char)

/-- The complete characters of some bytes after those in `read`, the last of which comes first, and
the bytes behind them. -/
def Encoding.complete (e : Encoding) : Nat → List Char → Bytes → Except Defect (List Char × Bytes)
  | 0, read, bytes => .ok (read.reverse, bytes)
  | limit + 1, read, bytes =>
    match e.first (bytes.take 4) with
    | .short => .ok (read.reverse, bytes)
    | .bad => .error .encoding
    | .char c width =>
      if isAllowed c then e.complete limit (c :: read) (bytes.drop width)
      else .error .controlCharacter

/-- The blocks of a text: the bytes `start` are left from the block before, and the next block takes
`size` more. -/
def Encoding.blocksFrom (e : Encoding) : Nat → Nat → Bytes → Bytes → List Block
  | 0, _, _, _ => []
  | limit + 1, size, start, rest =>
    match rest with
    | [] => if start.isEmpty then [] else [.error .encoding]
    | _ =>
      match e.complete 512 [] (start ++ rest.take size) with
      | .error d => [.error d]
      | .ok (chars, next) =>
        .ok chars :: e.blocksFrom limit (512 - next.length) next (rest.drop size)

/-- The blocks of a text. Each of them takes at least one byte. -/
def blocks (bytes : Bytes) : List Block :=
  let (e, mark) := Encoding.ofMark bytes
  e.blocksFrom (bytes.length + 1) (512 - mark) [] (bytes.drop mark)

end MiniLua.Yaml
