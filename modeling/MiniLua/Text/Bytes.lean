/-!
# Bytes and characters

Program texts arrive as bytes. They are read as UTF-8, and a byte that starts no well-formed
sequence is read on its own as the replacement character, so every text has characters and no byte
is lost from a count of columns.

## Delivered

- `Bytes`: a text before decoding.
- `decode`: its characters; `encode`: the bytes of a text.
- `splitOn`: the pieces between occurrences of one element.
- `lines`: the lines of a text, without a last empty one.
-/

set_option autoImplicit false

namespace MiniLua

/-- A text as it is stored. -/
abbrev Bytes := List UInt8

namespace Text

/-- Read in place of a byte that starts no well-formed sequence. -/
def replacement : Char := '\ufffd'

/-- A byte of the form `10xxxxxx`. -/
def isContinuation (b : UInt8) : Bool :=
  0x80 ≤ b && b ≤ 0xbf

/-- The second byte that may follow the first byte of a longer sequence. The bounds leave out
overlong forms, surrogates and code points above `10ffff`. -/
def isSecond (first second : UInt8) : Bool :=
  if first = 0xe0 then 0xa0 ≤ second && second ≤ 0xbf
  else if first = 0xed then 0x80 ≤ second && second ≤ 0x9f
  else if first = 0xf0 then 0x90 ≤ second && second ≤ 0xbf
  else if first = 0xf4 then 0x80 ≤ second && second ≤ 0x8f
  else isContinuation second

/-- The low six bits of a continuation byte. -/
def payload (b : UInt8) : Nat :=
  b.toNat % 64

/-- The character at the head of `b :: rest`, and how many bytes of `rest` belong to it. -/
def leading (b : UInt8) (rest : Bytes) : Char × Nat :=
  if b < 0x80 then (Char.ofNat b.toNat, 0)
  else if 0xc2 ≤ b && b ≤ 0xdf then
    match rest with
    | b₁ :: _ =>
      if isContinuation b₁ then (Char.ofNat (b.toNat % 32 * 64 + payload b₁), 1)
      else (replacement, 0)
    | [] => (replacement, 0)
  else if 0xe0 ≤ b && b ≤ 0xef then
    match rest with
    | b₁ :: b₂ :: _ =>
      if isSecond b b₁ && isContinuation b₂ then
        (Char.ofNat (b.toNat % 16 * 4096 + payload b₁ * 64 + payload b₂), 2)
      else (replacement, 0)
    | _ => (replacement, 0)
  else if 0xf0 ≤ b && b ≤ 0xf4 then
    match rest with
    | b₁ :: b₂ :: b₃ :: _ =>
      if isSecond b b₁ && isContinuation b₂ && isContinuation b₃ then
        (Char.ofNat
          (b.toNat % 8 * 262144 + payload b₁ * 4096 + payload b₂ * 64 + payload b₃), 3)
      else (replacement, 0)
    | _ => (replacement, 0)
  else (replacement, 0)

/-- Decoding with `skip` bytes still to pass over and the characters `acc` read so far, last
first. -/
def decodeAcc : Nat → Bytes → List Char → List Char
  | _, [], acc => acc.reverse
  | skip + 1, _ :: rest, acc => decodeAcc skip rest acc
  | 0, b :: rest, acc =>
    let (c, more) := leading b rest
    decodeAcc more rest (c :: acc)

/-- The characters of a text. -/
def decode (bytes : Bytes) : List Char :=
  decodeAcc 0 bytes []

/-- The bytes of a text. -/
def encode (s : String) : Bytes :=
  s.toUTF8.toList

/-- The pieces of a list between the occurrences of `sep`; there is one more piece than there are
occurrences. -/
def splitOn {α : Type} [DecidableEq α] (sep : α) (xs : List α) : List (List α) :=
  xs.foldr
    (fun x pieces =>
      if x = sep then [] :: pieces
      else match pieces with
        | [] => [[x]]
        | piece :: rest => (x :: piece) :: rest)
    [[]]

/-- The list without its last element when that element is the empty list. -/
def dropLastEmpty {α : Type} (pieces : List (List α)) : List (List α) :=
  match pieces.getLast? with
  | some [] => pieces.dropLast
  | _ => pieces

/-- The lines of a text. A final newline starts no further line, and the empty text has none. -/
def lines (bytes : Bytes) : List Bytes :=
  dropLastEmpty (splitOn 0x0a bytes)

end Text
end MiniLua
