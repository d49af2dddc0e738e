import MiniLua.Text.Bytes
import MiniLua.Text.Quoted

/-!
# Digests of texts

The digest is BLAKE3 with thirty-two bytes of output. A text is cut into chunks of 1024 bytes, and a
chunk into blocks of 64 bytes, the last ones possibly shorter; the empty text is one chunk with one
empty block. The blocks of a chunk are compressed one after the other. The chunks are the leaves of
a binary tree whose left branches are as large as a power of two below the whole allows.

## Delivered

- `Digest`: the thirty-two bytes.
- `Digest.ofBytes`: the digest of a text; `Digest.hex`: its hexadecimal form.
-/

set_option autoImplicit false

namespace MiniLua

/-- The bytes of a digest. -/
structure Digest where
  bytes : Bytes
deriving DecidableEq

namespace Digest

/-! ## Compression -/

/-- The words that every computation starts from. -/
def start : Vector UInt32 8 :=
  #v[0x6A09E667, 0xBB67AE85, 0x3C6EF372, 0xA54FF53A, 0x510E527F, 0x9B05688C, 0x1F83D9AB, 0x5BE0CD19]

/-- The use of the first block of a chunk. -/
def chunkStart : UInt32 := 1

/-- The use of the last block of a chunk. -/
def chunkEnd : UInt32 := 2

/-- The use of a block that joins two branches. -/
def parent : UInt32 := 4

/-- The use of the very last block. -/
def root : UInt32 := 8

/-- The word turned right by `n` bits. -/
def turn (x n : UInt32) : UInt32 :=
  (x >>> n) ||| (x <<< (32 - n))

/-- Mix two message words into four words of the state. -/
def mix (s : Vector UInt32 16) (a b c d : Fin 16) (x y : UInt32) : Vector UInt32 16 :=
  let va := s.get a + s.get b + x
  let vd := turn (s.get d ^^^ va) 16
  let vc := s.get c + vd
  let vb := turn (s.get b ^^^ vc) 12
  let va := va + vb + y
  let vd := turn (vd ^^^ va) 8
  let vc := vc + vd
  let vb := turn (vb ^^^ vc) 7
  (((s.set a va).set b vb).set c vc).set d vd

/-- Mix all message words: the columns of the state, then its diagonals. -/
def round (s m : Vector UInt32 16) : Vector UInt32 16 :=
  let s := mix s 0 4 8 12 m[0] m[1]
  let s := mix s 1 5 9 13 m[2] m[3]
  let s := mix s 2 6 10 14 m[4] m[5]
  let s := mix s 3 7 11 15 m[6] m[7]
  let s := mix s 0 5 10 15 m[8] m[9]
  let s := mix s 1 6 11 12 m[10] m[11]
  let s := mix s 2 7 8 13 m[12] m[13]
  mix s 3 4 9 14 m[14] m[15]

/-- The message words in their order for the next round. -/
def permute (m : Vector UInt32 16) : Vector UInt32 16 :=
  #v[m[2], m[6], m[3], m[10], m[7], m[0], m[4], m[13],
    m[1], m[11], m[12], m[5], m[9], m[14], m[15], m[8]]

/-- Some rounds, with a permutation after each. -/
def rounds : Nat → Vector UInt32 16 → Vector UInt32 16 → Vector UInt32 16
  | 0, s, _ => s
  | n + 1, s, m => rounds n (round s m) (permute m)

/-- One block to be compressed: the words before it, its own words, the number of its chunk, its
length and its use. -/
structure Input where
  before : Vector UInt32 8
  block : Vector UInt32 16
  counter : Nat
  length : Nat
  use : UInt32

/-- The eight words that the compression of a block gives. -/
def Input.compress (i : Input) : Vector UInt32 8 :=
  let s : Vector UInt32 16 := i.before ++
    #v[start[0], start[1], start[2], start[3], i.counter.toUInt32, (i.counter >>> 32).toUInt32,
      i.length.toUInt32, i.use]
  let s := rounds 7 s i.block
  Vector.ofFn fun k : Fin 8 => s[k.val] ^^^ s[k.val + 8]

/-! ## Chunks -/

/-- A list cut into pieces of `n + 1` elements, the last one possibly shorter. -/
def pieces {α : Type} (n : Nat) : List α → List (List α)
  | [] => []
  | x :: xs => (x :: xs.take n) :: pieces n (xs.drop n)
termination_by xs => xs.length
decreasing_by
  simp only [List.length_drop, List.length_cons]
  omega

/-- The words of a block of at most 64 bytes, filled up with zeros; low bytes come first. -/
def words (block : Bytes) : Vector UInt32 16 :=
  let bytes := block.toArray
  Vector.ofFn fun i : Fin 16 =>
    let byte (k : Nat) : UInt32 := (bytes.getD (4 * i.val + k) 0).toUInt32
    byte 0 ||| (byte 1 <<< 8) ||| (byte 2 <<< 16) ||| (byte 3 <<< 24)

/-- Compress the blocks of a chunk up to the last one, which is left as an input. -/
def chunkInput (counter : Nat) : (before : Vector UInt32 8) → (use : UInt32) → List Bytes → Input
  | before, use, [] => ⟨before, words [], counter, 0, use ||| chunkEnd⟩
  | before, use, [block] => ⟨before, words block, counter, block.length, use ||| chunkEnd⟩
  | before, use, block :: rest =>
    chunkInput counter (Input.compress ⟨before, words block, counter, block.length, use⟩) 0 rest

/-- The last input of chunk number `counter`. -/
def leaf (counter : Nat) (chunk : Bytes) : Input :=
  chunkInput counter start chunkStart (pieces 63 chunk)

/-! ## The tree -/

/-- The input that joins two branches. -/
def join (left right : Input) : Input :=
  ⟨start, left.compress ++ right.compress, 0, 64, parent⟩

/-- The largest power of two below `n`, for `n` at least two. -/
def leftSize (n : Nat) : Nat :=
  Nat.pow 2 (Nat.log2 (n - 1))

theorem leftSize_pos (n : Nat) : 0 < leftSize n :=
  Nat.two_pow_pos _

theorem leftSize_lt (n : Nat) (h : 2 ≤ n) : leftSize n < n := by
  have h' : leftSize n ≤ n - 1 := Nat.log2_self_le (by omega)
  omega

/-- The last input of a tree over its leaves. -/
def tree : List Input → Input
  | [] => leaf 0 []
  | [i] => i
  | i :: j :: rest =>
    let k := leftSize (rest.length + 2)
    join (tree ((i :: j :: rest).take k)) (tree ((i :: j :: rest).drop k))
termination_by is => is.length
decreasing_by
  · have := leftSize_lt (rest.length + 2) (by omega)
    simp
    omega
  · have := leftSize_pos (rest.length + 2)
    simp
    omega

/-- The four bytes of a word, low byte first. -/
def wordBytes (w : UInt32) : Bytes :=
  [w.toUInt8, (w >>> 8).toUInt8, (w >>> 16).toUInt8, (w >>> 24).toUInt8]

/-- The digest of a text. -/
def ofBytes (text : Bytes) : Digest :=
  let leaves := (pieces 1023 text).mapIdx leaf
  let top := tree leaves
  ⟨(Input.compress { top with counter := 0, use := top.use ||| root }).toList.flatMap wordBytes⟩

/-- The digest in hexadecimal, two digits for each byte. -/
def hex (d : Digest) : String :=
  String.ofList (d.bytes.flatMap fun b => Text.hexDigits 2 b.toNat)

end Digest
end MiniLua
