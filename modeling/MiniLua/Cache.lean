import MiniLua.Digest
import MiniLua.Syntax.Basic

/-!
# Caches

A cache keeps a bounded number of values by their keys, in the order of their last use. Finding or
adding an entry makes it the newest; an addition beyond the bound drops the oldest.

Programs are kept by the digest of their texts, so two texts of one digest would share an entry.

## Delivered

- `Cache`: entries, newest first, and the bound on their number.
- `Cache.find?`, `Cache.add`: look up and add; both make their entry the newest.
- `ProgramCache`: parsed programs by the digests of their texts.
- `CacheCall`, `ProgramCache.call`: what can be asked of a cache, and its answer.
-/

set_option autoImplicit false

namespace MiniLua

/-- Values by key, the last used first. -/
structure Cache (κ α : Type) where
  capacity : Nat
  entries : List (κ × α) := []

namespace Cache

variable {κ α : Type} [DecidableEq κ]

/-- The value under a key. -/
def get? (c : Cache κ α) (key : κ) : Option α :=
  (c.entries.find? fun entry => entry.1 = key).map Prod.snd

/-- Put an entry in front, in place of any other entry of its key, and keep to the bound. -/
def add (c : Cache κ α) (key : κ) (value : α) : Cache κ α :=
  { c with entries := ((key, value) :: c.entries.filter fun entry => entry.1 ≠ key).take c.capacity }

/-- The value under a key, and the cache in which it is the newest. -/
def find? (c : Cache κ α) (key : κ) : Option (α × Cache κ α) :=
  (c.get? key).map fun value => (value, c.add key value)

/-- The number of entries. -/
def size (c : Cache κ α) : Nat :=
  c.entries.length

end Cache

/-- Parsed programs by the digests of their texts. -/
abbrev ProgramCache := Cache Digest Program

namespace ProgramCache

/-- The bound of a cache for which none is given. -/
def defaultCapacity : Nat := 128

/-- A cache of at most `bound` programs; a bound that is not positive stands for the default. -/
def make (bound : Int) : ProgramCache :=
  { capacity := if 0 < bound then bound.toNat else defaultCapacity }

/-- The program that was parsed from a text. -/
def find? (c : ProgramCache) (text : Bytes) : Option (Program × ProgramCache) :=
  Cache.find? c (Digest.ofBytes text)

/-- Keep the program that was parsed from a text. -/
def add (c : ProgramCache) (text : Bytes) (program : Program) : ProgramCache :=
  Cache.add c (Digest.ofBytes text) program

end ProgramCache

/-- A call on a cache: keep a program under a text, or look a text up. The program to be kept may be
left out. -/
inductive CacheCall where
  | add (text : Bytes) (program : Option Program)
  | get (text : Bytes)

/-- The program that a call finds, and the cache after it. Without a program nothing is kept. -/
def ProgramCache.call (c : ProgramCache) : CacheCall → Option Program × ProgramCache
  | .add _ none => (none, c)
  | .add text (some program) => (none, c.add text program)
  | .get text =>
    match c.find? text with
    | some (program, after) => (some program, after)
    | none => (none, c)

end MiniLua
